import Mathlib.Data.List.Sort

/-!
# Unstable Sorting by a Comparator

A library sort that promises only what its documentation does: some rearrangement of the
input in which no element comes after one it is less than. Elements the comparator cannot
tell apart may come out in any order, and in another order the next time, so a sort is an
arbitrary `SliceSort` and a program that sorts takes one for every call.

## Main results

* `map_eq_of_sorted`: where the comparator tells all elements apart, every sort gives the
  same list. The statement is up to a key function, so that it covers inputs whose elements
  have changed in fields the comparator does not read.
-/

universe u v

/-- One call of a sort with comparator `less`. -/
structure SliceSort {α : Type u} (less : α → α → Bool) where
  /-- The list after the call. -/
  run : List α → List α
  /-- Nothing is lost or repeated. -/
  run_perm : ∀ l, (run l).Perm l
  /-- No element comes after one it is less than. -/
  run_sorted : ∀ l, (run l).Pairwise fun a b => less b a = false

namespace SliceSort

variable {α : Type u} {β : Type v} {less : α → α → Bool}

/-- **Sorting is deterministic without ties**: two ordered lists with the same keys agree in
their keys, if the comparator tells different keys apart. -/
theorem map_eq_of_sorted {f : α → β} {r : β → β → Bool} (hf : ∀ a b, less a b = r (f a) (f b))
    {l l' : List α} (hl : l.Pairwise fun a b => less b a = false)
    (hl' : l'.Pairwise fun a b => less b a = false) (hperm : (l.map f).Perm (l'.map f))
    (hties : ∀ x ∈ l.map f, ∀ y ∈ l.map f, r y x = false → r x y = false → x = y) :
    l.map f = l'.map f := by
  have hkeys : ∀ l : List α, l.Pairwise (fun a b => less b a = false) →
      (l.map f).Pairwise fun x y => r y x = false := by
    intro l hl
    rw [List.pairwise_map]
    refine hl.imp ?_
    intro a b h
    rw [← hf]
    exact h
  refine List.Perm.eq_of_pairwise ?_ (hkeys l hl) (hkeys l' hl') hperm
  intro x y hx hy hxy hyx
  exact hties x hx y (hperm.mem_iff.mpr hy) hxy hyx

/-- Insertion sort, for a comparator whose negation is transitive. -/
def insertion (less : α → α → Bool)
    (htrans : ∀ a b c, less b a = false → less c b = false → less c a = false)
    (htotal : ∀ a b, less b a = false ∨ less a b = false) : SliceSort less where
  run := List.insertionSort fun a b => less b a = false
  run_perm := List.perm_insertionSort _
  run_sorted := by
    have : IsTrans α fun a b => less b a = false := ⟨htrans⟩
    have : Std.Total fun a b : α => less b a = false := ⟨htotal⟩
    exact List.pairwise_insertionSort _

end SliceSort
