import Mathlib.Data.List.Basic
import Mathlib.Order.Basic

/-!
# Walks along a List

A walk visits the places of a list one after the other and stays at the last one (`Walks`). It
inherits the order of the list (`Walks.pairwise`), and what is not at the end of the list is
visited at most as often as it is listed (`Walks.count_le`).
-/

universe u

namespace List

variable {α : Type u} {list walk : List α}

/-- Step `k` of the walk is at place `k` of the list, or at its end. -/
def Walks (list walk : List α) : Prop :=
  ∀ k < walk.length, walk[k]? = list[min k (list.length - 1)]?

theorem Walks.nil (list : List α) : Walks list [] := fun _ hk => absurd hk (Nat.not_lt_zero _)

/-- One more step. -/
theorem Walks.snoc (h : Walks list walk) {a : α}
    (ha : list[min walk.length (list.length - 1)]? = some a) : Walks list (walk ++ [a]) := by
  intro k hk
  rw [length_append, length_singleton] at hk
  rcases Nat.lt_succ_iff_lt_or_eq.mp hk with hlt | rfl
  · rw [getElem?_append_left hlt]
    exact h k hlt
  · rw [getElem?_concat_length, ha]

/-- The place of a step. -/
theorem Walks.getElem (h : Walks list walk) {k : ℕ} (hk : k < walk.length) :
    ∃ hlt : min k (list.length - 1) < list.length, walk[k] = list[min k (list.length - 1)] := by
  have hat := h k hk
  rw [getElem?_eq_getElem hk] at hat
  obtain ⟨hlt, heq⟩ := getElem?_eq_some_iff.mp hat.symm
  exact ⟨hlt, heq.symm⟩

/-- A walk along an ordered list is ordered. -/
theorem Walks.pairwise {R : α → α → Prop} (h : Walks list walk) (hrefl : ∀ a, R a a)
    (hlist : list.Pairwise R) : walk.Pairwise R := by
  refine pairwise_iff_getElem.mpr ?_
  intro i j hi hj hij
  obtain ⟨hi', heqi⟩ := h.getElem hi
  obtain ⟨hj', heqj⟩ := h.getElem hj
  rw [heqi, heqj]
  by_cases hsame : min i (list.length - 1) = min j (list.length - 1)
  · simp only [hsame]
    exact hrefl _
  · exact pairwise_iff_getElem.mp hlist _ _ hi' hj' (by omega)

/-- As long as it does not stay, a walk is the list itself. -/
theorem Walks.take (h : Walks list walk) {n : ℕ} (hn : n ≤ list.length) :
    walk.take n = list.take (min walk.length n) := by
  refine ext_getElem? fun k => ?_
  rw [getElem?_take, getElem?_take]
  by_cases hk : k < n
  · by_cases hk' : k < walk.length
    · rw [if_pos hk, if_pos (by omega), h k hk', Nat.min_eq_left (by omega)]
    · rw [if_pos hk, if_neg (by omega), getElem?_eq_none (by omega)]
  · rw [if_neg hk, if_neg (by omega)]

/-- What is not at the end of the list is visited at most as often as it is listed. -/
theorem Walks.count_le [DecidableEq α] (h : Walks list walk) {a : α}
    (ha : list.getLast? ≠ some a) : walk.count a ≤ list.count a := by
  have hrest : a ∉ walk.drop (list.length - 1) := by
    intro hmem
    obtain ⟨k, hk⟩ := mem_iff_getElem?.mp hmem
    rw [getElem?_drop] at hk
    have hlt := (getElem?_eq_some_iff.mp hk).1
    rw [h _ hlt, Nat.min_eq_right (by omega)] at hk
    exact ha (getLast?_eq_getElem?.trans hk)
  calc walk.count a
      = (walk.take (list.length - 1)).count a + (walk.drop (list.length - 1)).count a := by
        rw [← count_append, take_append_drop]
    _ = (list.take (min walk.length (list.length - 1))).count a := by
        rw [count_eq_zero.mpr hrest, Nat.add_zero, h.take (by omega)]
    _ ≤ list.count a := (take_sublist _ _).count_le a

end List
