import Mathlib.Data.List.Basic

/-!
# Arrays whose Places Keep the First Write

An array of `n` places, all empty at first, that receives writes `(i, a)`. A write to an
empty place stores its value; a write to a filled place, or past the end, is ignored. The
contents after any sequence of writes is `array n ws`: every place holds the first value
written to it (`array_append_free`, `array_append_taken`). Counting the stored values
therefore tells when the array is full, whatever the order and the repetitions of the
writes (`countP_set_some`, `exists_map_some`).
-/

universe u

namespace FirstWrite

variable {α : Type u} {n i : ℕ}

/-- The array of `n` places after the writes `ws`. -/
def array (n : ℕ) (ws : List (ℕ × α)) : List (Option α) :=
  (List.range n).map fun i => ws.lookup i

@[simp] theorem array_nil : array n ([] : List (ℕ × α)) = List.replicate n none := by
  rw [array, List.eq_replicate_iff]
  simp

@[simp] theorem length_array (ws : List (ℕ × α)) : (array n ws).length = n := by
  simp [array]

/-- The content of one place. -/
theorem getElem?_array (ws : List (ℕ × α)) :
    (array n ws)[i]? = if i < n then some (ws.lookup i) else none := by
  by_cases h : i < n
  · rw [if_pos h]
    simp [array, h]
  · rw [if_neg h, List.getElem?_eq_none_iff, length_array]
    exact Nat.le_of_not_lt h

/-- A place is empty when it is in range and nothing was written to it. -/
theorem getElem?_array_eq_free {ws : List (ℕ × α)} :
    (array n ws)[i]? = some none ↔ i < n ∧ ws.lookup i = none := by
  rw [getElem?_array]
  by_cases h : i < n
  · rw [if_pos h, Option.some.injEq]
    exact (and_iff_right h).symm
  · rw [if_neg h]
    exact ⟨(nomatch ·), fun hc => absurd hc.1 h⟩

/-- Reading a place after one more write. -/
theorem lookup_append_singleton (ws : List (ℕ × α)) (i j : ℕ) (a : α) :
    (ws ++ [(i, a)]).lookup j = (ws.lookup j).or (if j = i then some a else none) := by
  rw [List.lookup_append]
  congr 1
  by_cases h : j = i
  · subst h
    simp
  · rw [if_neg h]
    simp [List.lookup_cons, beq_false_of_ne h]

/-- **A write to an empty place** is stored there. -/
theorem array_append_free {ws : List (ℕ × α)} (h : (array n ws)[i]? = some none) (a : α) :
    array n (ws ++ [(i, a)]) = (array n ws).set i (some a) := by
  obtain ⟨hi, hfree⟩ := getElem?_array_eq_free.mp h
  apply List.ext_getElem?
  intro j
  rw [getElem?_array, lookup_append_singleton, List.getElem?_set, getElem?_array, length_array]
  by_cases hij : i = j
  · subst hij
    simp [hi, hfree]
  · rw [if_neg hij, if_neg (Ne.symm hij), Option.or_none]

/-- **A write to a filled place**, or past the end, is ignored. -/
theorem array_append_taken {ws : List (ℕ × α)} (h : (array n ws)[i]? ≠ some none) (a : α) :
    array n (ws ++ [(i, a)]) = array n ws := by
  apply List.ext_getElem?
  intro j
  rw [getElem?_array, lookup_append_singleton, getElem?_array]
  by_cases hj : j < n
  · rw [if_pos hj, if_pos hj]
    by_cases hji : j = i
    · subst hji
      cases hlook : ws.lookup j with
      | none => exact absurd (getElem?_array_eq_free.mpr ⟨hj, hlook⟩) h
      | some b => rfl
    · rw [if_neg hji, Option.or_none]
  · rw [if_neg hj, if_neg hj]

/-- Filling an empty place makes the count of filled places larger by one. -/
theorem countP_set_some {xs : List (Option α)} (h : xs[i]? = some none) (a : α) :
    (xs.set i (some a)).countP Option.isSome = xs.countP Option.isSome + 1 := by
  obtain ⟨hi, hx⟩ := List.getElem?_eq_some_iff.mp h
  rw [List.countP_set hi, hx]
  rfl

/-- An array with an empty place is not full. -/
theorem countP_lt_length {xs : List (Option α)} (h : xs[i]? = some none) :
    xs.countP Option.isSome < xs.length := by
  refine Nat.lt_of_le_of_ne List.countP_le_length ?_
  intro heq
  exact Bool.false_ne_true (List.countP_eq_length.mp heq none (List.mem_of_getElem? h))

/-- The values of an array without empty places. -/
theorem exists_map_some {xs : List (Option α)} (h : ∀ x ∈ xs, x.isSome) :
    ∃ ys : List α, xs = ys.map some := by
  induction xs with
  | nil => exact ⟨[], rfl⟩
  | cons x xs ih =>
      obtain ⟨y, rfl⟩ := Option.isSome_iff_exists.mp (h x List.mem_cons_self)
      obtain ⟨ys, rfl⟩ := ih fun x hx => h x (List.mem_cons_of_mem _ hx)
      exact ⟨y :: ys, rfl⟩

end FirstWrite
