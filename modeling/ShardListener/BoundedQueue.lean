import Mathlib.Data.List.DropRight
import Mathlib.Data.List.Nodup
import ShardListener.Machine

/-!
# Bounded Queues of Distinct Values

A queue of at most `C` distinct values, the oldest first. It is asked for a value and takes it
in if it does not have it (`offer`); a full queue then loses its oldest value. Both bounds are
part of the type, so a run of offers cannot leave it (`after`).
-/

universe u

/-- At most `C` distinct values, the oldest first. -/
structure BoundedQueue (α : Type u) (C : ℕ) where
  items : List α
  nodup : items.Nodup
  length_le : items.length ≤ C

namespace BoundedQueue

variable {α : Type u} {C : ℕ}

/-- The empty queue. -/
def empty : BoundedQueue α C := ⟨[], List.nodup_nil, Nat.zero_le C⟩

/-- Add a value that the queue does not have. Only the last `C` values stay. -/
def push (q : BoundedQueue α C) (a : α) (ha : a ∉ q.items) : BoundedQueue α C where
  items := (q.items ++ [a]).rtake C
  nodup := by
    have hnodup : (q.items ++ [a]).Nodup := by
      rw [← List.concat_eq_append]
      exact q.nodup.concat ha
    exact hnodup.sublist (List.drop_sublist _ _)
  length_le := by
    rw [List.rtake, List.length_drop]
    omega

variable [DecidableEq α]

/-- Ask for a value, and add it if the queue does not have it. The answer is whether it had
it. -/
def offer (q : BoundedQueue α C) (a : α) : BoundedQueue α C × Bool :=
  if h : a ∈ q.items then (q, true) else (q.push a h, false)

/-- A value that the queue has changes nothing. -/
theorem offer_of_mem {q : BoundedQueue α C} {a : α} (h : a ∈ q.items) : q.offer a = (q, true) :=
  dif_pos h

/-- An element that is not in the queue is added. -/
theorem offer_of_notMem {q : BoundedQueue α C} {a : α} (h : a ∉ q.items) :
    q.offer a = (q.push a h, false) := dif_neg h

/-- The queue after some offers. -/
def after (C : ℕ) (as : List α) : BoundedQueue α C :=
  Machine.run (fun q a => (q.offer a).1) empty as

/-- The last element is offered to what the others left. -/
theorem after_snoc (as : List α) (a : α) :
    after C (as ++ [a]) = ((after C as).offer a).1 := Machine.run_snoc _ _ _ _

end BoundedQueue
