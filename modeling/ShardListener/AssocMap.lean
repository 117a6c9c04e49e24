import Mathlib.Data.List.AList
import Mathlib.Algebra.BigOperators.Group.List.Basic
import Mathlib.Data.Nat.Cast.Basic

/-!
# Finite Maps and Ranging over Them

Finite maps as association lists without repeated keys (Mathlib's `AList` at a
constant family), with the two facilities a program that mutates maps in place needs.

The first is a **weight**: the sum of a measure over the stored values. Inserting and
erasing change it by the measure of the entry written or removed, so any ledger kept
beside the map balances call by call (`weight_insert`, `weight_erase`).

The second is **ranging**: a loop that visits every key once, in an order chosen by
somebody else, and may rewrite or delete the entry it is visiting while threading an
accumulator. `RangeOrder` packages an arbitrary visiting order together with the fact
that it is a rearrangement, so a loop over an unordered map is a function of the order
and a theorem about every `RangeOrder` is a theorem about every order.

## Main results

* `lookup_range`: after the loop, the entry of a key is what the body made of it, for
  some value of the accumulator; the other iterations do not touch it.
* `range_invariant`: the loop rule. An invariant over the keys already visited, the
  accumulator and the map is preserved by the whole loop when one iteration preserves
  it; the body may assume the visited entry is still the one the loop started from.
-/

universe u v w

/-- A finite map from `κ` to `α`. -/
abbrev AssocMap (κ : Type u) (α : Type v) := AList fun _ : κ => α

namespace AList

variable {κ : Type u} {α : Type v} {σ : Type w}

/-- The number of keys. -/
def size (m : AssocMap κ α) : ℕ := m.entries.length

/-- The sum of the measure `wt` over all stored values. -/
def weight (wt : α → ℕ) (m : AssocMap κ α) : ℕ := (m.entries.map fun e => wt e.2).sum

@[simp] theorem size_empty : size (∅ : AssocMap κ α) = 0 := rfl

@[simp] theorem weight_empty (wt : α → ℕ) : weight wt (∅ : AssocMap κ α) = 0 := rfl

/-- The size is the weight of the constant measure. -/
theorem size_eq_weight (m : AssocMap κ α) : m.size = m.weight fun _ => 1 := by
  simp [size, weight]

theorem size_eq_length_keys (m : AssocMap κ α) : m.size = m.keys.length := by
  rw [size, AList.keys, List.keys, List.length_map]

variable [DecidableEq κ]

/-- A map without keys has no entry anywhere. -/
theorem lookup_eq_none_of_size_eq_zero {m : AssocMap κ α} (h : m.size = 0) (k : κ) :
    m.lookup k = none := by
  have hm : m = ∅ := AList.ext (List.eq_nil_of_length_eq_zero h)
  rw [hm, AList.lookup_empty]

/-- A map has no keys exactly when it has no entry anywhere. -/
theorem size_eq_zero_iff {m : AssocMap κ α} : m.size = 0 ↔ ∀ k, m.lookup k = none := by
  refine ⟨lookup_eq_none_of_size_eq_zero, ?_⟩
  intro h
  refine List.length_eq_zero_iff.mpr (List.eq_nil_iff_forall_not_mem.mpr ?_)
  intro e he
  have hlook : m.lookup e.1 = some e.2 := AList.mem_lookup_iff.mpr he
  exact absurd (hlook.symm.trans (h e.1)) (Option.some_ne_none _)

/-- Reading back after a write. -/
theorem lookup_insert_ite (m : AssocMap κ α) (k k' : κ) (a : α) :
    (m.insert k' a).lookup k = if k = k' then some a else m.lookup k := by
  by_cases h : k = k'
  · subst h
    rw [if_pos rfl, AList.lookup_insert]
  · rw [if_neg h, AList.lookup_insert_ne h]

/-- Reading back after a deletion. -/
theorem lookup_erase_ite (m : AssocMap κ α) (k k' : κ) :
    (m.erase k').lookup k = if k = k' then none else m.lookup k := by
  by_cases h : k = k'
  · subst h
    rw [if_pos rfl, AList.lookup_erase]
  · rw [if_neg h, AList.lookup_erase_ne h]

/-- An entry that is left after a deletion was there before. -/
theorem lookup_of_lookup_erase {m : AssocMap κ α} {k k' : κ} {a : α}
    (h : (m.erase k').lookup k = some a) : m.lookup k = some a := by
  rw [lookup_erase_ite] at h
  split at h
  · cases h
  · exact h

/-- Membership is having an entry. -/
theorem mem_iff_lookup {m : AssocMap κ α} {k : κ} : k ∈ m ↔ ∃ a, m.lookup k = some a := by
  rw [← AList.lookup_isSome, Option.isSome_iff_exists]

/-! ### Weights -/

/-- The measure of the entry at `k`, zero when there is none. -/
def weightAt (wt : α → ℕ) (m : AssocMap κ α) (k : κ) : ℕ := ((m.lookup k).map wt).getD 0

/-- The measure at a key that has an entry. -/
theorem weightAt_of_lookup {wt : α → ℕ} {m : AssocMap κ α} {k : κ} {a : α}
    (h : m.lookup k = some a) : m.weightAt wt k = wt a := by
  simp [weightAt, h]

/-- The measure at a key that has none. -/
theorem weightAt_of_lookup_none {wt : α → ℕ} {m : AssocMap κ α} {k : κ}
    (h : m.lookup k = none) : m.weightAt wt k = 0 := by
  simp [weightAt, h]

/-- The weight is the sum of the measures at the keys. -/
theorem sum_weightAt_keys (wt : α → ℕ) (m : AssocMap κ α) :
    (m.keys.map (m.weightAt wt)).sum = m.weight wt := by
  rw [AList.keys, List.keys, List.map_map, weight]
  refine congrArg List.sum (List.map_congr_left ?_)
  intro e he
  exact weightAt_of_lookup (AList.mem_lookup_iff.mpr he)

/-- Erasing a key removes exactly its measure from the weight. -/
theorem weight_erase (wt : α → ℕ) (m : AssocMap κ α) (k : κ) :
    (m.erase k).weight wt + m.weightAt wt k = m.weight wt := by
  cases hk : m.lookup k with
  | none =>
      have hnot : k ∉ m.entries.keys := AList.lookup_eq_none.mp hk
      have herase : m.erase k = m := AList.ext (List.kerase_of_notMem_keys hnot)
      rw [herase, weightAt_of_lookup_none hk, add_zero]
  | some a =>
      have hmem : k ∈ m.entries.keys := mem_iff_lookup.mpr ⟨a, hk⟩
      obtain ⟨b, l₁, l₂, hnot, hl, hker⟩ := List.exists_of_kerase hmem
      have hb : m.lookup k = some b := by
        rw [AList.mem_lookup_iff.mpr]
        rw [hl]
        simp
      rw [weightAt_of_lookup hb]
      have hent : (m.erase k).entries = l₁ ++ l₂ := hker
      rw [weight, weight, hent, hl]
      simp only [List.map_append, List.sum_append, List.map_cons, List.sum_cons]
      omega

/-- Writing a key trades its old measure for the new one. -/
theorem weight_insert (wt : α → ℕ) (m : AssocMap κ α) (k : κ) (a : α) :
    (m.insert k a).weight wt + m.weightAt wt k = m.weight wt + wt a := by
  have hent : (m.insert k a).weight wt = wt a + (m.erase k).weight wt := by
    simp only [weight, AList.entries_insert, List.map_cons, List.sum_cons]
    rfl
  have herase := weight_erase wt m k
  omega

/-- Erasing a present key makes the map smaller by one. -/
theorem size_erase_of_lookup {m : AssocMap κ α} {k : κ} {a : α} (h : m.lookup k = some a) :
    (m.erase k).size + 1 = m.size := by
  have := weight_erase (fun _ => 1) m k
  rwa [weightAt_of_lookup h, ← size_eq_weight, ← size_eq_weight] at this

/-- Writing a fresh key makes the map larger by one. -/
theorem size_insert_of_lookup_none {m : AssocMap κ α} {k : κ} (a : α)
    (h : m.lookup k = none) : (m.insert k a).size = m.size + 1 := by
  have := weight_insert (fun _ => 1) m k a
  rwa [weightAt_of_lookup_none h, add_zero, ← size_eq_weight, ← size_eq_weight] at this

/-- Rewriting a present key leaves the number of keys alone. -/
theorem size_insert_of_lookup {m : AssocMap κ α} {k : κ} {b : α} (a : α)
    (h : m.lookup k = some b) : (m.insert k a).size = m.size := by
  have := weight_insert (fun _ => 1) m k a
  rw [weightAt_of_lookup h, ← size_eq_weight, ← size_eq_weight] at this
  omega

/-! ### Ranging over a map -/

/-- Write the entry of `k`, or delete it. -/
def put (m : AssocMap κ α) (k : κ) : Option α → AssocMap κ α
  | some a => m.insert k a
  | none => m.erase k

/-- Reading back after `put`. -/
theorem lookup_put (m : AssocMap κ α) (k k' : κ) (o : Option α) :
    (m.put k' o).lookup k = if k = k' then o else m.lookup k := by
  cases o with
  | some a => exact lookup_insert_ite m k k' a
  | none => exact lookup_erase_ite m k k'

/-- Writing or deleting an entry trades its old measure for the new one. -/
theorem weight_put (wt : α → ℕ) (m : AssocMap κ α) (k : κ) (o : Option α) :
    (m.put k o).weight wt + m.weightAt wt k = m.weight wt + (o.map wt).getD 0 := by
  cases o with
  | some a => exact weight_insert wt m k a
  | none => exact weight_erase wt m k

/-- Visit the keys `ks` in turn. The body sees the accumulator, the key and its entry,
and decides the new accumulator and the new entry (`none` deletes it). A key that has
no entry any more is skipped. -/
def visit (body : σ → κ → α → σ × Option α) : List κ → σ → AssocMap κ α → σ × AssocMap κ α
  | [], s, m => (s, m)
  | k :: ks, s, m =>
      match m.lookup k with
      | none => visit body ks s m
      | some a => visit body ks (body s k a).1 (m.put k (body s k a).2)

end AList

/-- An order in which a loop may visit the keys of a map: any rearrangement. -/
structure RangeOrder (κ : Type u) where
  /-- The keys in visiting order. -/
  arrange : List κ → List κ
  /-- No key is lost or repeated. -/
  arrange_perm : ∀ ks, (arrange ks).Perm ks

/-- The visiting order that takes the keys as they are stored. -/
def RangeOrder.stored (κ : Type u) : RangeOrder κ := ⟨id, fun _ => List.Perm.refl _⟩

namespace AList

variable {κ : Type u} {α : Type v} {σ : Type w} [DecidableEq κ]

/-- Range over all keys of `m` in the order `ord`. -/
def range (ord : RangeOrder κ) (body : σ → κ → α → σ × Option α) (s : σ)
    (m : AssocMap κ α) : σ × AssocMap κ α :=
  visit body (ord.arrange m.keys) s m

variable {body : σ → κ → α → σ × Option α}

/-- Keys that are not visited keep their entry. -/
theorem lookup_visit_of_notMem {ks : List κ} {s : σ} {m : AssocMap κ α} {k : κ}
    (hk : k ∉ ks) : (visit body ks s m).2.lookup k = m.lookup k := by
  induction ks generalizing s m with
  | nil => rfl
  | cons k' ks ih =>
      obtain ⟨hne, hk'⟩ := not_or.mp (mt List.mem_cons.mpr hk)
      simp only [visit]
      cases hm : m.lookup k' with
      | none => exact ih hk'
      | some a => rw [ih hk', lookup_put, if_neg hne]

/-- A visited key is rewritten once, by the body. -/
theorem lookup_visit_of_mem {ks : List κ} (hnd : ks.Nodup) {s : σ} {m : AssocMap κ α}
    {k : κ} (hk : k ∈ ks) :
    ∃ s', (visit body ks s m).2.lookup k = (m.lookup k).bind fun a => (body s' k a).2 := by
  induction ks generalizing s m with
  | nil => cases hk
  | cons k' ks ih =>
      obtain ⟨hnot, hnd'⟩ := List.nodup_cons.mp hnd
      simp only [visit]
      by_cases heq : k = k'
      · subst heq
        cases hm : m.lookup k with
        | none => exact ⟨s, by simp [lookup_visit_of_notMem hnot, hm]⟩
        | some a => exact ⟨s, by simp [lookup_visit_of_notMem hnot, lookup_put]⟩
      · have hmem : k ∈ ks := (List.mem_cons.mp hk).resolve_left heq
        cases hm : m.lookup k' with
        | none => exact ih hnd' hmem
        | some a =>
            obtain ⟨s', hs'⟩ := ih hnd' (s := (body s k' a).1)
              (m := m.put k' (body s k' a).2) hmem
            rw [lookup_put, if_neg heq] at hs'
            exact ⟨s', hs'⟩

/-- **What a loop does to one key.** The entry after the loop is what the body made of
the entry before it, for the accumulator of that iteration. -/
theorem lookup_range (body : σ → κ → α → σ × Option α) (ord : RangeOrder κ) (s : σ)
    (m : AssocMap κ α) (k : κ) :
    ∃ s', (range ord body s m).2.lookup k = (m.lookup k).bind fun a => (body s' k a).2 := by
  have hperm := ord.arrange_perm m.keys
  by_cases hk : k ∈ m.keys
  · exact lookup_visit_of_mem (hperm.nodup_iff.mpr m.keys_nodup) (hperm.mem_iff.mpr hk)
  · refine ⟨s, ?_⟩
    rw [range, lookup_visit_of_notMem (fun h => hk (hperm.mem_iff.mp h))]
    rw [AList.lookup_eq_none.mpr hk]
    rfl

/-- The loop rule over an explicit list of keys still to visit. -/
theorem visit_invariant {P : List κ → σ → AssocMap κ α → Prop} (m₀ : AssocMap κ α)
    (hstep : ∀ done s m k a, k ∉ done → m₀.lookup k = some a → m.lookup k = some a →
      P done s m → P (k :: done) (body s k a).1 (m.put k (body s k a).2))
    {ks done : List κ} (hnd : (ks ++ done).Nodup) {s : σ} {m : AssocMap κ α}
    (hin : ∀ k ∈ ks, ∃ a, m₀.lookup k = some a ∧ m.lookup k = some a)
    (h : P done s m) :
    P (ks.reverse ++ done) (visit body ks s m).1 (visit body ks s m).2 := by
  induction ks generalizing done s m with
  | nil => exact h
  | cons k ks ih =>
      obtain ⟨a, ha₀, ha⟩ := hin k List.mem_cons_self
      rw [List.cons_append] at hnd
      obtain ⟨hnot, hnd'⟩ := List.nodup_cons.mp hnd
      rw [List.mem_append, not_or] at hnot
      simp only [visit, ha]
      rw [List.reverse_cons, List.append_assoc, List.singleton_append]
      refine ih ?_ ?_ (hstep done s m k a hnot.2 ha₀ ha h)
      · rw [List.nodup_append] at hnd' ⊢
        refine ⟨hnd'.1, List.nodup_cons.mpr ⟨hnot.2, hnd'.2.1⟩, ?_⟩
        intro x hx y hy
        rcases List.mem_cons.mp hy with rfl | hy
        · exact fun hxy => hnot.1 (hxy ▸ hx)
        · exact hnd'.2.2 x hx y hy
      · intro k' hk'
        obtain ⟨a', h₀, h₁⟩ := hin k' (List.mem_cons_of_mem _ hk')
        refine ⟨a', h₀, ?_⟩
        have hne : k' ≠ k := fun heq => hnot.1 (heq ▸ hk')
        rw [lookup_put, if_neg hne, h₁]

/-- **The loop rule.** `P` relates the keys visited so far to the accumulator and the
map; one iteration may assume that its key is new and still carries its first entry. -/
theorem range_invariant {P : List κ → σ → AssocMap κ α → Prop}
    (body : σ → κ → α → σ × Option α) (ord : RangeOrder κ) {s : σ} {m : AssocMap κ α}
    (h : P [] s m)
    (hstep : ∀ done s' m' k a, k ∉ done → m.lookup k = some a → m'.lookup k = some a →
      P done s' m' → P (k :: done) (body s' k a).1 (m'.put k (body s' k a).2)) :
    ∃ done : List κ, done.Perm m.keys ∧
      P done (range ord body s m).1 (range ord body s m).2 := by
  have hperm := ord.arrange_perm m.keys
  refine ⟨(ord.arrange m.keys).reverse, (List.reverse_perm _).trans hperm, ?_⟩
  have hnd : (ord.arrange m.keys ++ []).Nodup := by
    rw [List.append_nil]
    exact hperm.nodup_iff.mpr m.keys_nodup
  have hin : ∀ k ∈ ord.arrange m.keys, ∃ a, m.lookup k = some a ∧ m.lookup k = some a := by
    intro k hk
    obtain ⟨a, ha⟩ := mem_iff_lookup.mp (AList.mem_keys.mpr (hperm.mem_iff.mp hk))
    exact ⟨a, ha, ha⟩
  have key := visit_invariant m hstep hnd hin h
  rwa [List.append_nil] at key

end AList
