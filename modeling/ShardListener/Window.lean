import ShardListener.Dedup
import ShardListener.KeyedList
import ShardListener.Machine
import ShardListener.WriteRing

/-!
# How Long a Key is Remembered

A call that returns false inserts its key: it is a write to the ring of the duplicate set. So
the set is described by the keys of these calls (`misses`), and what the map still has is what
a set beside the ring keeps (`Logged`). A remembered key expires `ttl` after its last call
(`Dated`), which is the latest one when the clock readings are ordered (`Fresh`).

An expired key is inserted again while its old place in the ring still carries it. When that
place is overwritten, the map loses the key although it has just been inserted.

## Main results

* `Logged.step`: what is remembered, after any call.
* `remembers_recent_iff`: a key inserted less than `capacity` insertions ago and called within
  `ttl` is remembered, unless an earlier insertion of it has been overwritten since.
* `seen_only_if_called`: a key is reported only within `ttl` of the last call for it.
* `expired_key_forgotten`: an expired key that is inserted again is lost.
-/

namespace ShardListener.DedupSet

/-- A `SeenAndAdd` call: the clock reading and the key. -/
abbrev Query := Time × DedupKey

/-- One call. Its output is the key, when the call returns false. -/
def step (s : DedupSet) (q : Query) : DedupSet × List DedupKey :=
  ((s.seenAndAdd q.1 q.2).1, if (s.seenAndAdd q.1 q.2).2 then [] else [q.2])

/-- The set after some calls. -/
def after (s : DedupSet) (qs : List Query) : DedupSet := Machine.run (Machine.next step) s qs

/-- The keys of the calls that return false, in order. -/
def misses (s : DedupSet) (qs : List Query) : List DedupKey := Machine.outputs step s qs

/-- The key of sequence number `n`. -/
def testKey (n : UInt64) : DedupKey := ⟨0, Bytes32.ofByte 0, n⟩

/-! ### One call -/

section Call

variable {s : DedupSet} {now : Time} {key k : DedupKey}

/-- When a call reports its key as seen. -/
theorem seen_iff (hcap : s.capacity ≠ 0) :
    (s.seenAndAdd now key).2 = true ↔
      ∃ exp, s.entries.lookup key = some exp ∧ (s.ttl ≤ 0 ∨ now ≤ exp) := by
  rcases seenAndAdd_cases s now key with
    ⟨hzero, -⟩ | ⟨-, hseen, expiry, heq⟩ | ⟨-, hstale, expiry, -, heq⟩
  · exact absurd hzero hcap
  · rw [heq]
    exact iff_of_true rfl hseen
  · rw [heq]
    refine iff_of_false Bool.false_ne_true ?_
    rintro ⟨exp, hexp, hlive⟩
    obtain ⟨httl, hlt⟩ := hstale exp hexp
    exact hlive.elim (not_le.mpr httl) (not_le.mpr hlt)

/-- A disabled set reports nothing. -/
theorem seen_iff_lookup :
    (s.seenAndAdd now key).2 = true ↔ s.capacity ≠ 0 ∧
      ∃ exp, s.entries.lookup key = some exp ∧ (s.ttl ≤ 0 ∨ now ≤ exp) := by
  by_cases hcap : s.capacity = 0
  · rw [seenAndAdd, if_pos hcap]
    exact iff_of_false Bool.false_ne_true fun h => h.1 hcap
  · rw [seen_iff hcap, and_iff_right hcap]

/-- No call changes the parameters of the set. -/
@[simp] theorem seenAndAdd_capacity (s : DedupSet) (now : Time) (key : DedupKey) :
    (s.seenAndAdd now key).1.capacity = s.capacity := by
  rcases seenAndAdd_cases s now key with ⟨-, heq⟩ | ⟨-, -, expiry, heq⟩ | ⟨-, -, expiry, -, heq⟩
  · rw [heq]
  · rw [heq]
  · rw [heq]
    rfl

@[simp] theorem seenAndAdd_ttl (s : DedupSet) (now : Time) (key : DedupKey) :
    (s.seenAndAdd now key).1.ttl = s.ttl := by
  rcases seenAndAdd_cases s now key with ⟨-, heq⟩ | ⟨-, -, expiry, heq⟩ | ⟨-, -, expiry, -, heq⟩
  · rw [heq]
  · rw [heq]
  · rw [heq]
    rfl

/-- A call writes the expiry of its key. -/
theorem lookup_seenAndAdd_self (hcap : s.capacity ≠ 0) (httl : 0 < s.ttl) :
    (s.seenAndAdd now key).1.entries.lookup key = some (now + s.ttl) := by
  rw [seenAndAdd, if_neg hcap, if_pos httl]
  dsimp only
  split
  · split
    · rw [AList.lookup_insert]
    · rw [insert, AList.lookup_insert]
  · rw [insert, AList.lookup_insert]

/-- An insertion leaves the expiry of the other keys it does not drop. -/
theorem lookup_of_lookup_insert {expiry exp : Time} (hne : k ≠ key)
    (h : (s.insert key expiry).entries.lookup k = some exp) : s.entries.lookup k = some exp := by
  rw [insert, AList.lookup_insert_ne hne] at h
  split at h
  · split at h
    · exact AList.lookup_of_lookup_erase h
    · exact h
  · exact h

/-- A call leaves the expiry of the other keys it does not drop. -/
theorem lookup_of_lookup_seenAndAdd {exp : Time} (hne : k ≠ key)
    (h : (s.seenAndAdd now key).1.entries.lookup k = some exp) :
    s.entries.lookup k = some exp := by
  rcases seenAndAdd_cases s now key with
    ⟨-, heq⟩ | ⟨-, -, expiry, heq⟩ | ⟨-, -, expiry, -, heq⟩
  · rwa [heq] at h
  · rwa [heq, AList.lookup_insert_ne hne] at h
  · rw [heq] at h
    exact lookup_of_lookup_insert hne h

/-- The parameters of the set along a run. -/
theorem after_capacity (s : DedupSet) (qs : List Query) : (s.after qs).capacity = s.capacity := by
  refine Machine.run_invariant (P := fun s' : DedupSet => s'.capacity = s.capacity) rfl ?_ qs
  intro s' q h
  rw [Machine.next, step, seenAndAdd_capacity, h]

theorem after_ttl (s : DedupSet) (qs : List Query) : (s.after qs).ttl = s.ttl := by
  refine Machine.run_invariant (P := fun s' : DedupSet => s'.ttl = s.ttl) rfl ?_ qs
  intro s' q h
  rw [Machine.next, step, seenAndAdd_ttl, h]

end Call

/-- A new set remembers nothing. -/
theorem new_entries (capacity : ℤ) (ttl : Duration) : (DedupSet.new capacity ttl).entries = ∅ := by
  rw [DedupSet.new]
  split <;> rfl

/-- A set that is not disabled has the `ttl` it was given. -/
theorem new_ttl {capacity : ℤ} {ttl : Duration} (hcap : (DedupSet.new capacity ttl).capacity ≠ 0) :
    (DedupSet.new capacity ttl).ttl = ttl := by
  rw [DedupSet.new] at hcap ⊢
  split
  · rename_i hle
    rw [if_pos hle] at hcap
    exact absurd rfl hcap
  · rfl

/-! ### The set and its insertions -/

/-- The set after the insertions `ins`: the ring holds the last of them, and the map has what
is kept beside the ring. -/
structure Logged (C : ℕ) (ttl : Duration) (s : DedupSet) (ins : List DedupKey) : Prop where
  capacity : s.capacity = C
  ttl : s.ttl = ttl
  ring : WriteRing.Holds C s.ring ins
  head : s.head = ins.length % C
  count : s.count = min ins.length C
  entries : ∀ k, k ∈ s.entries ↔ WriteRing.Kept C ins k

section Logged

variable {C : ℕ} {ttl : Duration} {s : DedupSet} {ins : List DedupKey} {key : DedupKey}

theorem Logged.new (hC : 1 ≤ C) (ttl : Duration) : Logged C ttl (new C ttl) [] := by
  have hpos : ¬ (C : ℤ) ≤ 0 := by omega
  rw [DedupSet.new, if_neg hpos, Int.toNat_natCast]
  refine ⟨rfl, rfl, .start C _, ?_, ?_, ?_⟩
  · rw [List.length_nil, Nat.zero_mod]
  · rw [List.length_nil, Nat.zero_min]
  · intro k
    exact iff_of_false (AList.notMem_empty k) fun h => absurd h.1 List.not_mem_nil

/-- Refreshing a remembered key writes nothing to the ring. -/
theorem Logged.refresh (h : Logged C ttl s ins) (hkey : key ∈ s.entries) (expiry : Time) :
    Logged C ttl { s with entries := s.entries.insert key expiry } ins where
  capacity := h.capacity
  ttl := h.ttl
  ring := h.ring
  head := h.head
  count := h.count
  entries := by
    intro k
    rw [AList.mem_insert, ← h.entries k]
    refine ⟨?_, Or.inr⟩
    rintro (rfl | hk)
    · exact hkey
    · exact hk

/-- What an insertion leaves of the map: all keys but the one it overwrites in a full ring. -/
theorem Logged.mem_insert (h : Logged C ttl s ins) (hC : 0 < C) (expiry : Time) (k : DedupKey) :
    k ∈ (s.insert key expiry).entries ↔
      k = key ∨ (k ∈ s.entries ∧ ¬ (C ≤ ins.length ∧ ins[ins.length - C]? = some k)) := by
  rw [DedupSet.insert, AList.mem_insert, h.count, h.capacity, h.head]
  refine or_congr_right ?_
  by_cases hfull : C ≤ ins.length
  · rw [if_pos (Nat.min_eq_right hfull), h.ring.oldest hC hfull,
      List.getElem?_eq_getElem (show ins.length - C < ins.length by omega)]
    dsimp only
    rw [AList.mem_erase, Option.some.injEq, and_comm, and_iff_right hfull, eq_comm]
  · rw [if_neg (by omega)]
    exact (and_iff_left fun hc => hfull hc.1).symm

/-- **An insertion** is a write to the ring. -/
theorem Logged.insert (h : Logged C ttl s ins) (hC : 0 < C) (key : DedupKey) (expiry : Time) :
    Logged C ttl (s.insert key expiry) (ins ++ [key]) where
  capacity := h.capacity
  ttl := h.ttl
  ring := by
    have := h.ring.write hC key
    rwa [← h.head] at this
  head := by
    show (s.head + 1) % s.capacity = _
    rw [h.head, h.capacity, List.length_append, List.length_singleton, Nat.mod_add_mod]
  count := by
    show (if s.count = s.capacity then s.count else s.count + 1) = _
    rw [h.count, h.capacity, List.length_append, List.length_singleton]
    split <;> omega
  entries := by
    intro k
    rw [h.mem_insert hC, WriteRing.kept_append hC, h.entries k]

/-- **The step lemma**: a call writes its key to the ring exactly when it returns false. -/
theorem Logged.step (h : Logged C ttl s ins) (hC : 0 < C) (q : Query) :
    Logged C ttl (s.step q).1 (ins ++ (s.step q).2) := by
  rw [DedupSet.step]
  rcases seenAndAdd_cases s q.1 q.2 with
    ⟨hzero, -⟩ | ⟨-, ⟨exp, hexp, -⟩, expiry, heq⟩ | ⟨-, -, expiry, -, heq⟩
  · rw [h.capacity] at hzero
    omega
  · rw [heq, if_pos rfl, List.append_nil]
    exact h.refresh (AList.mem_iff_lookup.mpr ⟨exp, hexp⟩) expiry
  · rw [heq, if_neg Bool.false_ne_true]
    exact h.insert hC q.2 expiry

/-- The run lemma. -/
theorem logged_after (hC : 1 ≤ C) (ttl : Duration) (qs : List Query) :
    Logged C ttl ((DedupSet.new C ttl).after qs) ((DedupSet.new C ttl).misses qs) := by
  refine @Machine.run_history _ _ (Machine.next DedupSet.step) _
    (fun qs s => Logged C ttl s ((DedupSet.new C ttl).misses qs)) (.new hC ttl) ?_ qs
  intro qs q h
  have hmisses : (DedupSet.new C ttl).misses (qs ++ [q]) =
      (DedupSet.new C ttl).misses qs ++ (((DedupSet.new C ttl).after qs).step q).2 :=
    Machine.outputs_snoc qs q
  rw [hmisses]
  exact h.step hC q

end Logged

/-! ### Expiry -/

/-- A remembered key expires no earlier than `ttl` after any call for it. -/
def Fresh (qs : List Query) (s : DedupSet) : Prop :=
  ∀ q ∈ qs, ∀ exp, s.entries.lookup q.2 = some exp → q.1 + s.ttl ≤ exp

/-- The clock does not run backwards. -/
def Clocked (qs : List Query) : Prop := qs.Pairwise fun q q' => q.1 ≤ q'.1

instance (qs : List Query) : Decidable (Clocked qs) := inferInstanceAs (Decidable (qs.Pairwise _))

/-- The last call for `k` was made at `t`. -/
def LastCall (qs : List Query) (k : DedupKey) (t : Time) : Prop :=
  qs.Standing (fun q => q.2 = k) (t, k)

/-- The expiry of a remembered key was written by the last call for it. -/
def Dated (qs : List Query) (s : DedupSet) : Prop :=
  ∀ k exp, s.entries.lookup k = some exp → ∃ t, LastCall qs k t ∧ (0 < s.ttl → exp = t + s.ttl)

/-- The step lemma. The clock readings are arbitrary. -/
theorem Dated.step {qs : List Query} {s : DedupSet} (h : Dated qs s) (hcap : s.capacity ≠ 0)
    (q : Query) : Dated (qs ++ [q]) (s.step q).1 := by
  intro k exp hexp
  have httl : (s.step q).1.ttl = s.ttl := seenAndAdd_ttl s q.1 q.2
  rw [httl]
  by_cases hkey : k = q.2
  · subst hkey
    refine ⟨q.1, List.standing_append_singleton.mpr (.inl rfl), ?_⟩
    intro hpos
    exact Option.some.inj (hexp.symm.trans (lookup_seenAndAdd_self hcap hpos))
  · -- the call is for another key, which can only drop the entry of `k`
    obtain ⟨t, hlast, hdate⟩ := h k exp (lookup_of_lookup_seenAndAdd hkey hexp)
    exact ⟨t, List.standing_append_singleton.mpr (.inr ⟨Ne.symm hkey, hlast⟩), hdate⟩

/-- The run lemma. -/
theorem Dated.after {s : DedupSet} (h : Dated [] s) (hcap : s.capacity ≠ 0) (qs : List Query) :
    Dated qs (s.after qs) := by
  refine @Machine.run_history _ _ (Machine.next DedupSet.step) _ (fun qs s => Dated qs s) h ?_ qs
  intro qs q hqs
  refine hqs.step ?_ q
  rwa [← DedupSet.after, after_capacity]

theorem dated_new (capacity : ℤ) (ttl : Duration) : Dated [] (DedupSet.new capacity ttl) := by
  intro k exp hexp
  rw [new_entries] at hexp
  cases hexp

/-- **No false positives.** A call returns true only if an earlier one had the same key; when
keys expire, the last such call is not older than `ttl`. -/
theorem seen_only_if_called (capacity : ℤ) (ttl : Duration) (qs : List Query) (now : Time)
    (k : DedupKey)
    (hseen : (((DedupSet.new capacity ttl).after qs).seenAndAdd now k).2 = true) :
    ∃ t, LastCall qs k t ∧ (0 < ttl → now ≤ t + ttl) := by
  obtain ⟨hcap, hlook⟩ := seen_iff_lookup.mp hseen
  obtain ⟨exp, hexp, hlive⟩ := hlook
  rw [after_capacity] at hcap
  obtain ⟨t, hlast, hdate⟩ := (dated_new capacity ttl).after hcap qs k exp hexp
  refine ⟨t, hlast, ?_⟩
  intro hpos
  have httl : ((DedupSet.new capacity ttl).after qs).ttl = ttl := by
    rw [after_ttl, new_ttl hcap]
  rw [httl] at hdate hlive
  rw [← hdate hpos]
  exact hlive.resolve_left (not_le.mpr hpos)

/-- Readings out of order: the key called at 20 and then at 5 is still found at 14, within 10 of
its last call, though not in the order of the clock. -/
theorem seen_only_if_called_unordered :
    (((DedupSet.new 2 10).after [(20, testKey 1), (5, testKey 1)]).seenAndAdd 14
      (testKey 1)).2 = true ∧
    ∃ t, LastCall [(20, testKey 1), (5, testKey 1)] (testKey 1) t ∧
      ((0 : Duration) < 10 → (14 : Time) ≤ t + 10) := by
  have hseen : (((DedupSet.new 2 10).after [(20, testKey 1), (5, testKey 1)]).seenAndAdd 14
      (testKey 1)).2 = true := by decide
  exact ⟨hseen, seen_only_if_called 2 10 _ 14 (testKey 1) hseen⟩

/-- With ordered clock readings, the last call for a key is also the latest. -/
theorem LastCall.latest {qs : List Query} {k : DedupKey} {t : Time} (h : LastCall qs k t)
    (hclock : Clocked qs) {q : Query} (hq : q ∈ qs) (hk : q.2 = k) : q.1 ≤ t := by
  obtain ⟨before, later, rfl, hlater⟩ := h
  rcases List.mem_append.mp hq with hq | hq
  · exact (List.pairwise_append.mp hclock).2.2 q hq (t, k) List.mem_cons_self
  · rcases List.mem_cons.mp hq with rfl | hq
    · exact le_rfl
    · exact absurd hk (hlater q hq)

theorem fresh_after {C : ℕ} {ttl : Duration} (hC : 1 ≤ C) (httl : 0 < ttl) {qs : List Query}
    (hclock : Clocked qs) : Fresh qs ((DedupSet.new C ttl).after qs) := by
  intro q hq exp hexp
  have hlog := logged_after hC ttl qs
  have hcap : (DedupSet.new C ttl).capacity ≠ 0 := by
    rw [(Logged.new hC ttl).capacity]
    omega
  obtain ⟨t, hlast, hdate⟩ := (dated_new C ttl).after hcap qs q.2 exp hexp
  rw [hlog.ttl] at hdate ⊢
  rw [hdate httl]
  exact Int.add_le_add_right (hlast.latest hclock hq rfl) _

/-- **A key that was inserted less than `capacity` insertions ago and called within `ttl` is
remembered**, unless an earlier insertion of it was overwritten after the last one. -/
theorem remembers_recent_iff (C : ℕ) (ttl : Duration) (hC : 1 ≤ C) (httl : 0 < ttl)
    (qs : List Query) (now t : Time) (k : DedupKey) (hclock : Clocked (qs ++ [(now, k)]))
    (hcall : (t, k) ∈ qs) (hlive : now ≤ t + ttl) (before after : List DedupKey)
    (hmisses : (DedupSet.new C ttl).misses qs = before ++ k :: after) (hlast : k ∉ after)
    (hfew : after.length < C) :
    (((DedupSet.new C ttl).after qs).seenAndAdd now k).2 = true ↔
      ¬ WriteRing.Overwritten C ((DedupSet.new C ttl).misses qs) k := by
  have hlog := logged_after hC ttl qs
  have hfresh := fresh_after hC httl (List.pairwise_append.mp hclock).1
  have hcap : ((DedupSet.new C ttl).after qs).capacity ≠ 0 := by
    rw [hlog.capacity]
    omega
  rw [← WriteRing.kept_iff hmisses hlast hfew, ← hlog.entries, seen_iff hcap,
    AList.mem_iff_lookup]
  refine exists_congr fun exp => and_iff_left_of_imp ?_
  intro hexp
  have hlater := hfresh _ hcall exp hexp
  rw [hlog.ttl] at hlater
  exact Or.inr (hlive.trans hlater)

/-! A key that expires and comes back, in a set for two keys. -/

/-- The key 1 is inserted at 0 and, after it has expired, again at 11. The key 2 overwrites the
place of the first insertion, and the key 1 is new again at 13. -/
theorem expired_key_forgotten :
    Clocked [(0, testKey 1), (11, testKey 1), (12, testKey 2), (13, testKey 1)] ∧
    (DedupSet.new 2 10).misses [(0, testKey 1), (11, testKey 1), (12, testKey 2)] =
      [testKey 1] ++ testKey 1 :: [testKey 2] ∧
    (13 : Time) ≤ 11 + 10 ∧ testKey 1 ∉ [testKey 2] ∧ [testKey 2].length < 2 ∧
    (((DedupSet.new 2 10).after
      [(0, testKey 1), (11, testKey 1), (12, testKey 2)]).seenAndAdd 13 (testKey 1)).2 = false := by
  decide

/-- Without an expiry in between, the same calls find the key. -/
theorem remembers_recent_iff_unexpired :
    (DedupSet.new 2 10).misses [(0, testKey 1), (1, testKey 2)] =
      [] ++ testKey 1 :: [testKey 2] ∧
    ((((DedupSet.new 2 10).after [(0, testKey 1), (1, testKey 2)]).seenAndAdd 9
      (testKey 1)).2 = true ↔
        ¬ WriteRing.Overwritten 2
          ((DedupSet.new 2 10).misses [(0, testKey 1), (1, testKey 2)]) (testKey 1)) := by
  have hmisses : (DedupSet.new 2 10).misses [(0, testKey 1), (1, testKey 2)] =
      [] ++ testKey 1 :: [testKey 2] := by decide
  exact ⟨hmisses, remembers_recent_iff 2 10 (by decide) (by decide) _ 9 0 (testKey 1) (by decide)
    (by decide) (by decide) [] [testKey 2] hmisses (by decide) (by decide)⟩

end ShardListener.DedupSet
