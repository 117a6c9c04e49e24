import ShardListener.BoundedQueue
import ShardListener.Window

/-!
# The Duplicate Set as a Bounded Queue

The duplicate set is a ring with a map beside it. Every remembered key stands in a populated
place of the ring, so the map has no more keys than the ring has populated places
(`Populated`). The converse fails: a key that has expired and is inserted again stands in two
places, and overwriting the older one takes it from the map.

Without expiry no key is inserted while the ring has it. Then the map and the ring have the same
keys, and the set answers every call as a queue of the last `capacity` distinct keys does
(`Represents`).

## Main results

* `representation_bounded`: the invariant of the representation, for any `ttl`.
* `Represents.step`: one call on the set and on the queue.
* `exact_fifo_window`: without expiry, the set refines the queue.
-/

namespace ShardListener.DedupSet

variable {C : ℕ} {ttl : Duration} {s : DedupSet} {ins : List DedupKey}

/-! ### The representation -/

/-- The invariant of ring and map. -/
structure Populated (C : ℕ) (s : DedupSet) : Prop where
  head_lt : s.head < C
  count_le : s.count ≤ C
  /-- The ring is filled from its first place on. -/
  filling : s.count < C → s.head = s.count
  /-- Every remembered key stands in a populated place. -/
  slot : ∀ k ∈ s.entries, ∃ i < s.count, s.ring[i]? = some k
  size_le : s.entries.size ≤ s.count
  ring : s.ring.length = C

/-- What has a place each among the first `n` of a list has at most `n` elements. -/
theorem size_le_of_slots {m : AssocMap DedupKey Time} {ring : List DedupKey} {n : ℕ}
    (h : ∀ k ∈ m, ∃ i < n, ring[i]? = some k) : m.size ≤ n := by
  have hsub : m.keys ⊆ ring.take n := by
    intro k hk
    obtain ⟨i, hi, hget⟩ := h k (AList.mem_keys.mp hk)
    refine List.mem_of_getElem? (i := i) ?_
    rw [List.getElem?_take_of_lt hi, hget]
  calc m.size = m.keys.length := AList.size_eq_length_keys m
    _ ≤ (ring.take n).length := (List.subperm_of_subset m.keys_nodup hsub).length_le
    _ ≤ n := List.length_take_le n ring

/-- A set that is described by its insertions. -/
theorem Logged.populated (h : Logged C ttl s ins) (hC : 0 < C) : Populated C s := by
  have hslot : ∀ k ∈ s.entries, ∃ i < s.count, s.ring[i]? = some k := by
    intro k hk
    rw [h.count]
    exact h.ring.slot_of_kept hC ((h.entries k).mp hk)
  refine ⟨?_, ?_, ?_, hslot, size_le_of_slots hslot, h.ring.length⟩
  · rw [h.head]
    exact Nat.mod_lt _ hC
  · rw [h.count]
    exact Nat.min_le_right _ _
  · rw [h.count, h.head]
    intro hlt
    have hshort : ins.length < C := by omega
    rw [Nat.mod_eq_of_lt hshort, Nat.min_eq_left hshort.le]

/-- **The representation invariant.** After any calls, whatever the clock readings and `ttl`,
the remembered keys stand in the populated places of a ring of `C` places. -/
theorem representation_bounded (C : ℕ) (hC : 1 ≤ C) (ttl : Duration) (qs : List Query) :
    Populated C ((DedupSet.new C ttl).after qs) :=
  (logged_after hC ttl qs).populated hC

/-- A set of two places at work: the key that expired and came back stands in both. -/
theorem representation_bounded_stale :
    ((DedupSet.new 2 10).after [(0, testKey 1), (20, testKey 1)]).ring = [testKey 1, testKey 1] ∧
      Populated 2 ((DedupSet.new 2 10).after [(0, testKey 1), (20, testKey 1)]) :=
  ⟨by decide, representation_bounded 2 (by decide) 10 [(0, testKey 1), (20, testKey 1)]⟩

/-! ### Without expiry -/

/-- After the insertions `ins` the set has the keys of the queue `q`: no key was inserted while
the ring had it. -/
structure Represents (C : ℕ) (ttl : Duration) (s : DedupSet) (ins : List DedupKey)
    (q : BoundedQueue DedupKey C) : Prop where
  logged : Logged C ttl s ins
  distinct : WriteRing.Distinct C ins
  items : q.items = ins.rtake C

section Represents

variable {q : BoundedQueue DedupKey C} {now : Time} {k : DedupKey}

/-- A new set is the empty queue. -/
theorem Represents.new (hC : 1 ≤ C) (ttl : Duration) :
    Represents C ttl (DedupSet.new C ttl) [] .empty :=
  ⟨.new hC ttl, .nil C, (List.rtake_nil C).symm⟩

/-- The remembered keys are those in the queue. -/
theorem Represents.mem_entries (h : Represents C ttl s ins q) : k ∈ s.entries ↔ k ∈ q.items := by
  rw [h.logged.entries k, h.distinct.kept k, h.items]

/-- A call returns true exactly for the keys in the queue. -/
theorem Represents.seen_iff (h : Represents C ttl s ins q) (hC : 0 < C) (httl : ttl ≤ 0) :
    (s.seenAndAdd now k).2 = true ↔ k ∈ q.items := by
  have hcap : s.capacity ≠ 0 := by
    rw [h.logged.capacity]
    omega
  have hnever : s.ttl ≤ 0 := by rwa [h.logged.ttl]
  rw [DedupSet.seen_iff hcap, ← h.mem_entries, AList.mem_iff_lookup]
  exact exists_congr fun exp => and_iff_left (Or.inl hnever)

/-- The set and the queue give the same answer. -/
theorem Represents.answer (h : Represents C ttl s ins q) (hC : 0 < C) (httl : ttl ≤ 0) :
    (s.seenAndAdd now k).2 = (q.offer k).2 := by
  rw [Bool.eq_iff_iff, h.seen_iff hC httl]
  by_cases hk : k ∈ q.items
  · rw [BoundedQueue.offer_of_mem hk]
    exact iff_of_true hk rfl
  · rw [BoundedQueue.offer_of_notMem hk]
    exact iff_of_false hk Bool.false_ne_true

/-- **The step lemma**: one call on the set and on the queue. -/
theorem Represents.step (h : Represents C ttl s ins q) (hC : 0 < C) (httl : ttl ≤ 0)
    (c : Query) :
    Represents C ttl (s.step c).1 (ins ++ (s.step c).2) (q.offer c.2).1 := by
  have hlogged := h.logged.step hC c
  have hanswer : (s.seenAndAdd c.1 c.2).2 = (q.offer c.2).2 := h.answer hC httl
  have hout : (s.step c).2 = if (q.offer c.2).2 then [] else [c.2] := by
    rw [DedupSet.step, hanswer]
  rw [hout] at hlogged ⊢
  by_cases hk : c.2 ∈ q.items
  · rw [BoundedQueue.offer_of_mem hk, if_pos rfl, List.append_nil] at hlogged ⊢
    exact ⟨hlogged, h.distinct, h.items⟩
  · rw [BoundedQueue.offer_of_notMem hk, if_neg Bool.false_ne_true] at hlogged ⊢
    refine ⟨hlogged, h.distinct.write hC (h.items ▸ hk), ?_⟩
    show (q.items ++ [c.2]).rtake C = _
    rw [h.items, WriteRing.rtake_rtake_append]

/-- The run lemma. -/
theorem represents_after (hC : 1 ≤ C) (httl : ttl ≤ 0) (qs : List Query) :
    Represents C ttl ((DedupSet.new C ttl).after qs) ((DedupSet.new C ttl).misses qs)
      (.after C (qs.map Prod.snd)) := by
  refine @Machine.run_history _ _ (Machine.next DedupSet.step) _
    (fun qs s => Represents C ttl s ((DedupSet.new C ttl).misses qs) (.after C (qs.map Prod.snd)))
    (.new hC ttl) ?_ qs
  intro qs c h
  have hmisses : (DedupSet.new C ttl).misses (qs ++ [c]) =
      (DedupSet.new C ttl).misses qs ++ (((DedupSet.new C ttl).after qs).step c).2 :=
    Machine.outputs_snoc qs c
  rw [hmisses, List.map_append, List.map_singleton, BoundedQueue.after_snoc]
  exact h.step hC httl c

end Represents

/-- **Without expiry the set is an exact window.** After any calls, the next one returns true
exactly for the keys of the last `C` calls that returned false; these are the keys of a bounded
queue that has been offered the same keys, which gives the same answer, and whose length is
`Len`. -/
theorem exact_fifo_window (C : ℕ) (hC : 1 ≤ C) (ttl : Duration) (httl : ttl ≤ 0)
    (qs : List Query) :
    let s := (DedupSet.new C ttl).after qs
    let q : BoundedQueue DedupKey C := .after C (qs.map Prod.snd)
    (∀ now k, (s.seenAndAdd now k).2 = true ↔ k ∈ ((DedupSet.new C ttl).misses qs).rtake C) ∧
    (∀ now k, (s.seenAndAdd now k).2 = (q.offer k).2) ∧
    q.items = ((DedupSet.new C ttl).misses qs).rtake C ∧ s.len = q.items.length := by
  have h := represents_after hC httl qs
  refine ⟨?_, ?_, h.items, ?_⟩
  · intro now k
    rw [← h.items]
    exact h.seen_iff hC httl
  · intro now k
    exact h.answer hC httl
  · rw [len, h.logged.count, h.items, List.rtake, List.length_drop]
    omega

/-- A set of one place: the second key drives the first one out. -/
theorem exact_fifo_window_single :
    (((DedupSet.new 1 0).after [(0, testKey 1), (1, testKey 2)]).seenAndAdd 2 (testKey 1)).2 =
        false ∧
      (((DedupSet.new 1 0).after [(0, testKey 1), (1, testKey 2)]).seenAndAdd 2 (testKey 2)).2 =
        true := by
  have h := exact_fifo_window 1 (by decide) 0 (by decide)
    [(0, testKey 1), (1, testKey 2)]
  refine ⟨Bool.eq_false_of_not_eq_true ?_, (h.1 2 (testKey 2)).mpr (by decide)⟩
  intro hseen
  exact absurd ((h.1 2 (testKey 1)).mp hseen) (by decide)

end ShardListener.DedupSet
