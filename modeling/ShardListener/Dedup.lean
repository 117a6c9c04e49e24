import ShardListener.AssocMap
import ShardListener.Frame

/-!
# The Duplicate Detector

The fixed-capacity duplicate set of `dedup/dedup.go`: a map from keys to expiry times and a
ring of the keys in the order of insertion. `seenAndAdd` is its only operation. The clock
reading is an argument; it is taken before the lock, so the readings of successive calls
need not be ordered. Expiry times are integers: `now + ttl` is assumed not to overflow.

## Main results

* `DedupSet.seen_mem`, `DedupSet.mem_seenAndAdd`: a key is reported only if it is remembered,
  and only the keys of calls are remembered.
* `DedupSet.seenAndAdd_ne`: a call that reports a new key always changes the set.
-/

namespace ShardListener

/-- What identifies a frame for the purposes of deduplication. -/
structure DedupKey where
  groupIdx : UInt32
  subtreeID : Bytes32
  seqNum : UInt64
  deriving DecidableEq

/-- The zero value of a key. -/
def DedupKey.zero : DedupKey := ⟨0, Bytes32.ofByte 0, 0⟩

/-- The duplicate set. `head` is the next insert position of `ring` and `count` the number of
populated positions. -/
structure DedupSet where
  capacity : ℕ
  ttl : Duration
  entries : AssocMap DedupKey Time
  ring : List DedupKey
  head : ℕ
  count : ℕ

namespace DedupSet

/-- `New`: a capacity that is not positive disables the set. -/
def new (capacity : ℤ) (ttl : Duration) : DedupSet :=
  if capacity ≤ 0 then ⟨0, 0, ∅, [], 0, 0⟩
  else ⟨capacity.toNat, ttl, ∅, List.replicate capacity.toNat .zero, 0, 0⟩

/-- Insert a key, in place of the oldest one when the ring is full. -/
def insert (s : DedupSet) (key : DedupKey) (expiry : Time) : DedupSet :=
  let evicted :=
    if s.count = s.capacity then
      match s.ring[s.head]? with
      | some old => s.entries.erase old
      | none => s.entries
    else s.entries
  { s with
    entries := evicted.insert key expiry
    ring := s.ring.set s.head key
    head := (s.head + 1) % s.capacity
    count := if s.count = s.capacity then s.count else s.count + 1 }

/-- `SeenAndAdd`: whether the key is remembered and has not expired; a remembered key is
refreshed, any other one is inserted. -/
def seenAndAdd (s : DedupSet) (now : Time) (key : DedupKey) : DedupSet × Bool :=
  if s.capacity = 0 then (s, false)
  else
    let expiry := if 0 < s.ttl then now + s.ttl else now
    match s.entries.lookup key with
    | some exp =>
        if s.ttl ≤ 0 ∨ now ≤ exp then
          ({ s with entries := s.entries.insert key expiry }, true)
        else (s.insert key expiry, false)
    | none => (s.insert key expiry, false)

/-- The number of populated positions. -/
def len (s : DedupSet) : ℕ := s.count

variable {s : DedupSet} {now : Time} {key k : DedupKey}

/-- **What one call does**: nothing when the set is disabled; refresh a remembered key; or
insert the key. -/
theorem seenAndAdd_cases (s : DedupSet) (now : Time) (key : DedupKey) :
    (s.capacity = 0 ∧ s.seenAndAdd now key = (s, false)) ∨
    (s.capacity ≠ 0 ∧ (∃ exp, s.entries.lookup key = some exp ∧ (s.ttl ≤ 0 ∨ now ≤ exp)) ∧
      ∃ expiry, s.seenAndAdd now key =
        ({ s with entries := s.entries.insert key expiry }, true)) ∨
    (s.capacity ≠ 0 ∧ (∀ exp, s.entries.lookup key = some exp → 0 < s.ttl ∧ exp < now) ∧
      ∃ expiry, (0 < s.ttl → now < expiry) ∧
        s.seenAndAdd now key = (s.insert key expiry, false)) := by
  by_cases hcap : s.capacity = 0
  · exact Or.inl ⟨hcap, by rw [seenAndAdd, if_pos hcap]⟩
  right
  have hexpiry : 0 < s.ttl → now < if 0 < s.ttl then now + s.ttl else now := by
    intro httl
    rw [if_pos httl]
    exact Int.lt_add_of_pos_right now httl
  rw [seenAndAdd, if_neg hcap]
  cases hlook : s.entries.lookup key with
  | none => exact Or.inr ⟨hcap, fun _ h => (nomatch h), _, hexpiry, rfl⟩
  | some exp =>
      by_cases hlive : s.ttl ≤ 0 ∨ now ≤ exp
      · exact Or.inl ⟨hcap, ⟨exp, rfl, hlive⟩, _, if_pos hlive⟩
      · refine Or.inr ⟨hcap, ?_, _, hexpiry, if_neg hlive⟩
        intro exp' hexp'
        obtain rfl := Option.some.inj hexp'
        rw [not_or, not_le, not_le] at hlive
        exact hlive

/-- An insertion remembers the key, and may forget others. -/
theorem mem_insert {expiry : Time} (h : k ∈ (s.insert key expiry).entries) :
    k = key ∨ k ∈ s.entries := by
  rw [insert] at h
  rcases (AList.mem_insert _).mp h with rfl | h
  · exact Or.inl rfl
  · right
    split at h
    · split at h
      · exact (AList.mem_erase.mp h).2
      · exact h
    · exact h

/-- A key that is reported as seen is remembered. -/
theorem seen_mem (h : (s.seenAndAdd now key).2 = true) : key ∈ s.entries := by
  rcases seenAndAdd_cases s now key with ⟨-, heq⟩ | ⟨-, ⟨exp, hexp, -⟩, -⟩ | ⟨-, -, expiry, -, heq⟩
  · rw [heq] at h
    cases h
  · exact AList.mem_iff_lookup.mpr ⟨exp, hexp⟩
  · rw [heq] at h
    cases h

/-- Only the keys of calls are remembered. -/
theorem mem_seenAndAdd (h : k ∈ (s.seenAndAdd now key).1.entries) : k = key ∨ k ∈ s.entries := by
  rcases seenAndAdd_cases s now key with ⟨-, heq⟩ | ⟨-, -, expiry, heq⟩ | ⟨-, -, expiry, -, heq⟩
  · rw [heq] at h
    exact Or.inr h
  · rw [heq] at h
    exact (AList.mem_insert _).mp h
  · rw [heq] at h
    exact mem_insert h

/-- **A call that reports a new key changes the set.** -/
theorem seenAndAdd_ne (hcap : s.capacity ≠ 0) (h : (s.seenAndAdd now key).2 = false) :
    (s.seenAndAdd now key).1 ≠ s := by
  rcases seenAndAdd_cases s now key with
    ⟨hzero, -⟩ | ⟨-, -, expiry, heq⟩ | ⟨-, hstale, expiry, hexpiry, heq⟩
  · exact absurd hzero hcap
  · rw [heq] at h
    cases h
  · intro hsame
    rw [heq] at hsame
    -- the entry written is new, or later than the stale one
    have hwritten : (s.insert key expiry).entries.lookup key = some expiry := by
      rw [insert, AList.lookup_insert]
    dsimp only at hsame
    rw [hsame] at hwritten
    obtain ⟨httl, hlt⟩ := hstale expiry hwritten
    exact absurd (hexpiry httl) (not_lt.mpr hlt.le)

end DedupSet

end ShardListener
