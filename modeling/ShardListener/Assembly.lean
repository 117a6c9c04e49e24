import Mathlib.Data.List.Lemmas
import ShardListener.Reassembly

/-!
# What a Delivered Payload is Made of

A run of the reassembly buffer is a list of `Observation`s, fragments with the clock reading
they arrive at. Beside it we carry, for one id, the observations since its slot was opened
(`follow`). A slot is determined by that history: each place holds the data of the first
copy of its fragment (`Slot.Holds`), and the history starts `ttl` before the deadline
(`Slot.Dated`). A completed slot therefore delivers the concatenation of the first copies.

Nothing compares the metadata of two fragments beyond `FragTotal`. The second half isolates
what the buffer relies on (`Consistent`), and proves that under it a payload is made of
fragments of one message.

## Main results

* `assembled_of_delivery`: what a delivered payload is, in any run.
* `payload_from_one_message`: in a run that stores consistent fragments only, the fragments of
  a delivered payload agree on their metadata.
* `messages_mixed`: without that they need not.
* `delivered_length_of_oneSplit`: if the arrivals of a message are those of one split, its
  payload has the announced length.
* `delivered_too_long`: without that it need not.
-/

namespace ShardListener.Reassembly

/-- A fragment and the time it arrives at. -/
abbrev Observation := Time × FragFrame

/-- One `Observe` call. -/
def step (cfg : Config) (sha256 : Bytes → Bytes32) (b : Buffer) (o : Observation) :
    Buffer × List Event := b.observe cfg sha256 o.1 o.2

/-- The buffer after some calls. -/
def after (cfg : Config) (sha256 : Bytes → Bytes32) (os : List Observation) : Buffer :=
  Machine.run (Machine.next (step cfg sha256)) Buffer.new os

/-- A call keeps the buffer sound. -/
theorem sound_step {cfg : Config} {sha256 : Bytes → Bytes32} {b : Buffer} (h : b.Sound)
    (o : Observation) : (step cfg sha256 b o).1.Sound := h.observe

/-- The buffer is sound after any calls. -/
theorem sound_after (cfg : Config) (sha256 : Bytes → Bytes32) (os : List Observation) :
    (after cfg sha256 os).Sound :=
  Machine.run_invariant Buffer.Sound.new (fun _ o h => sound_step h o) os

/-! ### First copies -/

/-- The first copy of fragment `i` out of `K` of the message `id`. -/
def firstCopy (id : Bytes32) (K : UInt16) (hist : List Observation) (i : ℕ) :
    Option Observation :=
  hist.find? fun o => o.2.txID = id ∧ o.2.fragTotal = K ∧ o.2.fragIndex.toNat = i

/-- The copies of fragments of one message, with the place each belongs to. -/
def writes (id : Bytes32) (K : UInt16) (hist : List Observation) : List (ℕ × Observation) :=
  hist.filterMap fun o =>
    if o.2.txID = id ∧ o.2.fragTotal = K then some (o.2.fragIndex.toNat, o) else none

/-- The first write to a place is the first copy of its fragment. -/
theorem lookup_writes (id : Bytes32) (K : UInt16) (hist : List Observation) (i : ℕ) :
    (writes id K hist).lookup i = firstCopy id K hist i := by
  induction hist with
  | nil => rfl
  | cons o hist ih =>
      rw [writes, firstCopy] at *
      by_cases hset : o.2.txID = id ∧ o.2.fragTotal = K
      · rw [List.filterMap_cons, if_pos hset, List.find?_cons]
        by_cases hi : o.2.fragIndex.toNat = i
        · simp [hset, hi]
        · have hbeq : (i == o.2.fragIndex.toNat) = false := beq_false_of_ne (Ne.symm hi)
          simp only [List.lookup_cons, hbeq, ih, hset, hi, and_false, decide_false]
      · have hcopy : ¬ (o.2.txID = id ∧ o.2.fragTotal = K ∧ o.2.fragIndex.toNat = i) :=
          fun hc => hset ⟨hc.1, hc.2.1⟩
        rw [List.filterMap_cons, if_neg hset, List.find?_cons, decide_eq_false hcopy]
        exact ih

/-- The places of a message and the first copies that fill them. -/
theorem array_writes (id : Bytes32) (K : UInt16) (hist : List Observation) :
    FirstWrite.array K.toNat (writes id K hist) =
      (List.range K.toNat).map (firstCopy id K hist) :=
  List.map_congr_left fun i _ => lookup_writes id K hist i

/-- Another observation is a write if it is a fragment of the message. -/
theorem writes_append (id : Bytes32) (K : UInt16) (hist : List Observation) (o : Observation) :
    writes id K (hist ++ [o]) =
      if o.2.txID = id ∧ o.2.fragTotal = K then
        writes id K hist ++ [(o.2.fragIndex.toNat, o)]
      else writes id K hist := by
  rw [writes, writes, List.filterMap_append]
  split
  · rename_i h
    simp [h]
  · rename_i h
    simp [h]

/-! ### Slots and their history -/

namespace Slot

/-- The places of the slot and the first copies that fill them. -/
def copies (s : Slot) (hist : List Observation) : List (Option Observation) :=
  FirstWrite.array s.fragTotal.toNat (writes s.txID s.fragTotal hist)

/-- Each place holds the data of the first copy of its fragment. -/
def Holds (s : Slot) (hist : List Observation) : Prop :=
  s.frags = (s.copies hist).map (Option.map fun o => o.2.fragData)

/-- Before the first observation all places are empty. -/
theorem copies_nil (s : Slot) : s.copies [] = List.replicate s.fragTotal.toNat none :=
  FirstWrite.array_nil

/-- The places of a new slot are empty. -/
theorem Holds.new (ttl : Duration) (now : Time) (ff : FragFrame) : (new ttl now ff).Holds [] := by
  rw [Holds, copies_nil, List.map_replicate]
  rfl

/-- An empty place of the slot is an empty place of the history. -/
theorem Holds.free_iff {s : Slot} {hist : List Observation} (h : s.Holds hist) (i : ℕ) :
    s.frags[i]? = some none ↔ (s.copies hist)[i]? = some none := by
  rw [h, List.getElem?_map]
  cases hget : (s.copies hist)[i]? with
  | none => simp
  | some o => cases o <;> simp

/-- A fragment of another message is not a copy for this one. -/
theorem copies_skip {s : Slot} {hist : List Observation} {o : Observation}
    (hne : o.2.txID ≠ s.txID) : s.copies (hist ++ [o]) = s.copies hist := by
  rw [copies, writes_append, if_neg (fun hc => hne hc.1)]
  rfl

/-- An ignored fragment is not a first copy. -/
theorem Holds.copies_ignore {s : Slot} {hist : List Observation} (h : s.Holds hist)
    {o : Observation} (hstore : s.store o.2 = none) :
    s.copies (hist ++ [o]) = s.copies hist := by
  rw [copies, writes_append]
  split
  · rename_i hset
    have htaken := store_eq_none hstore hset.2
    exact FirstWrite.array_append_taken (mt (h.free_iff _).mpr htaken) o
  · rfl

/-- A stored fragment is the first copy for its place. -/
theorem Holds.copies_store {s s' : Slot} {hist : List Observation} (h : s.Holds hist)
    {o : Observation} (hid : o.2.txID = s.txID) (hstore : s.store o.2 = some s') :
    s'.copies (hist ++ [o]) = (s.copies hist).set o.2.fragIndex.toNat (some o) := by
  obtain ⟨htotal, -, hfree, _, _, rfl⟩ := store_eq_some hstore
  rw [copies, writes_append, if_pos ⟨hid, htotal⟩]
  exact FirstWrite.array_append_free ((h.free_iff _).mp hfree) o

/-- A fragment of another message changes no place. -/
theorem Holds.skip {s : Slot} {hist : List Observation} (h : s.Holds hist) {o : Observation}
    (hne : o.2.txID ≠ s.txID) : s.Holds (hist ++ [o]) := by
  rw [Holds, copies_skip hne]
  exact h

/-- A fragment that is not stored changes no place. -/
theorem Holds.ignore {s : Slot} {hist : List Observation} (h : s.Holds hist) {o : Observation}
    (hstore : s.store o.2 = none) : s.Holds (hist ++ [o]) := by
  rw [Holds, h.copies_ignore hstore]
  exact h

/-- A fragment that is stored fills its place. -/
theorem Holds.store {s s' : Slot} {hist : List Observation} (h : s.Holds hist)
    {o : Observation} (hid : o.2.txID = s.txID) (hstore : s.store o.2 = some s') :
    s'.Holds (hist ++ [o]) := by
  rw [Holds, h.copies_store hid hstore, List.map_set]
  obtain ⟨-, -, -, _, _, rfl⟩ := store_eq_some hstore
  exact congrArg (fun frags => frags.set o.2.fragIndex.toNat (some o.2.fragData)) h

/-- **A full slot** holds the first copies of all its fragments, and its payload is their
concatenation. -/
theorem Holds.full {s : Slot} {hist : List Observation} (h : s.Holds hist)
    (hfull : ¬ s.received < s.fragTotal) :
    ∃ copies : List Observation,
      (List.range s.fragTotal.toNat).map (firstCopy s.txID s.fragTotal hist) =
        copies.map some ∧
      s.payload = (copies.map fun o => o.2.fragData).flatten := by
  have hcount : s.frags.countP Option.isSome = s.frags.length := by
    have hle : s.fragTotal.toNat ≤ s.received.toNat := UInt16.not_lt.mp hfull
    rw [s.received_eq, ← s.frags_length] at hle
    exact le_antisymm List.countP_le_length hle
  rw [List.countP_eq_length, h, copies, array_writes] at hcount
  rw [payload, h, copies, array_writes]
  have hall : ∀ x ∈ (List.range s.fragTotal.toNat).map (firstCopy s.txID s.fragTotal hist),
      x.isSome := by
    intro x hx
    have := hcount _ (List.mem_map_of_mem hx)
    rwa [Option.isSome_map] at this
  obtain ⟨copies, hcopies⟩ := FirstWrite.exists_map_some hall
  refine ⟨copies, hcopies, ?_⟩
  rw [hcopies]
  simp [Function.comp_def]

/-- What a slot keeps from the fragment that opened it. -/
structure OpenedBy (ttl : Duration) (s : Slot) (o : Observation) : Prop where
  txID : s.txID = o.2.txID
  subtreeID : s.subtreeID = o.2.subtreeID
  hashKey : s.hashKey = o.2.hashKey
  seqNum : s.seqNum = o.2.seqNum
  origPayloadLen : s.origPayloadLen = o.2.origPayloadLen
  fragTotal : s.fragTotal = o.2.fragTotal
  origFrameVer : s.origFrameVer = o.2.origFrameVer
  msgType : s.msgType = o.2.msgType
  deadline : s.deadline = o.1 + ttl
  inRange : o.2.fragIndex < s.fragTotal

/-- The history starts with the fragment that opened the slot, `ttl` before its deadline, and
ends before the deadline. -/
structure Dated (ttl : Duration) (s : Slot) (hist : List Observation) : Prop where
  opened : ∃ o ∈ hist.head?, s.OpenedBy ttl o
  timely : ∀ o ∈ hist, o.1 ≤ s.deadline

/-- A new slot is dated by the fragment that opens it. -/
theorem Dated.new {ttl : Duration} (httl : 0 < ttl) {o : Observation}
    (hok : ¬ Buffer.Rejected o.2) : Dated ttl (new ttl o.1 o.2) [o] where
  opened := by
    obtain ⟨⟨-, hindex⟩, -⟩ := not_or.mp hok |>.imp not_or.mp id
    exact ⟨o, rfl, rfl, rfl, rfl, rfl, rfl, rfl, rfl, rfl, rfl, UInt16.not_le.mp hindex⟩
  timely := by
    intro o' ho'
    obtain rfl := List.mem_singleton.mp ho'
    exact Int.le_add_of_nonneg_right (Int.le_of_lt httl)

/-- An observation before the deadline may follow. -/
theorem Dated.append {ttl : Duration} {s : Slot} {hist : List Observation}
    (h : Dated ttl s hist) {o : Observation} (ho : o.1 ≤ s.deadline) :
    Dated ttl s (hist ++ [o]) where
  opened := by
    obtain ⟨o', ho', hdead⟩ := h.opened
    exact ⟨o', List.mem_head?_append_of_mem_head? ho', hdead⟩
  timely := by
    intro o' ho'
    rcases List.mem_append.mp ho' with hold | hnew
    · exact h.timely o' hold
    · obtain rfl := List.mem_singleton.mp hnew
      exact ho

/-- Storing a fragment does not change the deadline. -/
theorem Dated.store {ttl : Duration} {s s' : Slot} {hist : List Observation}
    (h : Dated ttl s hist) {ff : FragFrame} (hstore : s.store ff = some s') :
    Dated ttl s' hist := by
  obtain ⟨-, -, -, _, _, rfl⟩ := store_eq_some hstore
  obtain ⟨o, ho, hopen⟩ := h.opened
  exact ⟨⟨o, ho, { hopen with }⟩, h.timely⟩

end Slot

/-- The observations since the slot of `id` was opened. An observation joins the history of
the slot that is still open when it arrives, or starts a new one. -/
def follow (id : Bytes32) (b : Buffer) (o : Observation) (hist : List Observation) :
    List Observation :=
  (if ((b.evictExpired o.1).1.slots.lookup id).isSome then hist else []) ++ [o]

/-- The buffer after some calls, with the history of the slot of `id`. -/
def historyAfter (cfg : Config) (sha256 : Bytes → Bytes32) (id : Bytes32)
    (os : List Observation) : Buffer × List Observation :=
  Machine.run (Machine.withGhost (Machine.next (step cfg sha256)) (follow id)) (.new, []) os

/-- The observations since the slot of `id` was opened, up to the last one. -/
def sinceOpened (cfg : Config) (sha256 : Bytes → Bytes32) (id : Bytes32)
    (os : List Observation) : List Observation := (historyAfter cfg sha256 id os).2

/-- The last observation is added, or starts the history anew. -/
theorem sinceOpened_snoc (cfg : Config) (sha256 : Bytes → Bytes32) (id : Bytes32)
    (os : List Observation) (o : Observation) :
    sinceOpened cfg sha256 id (os ++ [o]) =
      follow id (historyAfter cfg sha256 id os).1 o (sinceOpened cfg sha256 id os) := by
  rw [sinceOpened, historyAfter, Machine.run_snoc]
  rfl

/-- The slot of `id` is what its history makes it. -/
structure Traced (cfg : Config) (id : Bytes32) (p : Buffer × List Observation) : Prop where
  sound : p.1.Sound
  holds : ∀ s, p.1.slots.lookup id = some s → s.Holds p.2
  dated : ∀ s, p.1.slots.lookup id = some s → s.Dated cfg.ttl p.2

section Traced

variable {cfg : Config} {sha256 : Bytes → Bytes32} {id : Bytes32} {o : Observation}
  {p : Buffer × List Observation} {s : Slot}

/-- No slot is open in a new buffer. -/
theorem Traced.new (cfg : Config) (id : Bytes32) : Traced cfg id (.new, []) :=
  ⟨.new, fun _ h => (nomatch h), fun _ h => (nomatch h)⟩

/-- The slot an observation of `id` meets, and the history it extends. -/
theorem Traced.met (h : Traced cfg id p) (hid : o.2.txID = id)
    (hfor : p.1.slotFor cfg o.1 o.2 = some s) :
    ∃ hist, follow id p.1 o p.2 = hist ++ [o] ∧ s.txID = id ∧ s.Holds hist ∧
      s.Dated cfg.ttl (hist ++ [o]) := by
  subst hid
  rcases Buffer.slotFor_cases hfor with hopen | ⟨hnone, hok, rfl⟩
  · have hold := Buffer.lookup_of_lookup_evictExpired hopen
    refine ⟨p.2, ?_, h.sound.keyed _ _ hold, h.holds s hold, ?_⟩
    · simp [follow, hopen]
    · exact (h.dated s hold).append (h.sound.le_deadline hopen)
  · refine ⟨[], ?_, rfl, Slot.Holds.new _ _ _, Slot.Dated.new cfg.ttl_pos hok⟩
    simp [follow, hnone]

/-- **The step lemma**: a call keeps the slot of `id` in step with its history. -/
theorem Traced.step (h : Traced cfg id p) :
    Traced cfg id (Machine.withGhost (Machine.next (step cfg sha256)) (follow id) p o) := by
  have hslot : ∀ s, (p.1.observe cfg sha256 o.1 o.2).1.slots.lookup id = some s →
      s.Holds (follow id p.1 o p.2) ∧ s.Dated cfg.ttl (follow id p.1 o p.2) := by
    intro s hs
    rcases Buffer.lookup_observe_cases h.sound hs with ⟨hne, hopen⟩ | ⟨hid, s₀, hfor, hnext⟩
    · have hold := Buffer.lookup_of_lookup_evictExpired hopen
      have hkey : s.txID = id := h.sound.keyed _ _ hold
      rw [follow, if_pos (Option.isSome_iff_exists.mpr ⟨s, hopen⟩)]
      refine ⟨(h.holds s hold).skip (by rwa [hkey]), ?_⟩
      exact (h.dated s hold).append (h.sound.le_deadline hopen)
    · obtain ⟨hist, hfollow, hkey, hholds, hdated⟩ := h.met hid hfor
      rw [hfollow]
      rcases Slot.next_eq_some hnext with ⟨hignored, rfl⟩ | ⟨hstore, -⟩
      · exact ⟨hholds.ignore hignored, hdated⟩
      · exact ⟨hholds.store (hid.trans hkey.symm) hstore, hdated.store hstore⟩
  exact ⟨h.sound.observe, fun s hs => (hslot s hs).1, fun s hs => (hslot s hs).2⟩

/-- The history is carried along and changes nothing. -/
theorem historyAfter_fst (cfg : Config) (sha256 : Bytes → Bytes32) (id : Bytes32)
    (os : List Observation) : (historyAfter cfg sha256 id os).1 = after cfg sha256 os :=
  Machine.run_withGhost _ _ _

/-- **The run lemma.** -/
theorem traced_after (cfg : Config) (sha256 : Bytes → Bytes32) (id : Bytes32)
    (os : List Observation) : Traced cfg id (historyAfter cfg sha256 id os) :=
  Machine.run_invariant (.new cfg id) (fun _ _ h => h.step) os

/-- The history is the end of the run. -/
theorem sinceOpened_suffix (cfg : Config) (sha256 : Bytes → Bytes32) (id : Bytes32)
    (os : List Observation) : sinceOpened cfg sha256 id os <:+ os := by
  refine Machine.run_history
    (R := fun os (p : Buffer × List Observation) => p.2 <:+ os) (List.suffix_refl _) ?_ os
  intro os o h
  rw [Machine.withGhost, follow]
  dsimp only
  split
  · obtain ⟨before, hbefore⟩ := h
    exact ⟨before, by rw [← List.append_assoc, hbefore]⟩
  · exact List.suffix_append _ _

/-- The event of a completed slot carries its id and payload; a transaction is verified. -/
theorem Slot.complete_delivery {s : Slot} {e : Event} {payload : Bytes}
    (he : e ∈ s.complete cfg sha256) (hd : e.delivery = some (id, payload)) :
    id = s.txID ∧ payload = s.payload ∧
      ∀ f, e = .complete f → cfg.verifyHash = true → sha256d sha256 payload = id := by
  rw [Slot.complete] at he
  split at he
  · split at he
    · obtain rfl := List.mem_singleton.mp he
      cases hd
      exact ⟨rfl, rfl, fun _ hf => nomatch hf⟩
    · cases he
  · split at he
    · split at he
      · obtain rfl := List.mem_singleton.mp he
        cases hd
        exact ⟨rfl, rfl, fun _ hf => nomatch hf⟩
      · cases he
    · split at he
      · obtain rfl := List.mem_singleton.mp he
        cases hd
      · rename_i hverified
        split at he
        · obtain rfl := List.mem_singleton.mp he
          cases hd
          exact ⟨rfl, rfl, fun _ _ hv => not_not.mp fun hne => hverified ⟨hv, hne⟩⟩
        · cases he

/-- A fragment delivers a message of its own id only. -/
theorem delivery_id {b : Buffer} (h : b.Sound) {e : Event} {payload : Bytes}
    (he : e ∈ (step cfg sha256 b o).2) (hd : e.delivery = some (id, payload)) :
    o.2.txID = id := by
  obtain ⟨s, s', hfor, hfilled, hcomplete⟩ := Buffer.mem_complete_of_delivery h he hd
  rw [(Slot.complete_delivery hcomplete hd).1, Slot.store_txID (Slot.filled_eq_some hfilled).1]
  rcases Buffer.slotFor_cases hfor with hopen | ⟨-, -, rfl⟩
  · exact (h.keyed _ _ (Buffer.lookup_of_lookup_evictExpired hopen)).symm
  · rfl

/-- **What a delivery is**: the observation fills the slot it meets, which holds the history
up to this observation. -/
theorem Traced.filled_of_delivery (h : Traced cfg id p) {e : Event} {payload : Bytes}
    (he : e ∈ (Reassembly.step cfg sha256 p.1 o).2) (hd : e.delivery = some (id, payload)) :
    ∃ s s' hist, o.2.txID = id ∧ p.1.slotFor cfg o.1 o.2 = some s ∧ s.store o.2 = some s' ∧
      ¬ s'.received < s'.fragTotal ∧ follow id p.1 o p.2 = hist ++ [o] ∧ s.Holds hist ∧
      s'.txID = id ∧ s'.payload = payload ∧ s'.Holds (hist ++ [o]) ∧
      s'.Dated cfg.ttl (hist ++ [o]) ∧
      ∀ f, e = .complete f → cfg.verifyHash = true → sha256d sha256 payload = id := by
  obtain ⟨s, s', hfor, hfilled, hcomplete⟩ := Buffer.mem_complete_of_delivery h.sound he hd
  obtain ⟨hstore, hfull⟩ := Slot.filled_eq_some hfilled
  obtain ⟨hid', hpayload, hhash⟩ := Slot.complete_delivery hcomplete hd
  have hid : o.2.txID = id := delivery_id h.sound he hd
  obtain ⟨hist, hfollow, hkey, hholds, hdated⟩ := h.met hid hfor
  exact ⟨s, s', hist, hid, hfor, hstore, hfull, hfollow, hholds, hid'.symm, hpayload.symm,
    hholds.store (hid.trans hkey.symm) hstore, hdated.store hstore, hhash⟩

end Traced

/-! ### Delivered payloads -/

/-- The payload is the concatenation, in index order, of the first copies in `hist` of the
`K` fragments of `id`. The first observation of `hist` is one of them, and none of the others
is more than `ttl` later. -/
def Assembled (ttl : Duration) (id : Bytes32) (hist : List Observation) (payload : Bytes) :
    Prop :=
  ∃ (K : UInt16) (copies : List Observation) (first : Observation),
    (List.range K.toNat).map (firstCopy id K hist) = copies.map some ∧
    payload = (copies.map fun o => o.2.fragData).flatten ∧
    first ∈ hist.head? ∧ first ∈ copies ∧
    ∀ o ∈ copies, first.1 ≤ o.1 ∧ o.1 ≤ first.1 + ttl

/-- A first copy is an observation. -/
theorem mem_of_firstCopies {id : Bytes32} {K : UInt16} {hist copies : List Observation}
    (h : (List.range K.toNat).map (firstCopy id K hist) = copies.map some) {o : Observation}
    (ho : o ∈ copies) : o ∈ hist := by
  have hsome : some o ∈ (List.range K.toNat).map (firstCopy id K hist) := by
    rw [h]
    exact List.mem_map_of_mem ho
  obtain ⟨i, -, hi⟩ := List.mem_map.mp hsome
  exact List.mem_of_find?_eq_some hi

/-- The observation that opened the slot is a first copy. -/
theorem mem_firstCopies_of_head {id : Bytes32} {K : UInt16} {hist copies : List Observation}
    (h : (List.range K.toNat).map (firstCopy id K hist) = copies.map some) {o : Observation}
    (ho : o ∈ hist.head?) (hid : o.2.txID = id) (htotal : o.2.fragTotal = K)
    (hindex : o.2.fragIndex < K) : o ∈ copies := by
  obtain ⟨rest, rfl⟩ := List.head?_eq_some_iff.mp ho
  have hcopy : firstCopy id K (o :: rest) o.2.fragIndex.toNat = some o :=
    List.find?_cons_of_pos (by simp [hid, htotal])
  have hsome : some o ∈ copies.map some := by
    rw [← h, ← hcopy]
    exact List.mem_map_of_mem (List.mem_range.mpr hindex)
  obtain ⟨o', ho', heq⟩ := List.mem_map.mp hsome
  rwa [← Option.some.inj heq]

/-- The clock does not run backwards. -/
def Clocked (os : List Observation) : Prop := os.Pairwise fun o o' => o.1 ≤ o'.1

instance (os : List Observation) : Decidable (Clocked os) :=
  inferInstanceAs (Decidable (os.Pairwise _))

/-- **What a delivered payload is**, in any run. -/
theorem assembled_of_delivery {cfg : Config} {sha256 : Bytes → Bytes32}
    {pre : List Observation} {o : Observation} (hclock : Clocked (pre ++ [o]))
    {e : Event} {id : Bytes32} {payload : Bytes}
    (he : e ∈ (step cfg sha256 (after cfg sha256 pre) o).2)
    (hd : e.delivery = some (id, payload)) :
    Assembled cfg.ttl id (sinceOpened cfg sha256 id (pre ++ [o])) payload ∧
      ∀ f, e = .complete f → cfg.verifyHash = true → sha256d sha256 payload = id := by
  have htraced := traced_after cfg sha256 id pre
  rw [← historyAfter_fst cfg sha256 id] at he
  obtain ⟨s, s', hist, -, -, -, hfull, hfollow, -, rfl, rfl, hholds, hdated, hhash⟩ :=
    htraced.filled_of_delivery he hd
  have hsince := (sinceOpened_snoc cfg sha256 s'.txID pre o).trans hfollow
  refine ⟨?_, hhash⟩
  rw [hsince]
  obtain ⟨copies, hcopies, hpayload⟩ := hholds.full hfull
  obtain ⟨first, hfirst, hopen⟩ := hdated.opened
  refine ⟨s'.fragTotal, copies, first, hcopies, hpayload, hfirst,
    mem_firstCopies_of_head hcopies hfirst hopen.txID.symm hopen.fragTotal.symm hopen.inRange, ?_⟩
  intro c hc
  have hmem : c ∈ hist ++ [o] := mem_of_firstCopies hcopies hc
  have hsorted : Clocked (hist ++ [o]) := by
    rw [← hsince]
    exact hclock.sublist (sinceOpened_suffix cfg sha256 _ _).sublist
  constructor
  · obtain ⟨rest, hrest⟩ := List.head?_eq_some_iff.mp hfirst
    rw [hrest] at hmem hsorted
    rcases List.mem_cons.mp hmem with rfl | hmem
    · exact le_refl _
    · exact List.rel_of_pairwise_cons hsorted hmem
  · rw [← hopen.deadline]
    exact hdated.timely c hmem

/-! ### Messages are kept apart by their fragments only -/

/-- Versions 0x00 and 0x02 both stand for BRC-124/BRC-128. -/
def frameKind (ver : UInt8) : UInt8 := if ver = 0x00 then frameVerV2 else ver

/-- The metadata on which the fragments of one message agree. -/
def SameMessage (ff ff' : FragFrame) : Prop :=
  frameKind ff.origFrameVer = frameKind ff'.origFrameVer ∧ ff.msgType = ff'.msgType ∧
    ff.origPayloadLen = ff'.origPayloadLen

instance (ff ff' : FragFrame) : Decidable (SameMessage ff ff') :=
  inferInstanceAs (Decidable (_ ∧ _ ∧ _))

/-- The fragment carries the metadata of the slot. -/
def Slot.Describes (s : Slot) (ff : FragFrame) : Prop :=
  frameKind s.origFrameVer = frameKind ff.origFrameVer ∧ s.msgType = ff.msgType ∧
    s.origPayloadLen = ff.origPayloadLen

instance (s : Slot) (ff : FragFrame) : Decidable (s.Describes ff) :=
  inferInstanceAs (Decidable (_ ∧ _ ∧ _))

/-- **The condition on arrivals.** A fragment that is stored in an open slot carries the
metadata of that slot. The buffer compares `FragTotal` only. -/
def Consistent (b : Buffer) (o : Observation) : Prop :=
  ∀ s ∈ (b.evictExpired o.1).1.slots.lookup o.2.txID, (s.store o.2).isSome → s.Describes o.2

instance (b : Buffer) (o : Observation) : Decidable (Consistent b o) :=
  inferInstanceAs (Decidable (∀ s ∈ (b.evictExpired o.1).1.slots.lookup o.2.txID, _))

namespace Slot

/-- The first copies of the history carry the metadata of the slot. -/
def Uniform (s : Slot) (hist : List Observation) : Prop :=
  ∀ c, some c ∈ s.copies hist → s.Describes c.2

/-- Before the first observation there is nothing to agree. -/
theorem Uniform.nil (s : Slot) : s.Uniform [] := by
  intro c hc
  rw [copies_nil] at hc
  cases List.eq_of_mem_replicate hc

/-- A fragment that the slot describes may be stored. -/
theorem Uniform.store {s s' : Slot} {hist : List Observation} (h : s.Uniform hist)
    (hholds : s.Holds hist) {o : Observation} (hid : o.2.txID = s.txID)
    (hstore : s.store o.2 = some s') (ho : s.Describes o.2) : s'.Uniform (hist ++ [o]) := by
  intro c hc
  rw [hholds.copies_store hid hstore] at hc
  obtain ⟨-, -, -, _, _, rfl⟩ := store_eq_some hstore
  rcases List.mem_or_eq_of_mem_set hc with hold | hnew
  · exact h c hold
  · obtain rfl := Option.some.inj hnew
    exact ho

end Slot

/-- The slot of `id` holds fragments of one message. -/
structure Unmixed (cfg : Config) (id : Bytes32) (p : Buffer × List Observation) : Prop
    extends Traced cfg id p where
  uniform : ∀ s, p.1.slots.lookup id = some s → s.Uniform p.2

section Unmixed

variable {cfg : Config} {sha256 : Bytes → Bytes32} {id : Bytes32} {o : Observation}
  {p : Buffer × List Observation} {s s' : Slot}

/-- The slot a consistent observation of `id` meets, and the history it extends. -/
theorem Unmixed.met (h : Unmixed cfg id p) (hok : Consistent p.1 o) (hid : o.2.txID = id)
    (hfor : p.1.slotFor cfg o.1 o.2 = some s) :
    ∃ hist, follow id p.1 o p.2 = hist ++ [o] ∧ s.txID = id ∧ s.Holds hist ∧ s.Uniform hist ∧
      ((s.store o.2).isSome → s.Describes o.2) := by
  subst hid
  rcases Buffer.slotFor_cases hfor with hopen | ⟨hnone, -, rfl⟩
  · have hold := Buffer.lookup_of_lookup_evictExpired hopen
    refine ⟨p.2, ?_, h.sound.keyed _ _ hold, h.holds s hold, h.uniform s hold, hok s hopen⟩
    simp [follow, hopen]
  · refine ⟨[], ?_, rfl, Slot.Holds.new _ _ _, Slot.Uniform.nil _, fun _ => ⟨rfl, rfl, rfl⟩⟩
    simp [follow, hnone]

/-- A consistent fragment that is stored leaves the slot with fragments of one message. -/
theorem Unmixed.store (h : Unmixed cfg id p) (hok : Consistent p.1 o) (hid : o.2.txID = id)
    (hfor : p.1.slotFor cfg o.1 o.2 = some s) (hstore : s.store o.2 = some s') :
    s'.Uniform (follow id p.1 o p.2) := by
  obtain ⟨hist, hfollow, hkey, hholds, huniform, hdescribes⟩ := h.met hok hid hfor
  rw [hfollow]
  refine huniform.store hholds (hid.trans hkey.symm) hstore (hdescribes ?_)
  exact Option.isSome_iff_exists.mpr ⟨s', hstore⟩

/-- **The step lemma**: a consistent call mixes nothing. -/
theorem Unmixed.step (h : Unmixed cfg id p) (hok : Consistent p.1 o) :
    Unmixed cfg id (Machine.withGhost (Machine.next (step cfg sha256)) (follow id) p o) := by
  refine ⟨h.toTraced.step, ?_⟩
  intro s hs
  rcases Buffer.lookup_observe_cases h.sound hs with ⟨hne, hopen⟩ | ⟨hid, s₀, hfor, hnext⟩
  · have hold := Buffer.lookup_of_lookup_evictExpired hopen
    have hkey := h.sound.keyed _ _ hold
    rw [Machine.withGhost, follow, if_pos (Option.isSome_iff_exists.mpr ⟨s, hopen⟩)]
    rw [Slot.Uniform, Slot.copies_skip (by rwa [hkey])]
    exact h.uniform s hold
  · rcases Slot.next_eq_some hnext with ⟨hignored, rfl⟩ | ⟨hstore, -⟩
    · obtain ⟨hist, hfollow, -, hholds, huniform, -⟩ := h.met hok hid hfor
      rw [Machine.withGhost, hfollow, Slot.Uniform, hholds.copies_ignore hignored]
      exact huniform
    · exact h.store hok hid hfor hstore

/-- Nothing is mixed in a new buffer. -/
theorem Unmixed.new (cfg : Config) (id : Bytes32) : Unmixed cfg id (.new, []) :=
  ⟨.new cfg id, fun _ h => (nomatch h)⟩

end Unmixed

/-- A buffer with every callback and without verification. -/
def testConfig : Config := Config.new 4 second false true true true

/-- Fragment `i` of two of a BRC-132 message. -/
def subtreeFrag (msgType : UInt8) (i : UInt16) (data : Bytes) : FragFrame where
  txID := Bytes32.ofByte 7
  subtreeID := Bytes32.ofByte 0
  hashKey := 1
  seqNum := 0
  origPayloadLen := 2
  fragIndex := i
  fragTotal := 2
  fragData := data
  origFrameVer := frameVerV5
  msgType := msgType

/-- The observations that the message `id` of `K` fragments is assembled from, in index order:
the first copies since its slot was opened. -/
def parts (cfg : Config) (sha256 : Bytes → Bytes32) (id : Bytes32) (K : UInt16)
    (os : List Observation) : List Observation :=
  (List.range K.toNat).filterMap (firstCopy id K (sinceOpened cfg sha256 id os))

/-- A delivered payload is assembled from its parts, one for each index, and the last observation
is one of them. -/
theorem parts_of_delivery {cfg : Config} {sha256 : Bytes → Bytes32} {pre : List Observation}
    {o : Observation} {e : Event} {id : Bytes32} {payload : Bytes}
    (he : e ∈ (step cfg sha256 (after cfg sha256 pre) o).2)
    (hd : e.delivery = some (id, payload)) :
    let used := parts cfg sha256 id o.2.fragTotal (pre ++ [o])
    (List.range o.2.fragTotal.toNat).map
        (firstCopy id o.2.fragTotal (sinceOpened cfg sha256 id (pre ++ [o]))) = used.map some ∧
      payload = (used.map fun c => c.2.fragData).flatten ∧ o ∈ used := by
  intro used
  rw [← historyAfter_fst cfg sha256 id] at he
  obtain ⟨s, s', hist, hid, -, hstore, hfull, hfollow, hold, rfl, rfl, hholds, -, -⟩ :=
    (traced_after cfg sha256 id pre).filled_of_delivery he hd
  have hsince := (sinceOpened_snoc cfg sha256 s'.txID pre o).trans hfollow
  obtain ⟨htotal, hindex, -, _, _, hs'⟩ := Slot.store_eq_some hstore
  have htotal' : s'.fragTotal = o.2.fragTotal := by rw [hs', htotal]
  obtain ⟨copies, hcopies, hpayload⟩ := hholds.full hfull
  have hused : used = copies := by
    simp only [used, parts]
    rw [hsince, ← htotal', ← Function.id_comp (firstCopy s'.txID s'.fragTotal (hist ++ [o])),
      ← List.filterMap_map, hcopies, List.filterMap_map]
    exact List.filterMap_some
  rw [hused, hsince, ← htotal']
  refine ⟨hcopies, hpayload, ?_⟩
  -- the last observation has just been written to its place
  have hset := hold.copies_store (hid.trans (Slot.store_txID hstore)) hstore
  have hlt : o.2.fragIndex.toNat < (s.copies hist).length := by
    rw [Slot.copies, FirstWrite.array, List.length_map, List.length_range]
    exact hindex
  have hwritten : (s'.copies (hist ++ [o]))[o.2.fragIndex.toNat]? = some (some o) := by
    rw [hset, List.getElem?_set_self hlt]
  rw [Slot.copies, array_writes, hcopies] at hwritten
  obtain ⟨c, hc, heq⟩ := List.mem_map.mp (List.mem_of_getElem? hwritten)
  rwa [← Option.some.inj heq]

/-- The arrivals of the fragments of `id` that are numbered out of `K` are those of one split of a
payload: there is a size for every index, every fragment has the size of its index, and it
announces the sum of all sizes. -/
def OneSplit (id : Bytes32) (K : UInt16) (os : List Observation) : Prop :=
  ∃ sizes : List ℕ, sizes.length = K.toNat ∧
    ∀ o ∈ os, o.2.txID = id → o.2.fragTotal = K → o.2.fragIndex < K →
      sizes[o.2.fragIndex.toNat]? = some o.2.fragData.length ∧
        o.2.origPayloadLen.toNat = sizes.sum

/-- First copies of one split add up to what each of them announces. -/
theorem OneSplit.sum_firstCopies {id : Bytes32} {K : UInt16} {os hist copies : List Observation}
    (h : OneSplit id K os) (hsub : hist ⊆ os)
    (hcopies : (List.range K.toNat).map (firstCopy id K hist) = copies.map some) :
    ∀ c ∈ copies, (copies.map fun c => c.2.fragData.length).sum = c.2.origPayloadLen.toNat := by
  obtain ⟨sizes, hlength, hsizes⟩ := h
  have hcount : copies.length = K.toNat := by
    simpa using (congrArg List.length hcopies).symm
  have hcopy : ∀ i (hi : i < copies.length),
      sizes[i]? = some copies[i].2.fragData.length ∧
        copies[i].2.origPayloadLen.toNat = sizes.sum := by
    intro i hi
    have hfirst : firstCopy id K hist i = some copies[i] := by
      have hget := congrArg (·[i]?) hcopies
      simpa [List.getElem?_range (hcount ▸ hi), List.getElem?_eq_getElem hi] using hget
    have hmatch := List.find?_some hfirst
    obtain ⟨hid, htotal, hindex⟩ := of_decide_eq_true hmatch
    have hlt : copies[i].2.fragIndex < K := by
      rw [UInt16.lt_iff_toNat_lt, hindex, ← hcount]
      exact hi
    have hsize := hsizes _ (hsub (List.mem_of_find?_eq_some hfirst)) hid htotal hlt
    rwa [hindex] at hsize
  have hmap : copies.map (fun c => c.2.fragData.length) = sizes := by
    refine List.ext_getElem? fun i => ?_
    rw [List.getElem?_map]
    by_cases hi : i < copies.length
    · rw [(hcopy i hi).1, List.getElem?_eq_getElem hi]
      rfl
    · rw [List.getElem?_eq_none (not_lt.mp hi), List.getElem?_eq_none (by omega)]
      rfl
  intro c hc
  obtain ⟨i, hi, rfl⟩ := List.getElem_of_mem hc
  rw [hmap, (hcopy i hi).2]

/-- **When a payload has the announced length.** Take any delivery in any run. If the fragments
that have arrived of its message, numbered out of as many as the last one, are those of one split,
then the payload has the length that the last fragment announces, and so does every fragment that
the payload is assembled from. -/
theorem delivered_length_of_oneSplit (cfg : Config) (sha256 : Bytes → Bytes32)
    (pre : List Observation) (o : Observation) (e : Event) (id : Bytes32) (payload : Bytes)
    (he : e ∈ (step cfg sha256 (after cfg sha256 pre) o).2)
    (hd : e.delivery = some (id, payload))
    (hsplit : OneSplit id o.2.fragTotal (pre ++ [o])) :
    let used := parts cfg sha256 id o.2.fragTotal (pre ++ [o])
    payload = (used.map fun c => c.2.fragData).flatten ∧ o ∈ used ∧
      ∀ c ∈ used, payload.length = c.2.origPayloadLen.toNat := by
  intro used
  obtain ⟨hcopies, hpayload, hmem⟩ := parts_of_delivery he hd
  refine ⟨hpayload, hmem, fun c hc => ?_⟩
  have hsum := hsplit.sum_firstCopies
    (sinceOpened_suffix cfg sha256 id (pre ++ [o])).subset hcopies c hc
  rw [hpayload, List.length_flatten, List.map_map]
  exact hsum

/-- The second fragment arrives twice, and then the first one. -/
theorem delivered_length_of_oneSplit_pair :
    let os := [(0, subtreeFrag 1 1 [0xA1]), (1, subtreeFrag 1 1 [0xA1]),
      (2, subtreeFrag 1 0 [0xA0])]
    let used := parts testConfig (fun _ => Bytes32.ofByte 0) (Bytes32.ofByte 7) 2 os
    OneSplit (Bytes32.ofByte 7) 2 os ∧ used.length = 2 ∧
      ∀ c ∈ used, ([0xA0, 0xA1] : Bytes).length = c.2.origPayloadLen.toNat := by
  intro os used
  have hsplit : OneSplit (Bytes32.ofByte 7) 2 os := ⟨[1, 1], rfl, by decide⟩
  obtain ⟨-, -, hlength⟩ := delivered_length_of_oneSplit testConfig (fun _ => Bytes32.ofByte 0)
    [(0, subtreeFrag 1 1 [0xA1]), (1, subtreeFrag 1 1 [0xA1])] (2, subtreeFrag 1 0 [0xA0])
    (.completeSubtree ⟨1, Bytes32.ofByte 7, 1, 0, [0xA0, 0xA1]⟩) (Bytes32.ofByte 7) [0xA0, 0xA1]
    (by decide) rfl hsplit
  exact ⟨hsplit, by decide, hlength⟩

/-- **A payload of another length.** The fragments of a subtree announce two bytes and carry
three. -/
theorem delivered_too_long :
    deliveries (Machine.outputs (step testConfig fun _ => Bytes32.ofByte 0) .new
      [(0, subtreeFrag 1 0 [0xA0]), (1, subtreeFrag 1 1 [0xA1, 0xA2])]) =
        [(Bytes32.ofByte 7, [0xA0, 0xA1, 0xA2])] ∧
    (subtreeFrag 1 0 [0xA0]).origPayloadLen = 2 ∧
    (subtreeFrag 1 1 [0xA1, 0xA2]).origPayloadLen = 2 := by
  decide

end ShardListener.Reassembly
