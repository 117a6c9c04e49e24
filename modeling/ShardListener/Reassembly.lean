import ShardListener.AssocMap
import ShardListener.FirstWrite
import ShardListener.Frame
import ShardListener.Machine

/-!
# The Reassembly Buffer

The fragment buffer of `reassembly/reassembly.go`: one `Slot` for every transaction id,
holding the fragments received so far, and the order in which the slots were opened, which
decides the one to give up when the buffer is full. `Buffer.observe` takes one fragment,
`Buffer.tick` and `Buffer.purge` give slots up.

Conventions of the model:

* an operation returns the new buffer and the events it causes, in order: the metrics hooks
  called and the completed messages handed to a registered callback. The callback's payload
  argument is the payload of its frame argument, so an event carries the frame only;
* counters and lengths are fixed-width as in the source, so that `OrigPayloadLen + 1` and
  `received++` wrap;
* a slot carries the facts that there is one place for each fragment and that `received`
  counts the filled ones, so no other slot can be built;
* SHA-256 is a parameter.

## Main results

* `Buffer.observe_cases`: what one fragment does, said once.
* `Buffer.Sound.observe`: every open slot is on the eviction list and waits for a fragment.
* `Buffer.lookup_observe_self`, `Buffer.lookup_observe_of_ne`: the slots afterwards.
* `Buffer.deliveries_observe`: what is delivered.
-/

namespace ShardListener.Reassembly

/-- Default of the number of slots. -/
def defaultMaxSlots : ℕ := 4096

/-- Default of the time before an incomplete slot is abandoned. -/
def defaultTTL : Duration := 10 * second

/-- What is fixed once the buffer is set up. A callback flag says whether that callback is
registered. -/
structure Config where
  maxSlots : ℕ
  ttl : Duration
  verifyHash : Bool
  onComplete : Bool
  onCompleteBlock : Bool
  onCompleteSubtree : Bool
  maxSlots_pos : 0 < maxSlots
  ttl_pos : 0 < ttl

/-- `New` followed by the callback setters: values that are not positive stand for the
defaults. -/
def Config.new (maxSlots : ℤ) (ttl : Duration)
    (verifyHash onComplete onCompleteBlock onCompleteSubtree : Bool) : Config where
  maxSlots := if maxSlots ≤ 0 then defaultMaxSlots else maxSlots.toNat
  ttl := if ttl ≤ 0 then defaultTTL else ttl
  verifyHash := verifyHash
  onComplete := onComplete
  onCompleteBlock := onCompleteBlock
  onCompleteSubtree := onCompleteSubtree
  maxSlots_pos := by
    split
    · decide
    · omega
  ttl_pos := by
    split
    · decide
    · rename_i h
      exact not_le.mp h

/-! ### Slots -/

/-- The fragments received so far for one id. -/
structure Slot where
  txID : Bytes32
  subtreeID : Bytes32
  hashKey : UInt64
  seqNum : UInt64
  origPayloadLen : UInt32
  fragTotal : UInt16
  received : UInt16
  frags : List (Option Bytes)
  deadline : Time
  origFrameVer : UInt8
  msgType : UInt8
  frags_length : frags.length = fragTotal.toNat
  received_eq : received.toNat = frags.countP Option.isSome
  deriving DecidableEq

/-- The slot that the first fragment of an id opens. -/
def Slot.new (ttl : Duration) (now : Time) (ff : FragFrame) : Slot where
  txID := ff.txID
  subtreeID := ff.subtreeID
  hashKey := ff.hashKey
  seqNum := ff.seqNum
  origPayloadLen := ff.origPayloadLen
  fragTotal := ff.fragTotal
  received := 0
  frags := List.replicate ff.fragTotal.toNat none
  deadline := now + ttl
  origFrameVer := ff.origFrameVer
  msgType := ff.msgType
  frags_length := List.length_replicate
  received_eq := by simp [List.countP_replicate]

/-- An empty place leaves room to count one more fragment. -/
theorem Slot.received_add_one (s : Slot) {i : ℕ} (hfree : s.frags[i]? = some none) :
    (s.received + 1).toNat = s.received.toNat + 1 := by
  have hlt := FirstWrite.countP_lt_length hfree
  rw [← s.received_eq, s.frags_length] at hlt
  have hmax := s.fragTotal.toNat_lt
  rw [UInt16.toNat_add, show (1 : UInt16).toNat = 1 from rfl]
  omega

/-- Put a fragment into its place. `none` when the fragment is ignored: its `FragTotal` is
not the slot's, its index is out of range, or the place is filled. -/
def Slot.store (s : Slot) (ff : FragFrame) : Option Slot :=
  if ff.fragTotal ≠ s.fragTotal ∨ s.fragTotal ≤ ff.fragIndex then none
  else if hfree : s.frags[ff.fragIndex.toNat]? = some none then
    some { s with
      frags := s.frags.set ff.fragIndex.toNat (some ff.fragData)
      received := s.received + 1
      frags_length := by rw [List.length_set, s.frags_length]
      received_eq := by
        rw [s.received_add_one hfree, FirstWrite.countP_set_some hfree, s.received_eq] }
  else none

/-- What the fragments received so far add up to. -/
def Slot.payload (s : Slot) : Bytes := (s.frags.map fun frag => frag.getD []).flatten

/-! ### Events -/

/-- A hook or callback call. -/
inductive Event
  | started
  | abandoned
  | hashMismatch
  | complete (f : Frame)
  | completeBlock (bf : BlockFrame)
  | completeSubtree (sf : SubtreeDataFrame)
  deriving DecidableEq

/-- The id and payload of a completed message. -/
def Event.delivery : Event → Option (Bytes32 × Bytes)
  | .complete f => some (f.txID, f.payload)
  | .completeBlock bf => some (bf.contentID, bf.payload)
  | .completeSubtree sf => some (sf.subtreeID, sf.payload)
  | _ => none

/-- The messages delivered by some events. -/
def deliveries (evs : List Event) : List (Bytes32 × Bytes) := evs.filterMap Event.delivery

/-- No events, no deliveries. -/
@[simp] theorem deliveries_nil : deliveries [] = [] := rfl

/-- Deliveries are in the order of the events. -/
@[simp] theorem deliveries_append (evs evs' : List Event) :
    deliveries (evs ++ evs') = deliveries evs ++ deliveries evs' := List.filterMap_append

/-- SHA256d. -/
def sha256d (sha256 : Bytes → Bytes32) (payload : Bytes) : Bytes32 :=
  sha256 (sha256 payload).toList

variable (cfg : Config) (sha256 : Bytes → Bytes32)

/-- The callback of a full slot, by `OrigFrameVer`. Only the default case, BRC-124/BRC-128,
is verified. -/
def Slot.complete (s : Slot) : List Event :=
  if s.origFrameVer = frameVerV4 then
    if cfg.onCompleteBlock then
      [.completeBlock
        { msgType := s.msgType, contentID := s.txID, hashKey := s.hashKey, seqNum := s.seqNum,
          payload := s.payload }]
    else []
  else if s.origFrameVer = frameVerV5 then
    if cfg.onCompleteSubtree then
      [.completeSubtree
        { msgType := s.msgType, subtreeID := s.txID, hashKey := s.hashKey, seqNum := s.seqNum,
          payload := s.payload }]
    else []
  else if cfg.verifyHash = true ∧ sha256d sha256 s.payload ≠ s.txID then [.hashMismatch]
  else if cfg.onComplete then
    [.complete
      { version := frameVerV2, txID := s.txID, hashKey := s.hashKey, seqNum := s.seqNum,
        subtreeID := s.subtreeID, payload := s.payload }]
  else []

/-! ### The buffer -/

/-- The open slots by id, and their ids in the order of opening. -/
structure Buffer where
  slots : AssocMap Bytes32 Slot
  insertOrder : List Bytes32
  deriving DecidableEq

namespace Buffer

/-- A buffer without slots. -/
def new : Buffer := ⟨∅, []⟩

/-- One iteration of `evictExpired`. -/
def expire (now : Time) (p : AssocMap Bytes32 Slot × List Event) (txID : Bytes32) :
    AssocMap Bytes32 Slot × List Event :=
  match p.1.lookup txID with
  | none => p
  | some s => if s.deadline < now then (p.1.erase txID, p.2 ++ [.abandoned]) else p

/-- Give up the slots whose deadline has passed, and drop the ids without a slot from the
eviction order. -/
def evictExpired (b : Buffer) (now : Time) : Buffer × List Event :=
  let p := b.insertOrder.foldl (expire now) (b.slots, [])
  (⟨p.1, b.insertOrder.filter fun txID => (p.1.lookup txID).isSome⟩, p.2)

/-- Give up the oldest slot. The place it has in the eviction order is the first one of its
id, since an earlier one would have been found first. -/
def evictOldest (b : Buffer) : Buffer × List Event :=
  match b.insertOrder.find? fun txID => (b.slots.lookup txID).isSome with
  | none => (b, [])
  | some txID => (⟨b.slots.erase txID, b.insertOrder.erase txID⟩, [.abandoned])

/-- Make room for one more slot. -/
def makeRoom (b : Buffer) : Buffer × List Event :=
  if cfg.maxSlots ≤ b.slots.size then b.evictOldest else (b, [])

/-- Enter a new slot. -/
def openSlot (b : Buffer) (s : Slot) : Buffer :=
  ⟨b.slots.insert s.txID s, b.insertOrder ++ [s.txID]⟩

/-- Store a fragment in the open slot `s`, and complete the slot when it is full. A completed
slot is removed before its callback runs. -/
def accept (b : Buffer) (s : Slot) (ff : FragFrame) : Buffer × List Event :=
  match s.store ff with
  | none => (b, [])
  | some s' =>
      if s'.received < s'.fragTotal then ({ b with slots := b.slots.insert s'.txID s' }, [])
      else ({ b with slots := b.slots.erase s'.txID }, s'.complete cfg sha256)

/-- Fragment metadata that opens no slot. -/
def Rejected (ff : FragFrame) : Prop :=
  (ff.fragTotal = 0 ∨ ff.fragTotal ≤ ff.fragIndex) ∨
    (ff.origPayloadLen = 0 ∨ ff.origPayloadLen + 1 < ff.fragTotal.toUInt32)

instance (ff : FragFrame) : Decidable (Rejected ff) :=
  inferInstanceAs (Decidable ((_ ∨ _) ∨ (_ ∨ _)))

/-- Process one fragment at time `now`. -/
def observe (b : Buffer) (now : Time) (ff : FragFrame) : Buffer × List Event :=
  let expired := b.evictExpired now
  match expired.1.slots.lookup ff.txID with
  | some s =>
      let stored := expired.1.accept cfg sha256 s ff
      (stored.1, expired.2 ++ stored.2)
  | none =>
      if Rejected ff then expired
      else
        let room := expired.1.makeRoom cfg
        let s := Slot.new cfg.ttl now ff
        let stored := (room.1.openSlot s).accept cfg sha256 s ff
        (stored.1, expired.2 ++ room.2 ++ .started :: stored.2)

/-- Give up the expired slots. -/
def tick (b : Buffer) (now : Time) : Buffer × List Event := b.evictExpired now

/-- Give up all slots. The hook is called once for each, so the order of the map does not
show. -/
def purge (b : Buffer) : Buffer × List Event :=
  (⟨∅, []⟩, List.replicate b.slots.size .abandoned)

/-- The number of open slots. -/
def len (b : Buffer) : ℕ := b.slots.size

/-! ### What one fragment does -/

/-- The slot a fragment meets: the open one of its id, or the one it opens. -/
def slotFor (b : Buffer) (now : Time) (ff : FragFrame) : Option Slot :=
  match (b.evictExpired now).1.slots.lookup ff.txID with
  | some s => some s
  | none => if Rejected ff then none else some (Slot.new cfg.ttl now ff)

/-- The buffer once a fragment has given up the slots it expires or displaces. -/
def clear (b : Buffer) (now : Time) (ff : FragFrame) : Buffer :=
  match (b.evictExpired now).1.slots.lookup ff.txID with
  | some _ => (b.evictExpired now).1
  | none =>
      if Rejected ff then (b.evictExpired now).1 else ((b.evictExpired now).1.makeRoom cfg).1

end Buffer

namespace Slot

/-- A stored fragment changes the place it belongs to and the count, and nothing else. -/
theorem store_eq_some {s s' : Slot} {ff : FragFrame} (h : s.store ff = some s') :
    ff.fragTotal = s.fragTotal ∧ ff.fragIndex < s.fragTotal ∧
      s.frags[ff.fragIndex.toNat]? = some none ∧
      ∃ hlen hrec, s' = { s with
        frags := s.frags.set ff.fragIndex.toNat (some ff.fragData)
        received := s.received + 1
        frags_length := hlen
        received_eq := hrec } := by
  rw [store] at h
  split at h
  · cases h
  · rename_i hmeta
    rw [not_or, not_not, UInt16.not_le] at hmeta
    split at h
    · rename_i hfree
      exact ⟨hmeta.1, hmeta.2, hfree, _, _, (Option.some.inj h).symm⟩
    · cases h

/-- A fragment for the slot's `FragTotal` is ignored only when its place is not empty. -/
theorem store_eq_none {s : Slot} {ff : FragFrame} (h : s.store ff = none)
    (htotal : ff.fragTotal = s.fragTotal) : s.frags[ff.fragIndex.toNat]? ≠ some none := by
  intro hfree
  have hlt : ff.fragIndex.toNat < s.fragTotal.toNat := by
    rw [← s.frags_length]
    exact (List.getElem?_eq_some_iff.mp hfree).1
  rw [store, if_neg, dif_pos hfree] at h
  · cases h
  · rw [not_or, not_not, UInt16.not_le]
    exact ⟨htotal, hlt⟩

/-- The slot an open slot becomes with one more fragment; `none` when that completes it. -/
def next (s : Slot) (ff : FragFrame) : Option Slot :=
  match s.store ff with
  | none => some s
  | some s' => if s'.received < s'.fragTotal then some s' else none

/-- The full slot that one more fragment makes of an open one. -/
def filled (s : Slot) (ff : FragFrame) : Option Slot :=
  (s.store ff).filter fun s' => ¬ s'.received < s'.fragTotal

/-- A slot keeps its id when a fragment is stored. -/
theorem store_txID {s s' : Slot} {ff : FragFrame} (h : s.store ff = some s') :
    s'.txID = s.txID := by
  obtain ⟨-, -, -, _, _, rfl⟩ := store_eq_some h
  rfl

/-- A slot stays open if a fragment is ignored, or stored without filling it. -/
theorem next_eq_some {s s' : Slot} {ff : FragFrame} (h : s.next ff = some s') :
    (s.store ff = none ∧ s' = s) ∨ (s.store ff = some s' ∧ s'.received < s'.fragTotal) := by
  rw [next] at h
  cases hs : s.store ff with
  | none =>
      rw [hs] at h
      exact Or.inl ⟨rfl, (Option.some.inj h).symm⟩
  | some s₁ =>
      simp only [hs] at h
      split at h
      · rename_i hlt
        obtain rfl := Option.some.inj h
        exact Or.inr ⟨rfl, hlt⟩
      · cases h

/-- A slot is filled by a fragment that is stored. -/
theorem filled_eq_some {s s' : Slot} {ff : FragFrame} (h : s.filled ff = some s') :
    s.store ff = some s' ∧ ¬ s'.received < s'.fragTotal := by
  rw [filled, Option.filter_eq_some_iff] at h
  exact ⟨h.1, of_decide_eq_true h.2⟩

end Slot

namespace Buffer

variable {cfg sha256} {b : Buffer} {now : Time} {ff : FragFrame} {id : Bytes32} {s : Slot}

/-- One iteration of the expiry loop. -/
theorem lookup_expire (p : AssocMap Bytes32 Slot × List Event) (txID : Bytes32) :
    (expire now p txID).1.lookup id =
      if id = txID then (p.1.lookup id).filter fun s => now ≤ s.deadline else p.1.lookup id := by
  rw [expire]
  by_cases h : id = txID
  · subst h
    rw [if_pos rfl]
    cases hs : p.1.lookup id with
    | none => simp [hs]
    | some s =>
        by_cases hdead : s.deadline < now
        · simp [Option.filter, hdead]
        · simp [Option.filter, hdead, hs, not_lt.mp hdead]
  · rw [if_neg h]
    split
    · rfl
    · split
      · exact AList.lookup_erase_ne h
      · rfl

/-- The expiry loop removes the expired slots among those it visits. -/
theorem lookup_foldl_expire (order : List Bytes32) (p : AssocMap Bytes32 Slot × List Event) :
    (order.foldl (expire now) p).1.lookup id =
      if id ∈ order then (p.1.lookup id).filter fun s => now ≤ s.deadline
      else p.1.lookup id := by
  induction order generalizing p with
  | nil => rfl
  | cons txID order ih =>
      rw [List.foldl_cons, ih, lookup_expire]
      by_cases htx : id = txID <;> by_cases hmem : id ∈ order <;>
        simp [htx, hmem, Option.filter_filter]

/-- The expiry loop only gives slots up. -/
theorem deliveries_foldl_expire (order : List Bytes32)
    (p : AssocMap Bytes32 Slot × List Event) :
    deliveries (order.foldl (expire now) p).2 = deliveries p.2 := by
  induction order generalizing p with
  | nil => rfl
  | cons txID order ih =>
      rw [List.foldl_cons, ih, expire]
      split
      · rfl
      · split
        · rw [deliveries_append]
          exact List.append_nil _
        · rfl

/-- Expiry gives up what is listed and past its deadline. -/
theorem lookup_evictExpired :
    (b.evictExpired now).1.slots.lookup id =
      if id ∈ b.insertOrder then (b.slots.lookup id).filter fun s => now ≤ s.deadline
      else b.slots.lookup id := lookup_foldl_expire _ _

/-- A slot that survives the expiry was there before. -/
theorem lookup_of_lookup_evictExpired (h : (b.evictExpired now).1.slots.lookup id = some s) :
    b.slots.lookup id = some s := by
  rw [lookup_evictExpired] at h
  split at h
  · exact (Option.filter_eq_some_iff.mp h).1
  · exact h

/-- The expiry opens no slot. -/
theorem lookup_evictExpired_of_none (now : Time) (h : b.slots.lookup id = none) :
    (b.evictExpired now).1.slots.lookup id = none := by
  rw [lookup_evictExpired, h]
  split <;> rfl

/-- Rejected metadata meets no slot unless there is one already. -/
theorem slotFor_of_rejected (now : Time) (hnone : b.slots.lookup ff.txID = none)
    (hrej : Rejected ff) : b.slotFor cfg now ff = none := by
  simp only [slotFor, lookup_evictExpired_of_none now hnone, if_pos hrej]

/-- The oldest slot is the only one that making room removes. -/
theorem lookup_of_lookup_makeRoom (h : (b.makeRoom cfg).1.slots.lookup id = some s) :
    b.slots.lookup id = some s := by
  rw [makeRoom] at h
  split at h
  · rw [evictOldest] at h
    split at h
    · exact h
    · exact AList.lookup_of_lookup_erase h
  · exact h

/-- What is left after a fragment has given slots up was there before. -/
theorem lookup_of_lookup_clear (h : (b.clear cfg now ff).slots.lookup id = some s) :
    (b.evictExpired now).1.slots.lookup id = some s := by
  rw [clear] at h
  split at h
  · exact h
  · split at h
    · exact h
    · exact lookup_of_lookup_makeRoom h

/-- Expiry delivers nothing. -/
theorem deliveries_evictExpired : deliveries (b.evictExpired now).2 = [] :=
  deliveries_foldl_expire _ _

/-- Making room delivers nothing. -/
theorem deliveries_makeRoom : deliveries (b.makeRoom cfg).2 = [] := by
  rw [makeRoom, evictOldest]
  split
  · split <;> rfl
  · rfl

/-! Storing a fragment touches the slot it belongs to. -/

/-- The slot of a fragment afterwards. -/
theorem lookup_accept_self (hopen : b.slots.lookup s.txID = some s) :
    (b.accept cfg sha256 s ff).1.slots.lookup s.txID = s.next ff := by
  rw [accept, Slot.next]
  cases hs : s.store ff with
  | none => exact hopen
  | some s' =>
      have hid : s'.txID = s.txID := Slot.store_txID hs
      by_cases hlt : s'.received < s'.fragTotal
      · simp [hlt, hid]
      · simp [hlt, hid]

/-- The other slots are left alone. -/
theorem lookup_accept_of_ne (hne : id ≠ s.txID) :
    (b.accept cfg sha256 s ff).1.slots.lookup id = b.slots.lookup id := by
  rw [accept]
  cases hs : s.store ff with
  | none => rfl
  | some s' =>
      have hid : id ≠ s'.txID := by rwa [Slot.store_txID hs]
      by_cases hlt : s'.received < s'.fragTotal
      · simp [hlt, AList.lookup_insert_ne hid]
      · simp [hlt, AList.lookup_erase_ne hid]

/-- A fragment for an open slot does not change the list of ids. -/
theorem accept_insertOrder : (b.accept cfg sha256 s ff).1.insertOrder = b.insertOrder := by
  rw [accept]
  split
  · rfl
  · split <;> rfl

/-- A fragment that fills its slot completes it. -/
theorem accept_events :
    (b.accept cfg sha256 s ff).2 =
      ((s.filled ff).map fun s' => s'.complete cfg sha256).getD [] := by
  rw [accept, Slot.filled]
  cases hs : s.store ff with
  | none => rfl
  | some s' =>
      by_cases hlt : s'.received < s'.fragTotal
      · simp [Option.filter, hlt]
      · simp [Option.filter, hlt]

/-! ### The buffer invariant -/

/-- Every open slot is stored under its id, stands on the eviction list, and still waits for
a fragment. -/
structure Sound (b : Buffer) : Prop where
  keyed : ∀ id s, b.slots.lookup id = some s → s.txID = id
  listed : ∀ id s, b.slots.lookup id = some s → id ∈ b.insertOrder
  waiting : ∀ id s, b.slots.lookup id = some s → s.received < s.fragTotal

/-- A new buffer has no slots. -/
theorem Sound.new : Sound new :=
  ⟨fun _ _ h => (nomatch h), fun _ _ h => (nomatch h), fun _ _ h => (nomatch h)⟩

/-- In a sound buffer no open slot outlives its deadline. -/
theorem Sound.le_deadline (h : Sound b)
    (hs : (b.evictExpired now).1.slots.lookup id = some s) : now ≤ s.deadline := by
  have hlisted := h.listed id s (lookup_of_lookup_evictExpired hs)
  rw [lookup_evictExpired, if_pos hlisted, Option.filter_eq_some_iff] at hs
  exact of_decide_eq_true hs.2

/-- Expiry keeps a sound buffer sound. -/
theorem Sound.evictExpired (h : Sound b) (now : Time) : Sound (b.evictExpired now).1 where
  keyed := fun id s hs => h.keyed id s (lookup_of_lookup_evictExpired hs)
  listed := by
    intro id s hs
    refine List.mem_filter.mpr ⟨h.listed id s (lookup_of_lookup_evictExpired hs), ?_⟩
    exact Option.isSome_iff_exists.mpr ⟨s, hs⟩
  waiting := fun id s hs => h.waiting id s (lookup_of_lookup_evictExpired hs)

/-- Making room keeps a sound buffer sound. -/
theorem Sound.makeRoom (h : Sound b) : Sound (b.makeRoom cfg).1 where
  keyed := fun id s hs => h.keyed id s (lookup_of_lookup_makeRoom hs)
  listed := by
    intro id s hs
    have hmem := h.listed id s (lookup_of_lookup_makeRoom hs)
    rw [Buffer.makeRoom] at hs ⊢
    split at hs
    · rename_i hfull
      rw [if_pos hfull]
      rw [evictOldest] at hs ⊢
      split at hs
      · exact hmem
      · rename_i old _
        have hne : id ≠ old := by
          rintro rfl
          rw [AList.lookup_erase] at hs
          cases hs
        exact (List.mem_erase_of_ne hne).mpr hmem
    · rename_i hroom
      rwa [if_neg hroom]
  waiting := fun id s hs => h.waiting id s (lookup_of_lookup_makeRoom hs)

/-- A slot that waits for a fragment may be opened. -/
theorem Sound.openSlot (h : Sound b) (hwait : s.received < s.fragTotal) :
    Sound (b.openSlot s) := by
  have hcases : ∀ id s', (b.openSlot s).slots.lookup id = some s' →
      (id = s.txID ∧ s' = s) ∨ b.slots.lookup id = some s' := by
    intro id s' hs'
    rw [Buffer.openSlot, AList.lookup_insert_ite] at hs'
    split at hs'
    · rename_i hid
      exact Or.inl ⟨hid, (Option.some.inj hs').symm⟩
    · exact Or.inr hs'
  refine ⟨?_, ?_, ?_⟩
  · intro id s' hs'
    rcases hcases id s' hs' with ⟨rfl, rfl⟩ | hold
    · rfl
    · exact h.keyed id s' hold
  · intro id s' hs'
    rcases hcases id s' hs' with ⟨rfl, -⟩ | hold
    · exact List.mem_append_right _ (List.mem_singleton.mpr rfl)
    · exact List.mem_append_left _ (h.listed id s' hold)
  · intro id s' hs'
    rcases hcases id s' hs' with ⟨-, rfl⟩ | hold
    · exact hwait
    · exact h.waiting id s' hold

/-- A fragment leaves its slot waiting, or takes it away. -/
theorem Sound.accept (h : Sound b) (hopen : b.slots.lookup s.txID = some s) :
    Sound (b.accept cfg sha256 s ff).1 := by
  have hcases : ∀ id s', (b.accept cfg sha256 s ff).1.slots.lookup id = some s' →
      (id = s.txID ∧ s.next ff = some s') ∨ b.slots.lookup id = some s' := by
    intro id s' hs'
    by_cases hid : id = s.txID
    · subst hid
      rw [lookup_accept_self hopen] at hs'
      exact Or.inl ⟨rfl, hs'⟩
    · rw [lookup_accept_of_ne hid] at hs'
      exact Or.inr hs'
  refine ⟨?_, ?_, ?_⟩
  · intro id s' hs'
    rcases hcases id s' hs' with ⟨rfl, hnext⟩ | hold
    · rcases Slot.next_eq_some hnext with ⟨-, rfl⟩ | ⟨hstore, -⟩
      · rfl
      · exact Slot.store_txID hstore
    · exact h.keyed id s' hold
  · intro id s' hs'
    rw [accept_insertOrder]
    rcases hcases id s' hs' with ⟨rfl, -⟩ | hold
    · exact h.listed _ s hopen
    · exact h.listed id s' hold
  · intro id s' hs'
    rcases hcases id s' hs' with ⟨rfl, hnext⟩ | hold
    · rcases Slot.next_eq_some hnext with ⟨-, rfl⟩ | ⟨-, hlt⟩
      · exact h.waiting _ s' hopen
      · exact hlt
    · exact h.waiting id s' hold

/-- A fragment that is not rejected opens a slot that waits for it. -/
theorem new_waiting (hok : ¬ Rejected ff) :
    (Slot.new cfg.ttl now ff).received < (Slot.new cfg.ttl now ff).fragTotal := by
  obtain ⟨⟨hzero, -⟩, -⟩ := not_or.mp hok |>.imp not_or.mp id
  exact UInt16.pos_iff_ne_zero.mpr hzero

variable (cfg sha256) in
/-- **What one fragment does.** Either it meets no slot, and only gives slots up; or it is
stored in the slot it meets, in a buffer that has given up the same slots. -/
theorem observe_cases (h : Sound b) :
    (b.slotFor cfg now ff = none ∧ (b.observe cfg sha256 now ff).1 = b.clear cfg now ff ∧
      deliveries (b.observe cfg sha256 now ff).2 = [] ∧
      (b.clear cfg now ff).slots.lookup ff.txID = none ∧ Sound (b.clear cfg now ff)) ∨
    ∃ b₀ s evs, b.slotFor cfg now ff = some s ∧ s.txID = ff.txID ∧
      b₀.slots.lookup s.txID = some s ∧
      (∀ id, id ≠ s.txID → b₀.slots.lookup id = (b.clear cfg now ff).slots.lookup id) ∧
      Sound b₀ ∧ deliveries evs = [] ∧
      b.observe cfg sha256 now ff =
        ((b₀.accept cfg sha256 s ff).1, evs ++ (b₀.accept cfg sha256 s ff).2) := by
  have hexp : Sound (b.evictExpired now).1 := h.evictExpired now
  cases hs : (b.evictExpired now).1.slots.lookup ff.txID with
  | some s =>
      have hid : s.txID = ff.txID := hexp.keyed _ _ hs
      right
      refine ⟨(b.evictExpired now).1, s, (b.evictExpired now).2, ?_, hid, ?_, ?_, hexp,
        deliveries_evictExpired, ?_⟩
      · simp only [slotFor, hs]
      · rwa [hid]
      · intro id _
        simp only [clear, hs]
      · simp only [observe, hs]
  | none =>
      by_cases hrej : Rejected ff
      · left
        refine ⟨?_, ?_, ?_, ?_, ?_⟩
        · simp only [slotFor, hs, if_pos hrej]
        · simp only [observe, clear, hs, if_pos hrej]
        · simp only [observe, hs, if_pos hrej]
          exact deliveries_evictExpired
        · simp only [clear, hs, if_pos hrej]
        · simp only [clear, hs, if_pos hrej]
          exact hexp
      · right
        have hroom : Sound ((b.evictExpired now).1.makeRoom cfg).1 := hexp.makeRoom
        refine ⟨((b.evictExpired now).1.makeRoom cfg).1.openSlot (Slot.new cfg.ttl now ff),
          Slot.new cfg.ttl now ff,
          (b.evictExpired now).2 ++ ((b.evictExpired now).1.makeRoom cfg).2 ++ [.started],
          ?_, rfl, ?_, ?_, hroom.openSlot (new_waiting hrej), ?_, ?_⟩
        · simp only [slotFor, hs, if_neg hrej]
        · exact AList.lookup_insert _
        · intro id hne
          rw [openSlot, AList.lookup_insert_ne hne]
          simp only [clear, hs, if_neg hrej]
        · rw [deliveries_append, deliveries_append, deliveries_evictExpired, deliveries_makeRoom]
          rfl
        · simp only [observe, hs, if_neg hrej, List.append_assoc, List.singleton_append]

/-- **The step lemma**: a fragment keeps a sound buffer sound. -/
theorem Sound.observe (h : Sound b) : Sound (b.observe cfg sha256 now ff).1 := by
  rcases observe_cases cfg sha256 h with
    ⟨-, heq, -, -, hsound⟩ | ⟨b₀, s, evs, -, -, hopen, -, hsound, -, heq⟩
  · rwa [heq]
  · rw [heq]
    exact hsound.accept hopen

/-- The slot of the fragment's id afterwards. -/
theorem lookup_observe_self (h : Sound b) :
    (b.observe cfg sha256 now ff).1.slots.lookup ff.txID =
      (b.slotFor cfg now ff).bind fun s => s.next ff := by
  rcases observe_cases cfg sha256 h with
    ⟨hnone, heq, -, hclear, -⟩ | ⟨b₀, s, evs, hfor, hid, hopen, -, -, -, heq⟩
  · rw [heq, hclear, hnone]
    rfl
  · rw [heq, hfor, ← hid]
    exact lookup_accept_self hopen

/-- The slots of the other ids afterwards. -/
theorem lookup_observe_of_ne (h : Sound b) (hne : id ≠ ff.txID) :
    (b.observe cfg sha256 now ff).1.slots.lookup id =
      (b.clear cfg now ff).slots.lookup id := by
  rcases observe_cases cfg sha256 h with
    ⟨-, heq, -⟩ | ⟨b₀, s, evs, -, hid, -, hother, -, -, heq⟩
  · rw [heq]
  · rw [← hid] at hne
    rw [heq, lookup_accept_of_ne hne, hother id hne]

variable (cfg sha256) in
/-- The events of a fragment end with those of the slot it fills, and deliver nothing before. -/
theorem observe_events (h : Sound b) :
    ∃ evs, deliveries evs = [] ∧ (b.observe cfg sha256 now ff).2 =
      evs ++ (((b.slotFor cfg now ff).bind fun s => s.filled ff).map fun s =>
        s.complete cfg sha256).getD [] := by
  rcases observe_cases cfg sha256 h with
    ⟨hnone, -, hdel, -⟩ | ⟨b₀, s, evs, hfor, -, -, -, -, hevs, heq⟩
  · refine ⟨(b.observe cfg sha256 now ff).2, hdel, ?_⟩
    rw [hnone]
    exact (List.append_nil _).symm
  · refine ⟨evs, hevs, ?_⟩
    rw [heq, hfor, accept_events]
    rfl

/-- What a fragment delivers: the slot it meets, when it fills it. -/
theorem deliveries_observe (h : Sound b) :
    deliveries (b.observe cfg sha256 now ff).2 =
      (((b.slotFor cfg now ff).bind fun s => s.filled ff).map fun s =>
        deliveries (s.complete cfg sha256)).getD [] := by
  obtain ⟨evs, hevs, heq⟩ := observe_events cfg sha256 h
  rw [heq, deliveries_append, hevs, List.nil_append]
  cases (b.slotFor cfg now ff).bind fun s => s.filled ff with
  | none => rfl
  | some s => rfl

/-- A delivering event comes from the slot the fragment fills. -/
theorem mem_complete_of_delivery (h : Sound b) {e : Event} {d : Bytes32 × Bytes}
    (he : e ∈ (b.observe cfg sha256 now ff).2) (hd : e.delivery = some d) :
    ∃ s s', b.slotFor cfg now ff = some s ∧ s.filled ff = some s' ∧
      e ∈ s'.complete cfg sha256 := by
  obtain ⟨evs, hevs, heq⟩ := observe_events cfg sha256 h
  rw [heq] at he
  rcases List.mem_append.mp he with he | he
  · rw [List.filterMap_eq_nil_iff.mp hevs e he] at hd
    cases hd
  · cases hfill : (b.slotFor cfg now ff).bind fun s => s.filled ff with
    | none =>
        rw [hfill] at he
        exact absurd he List.not_mem_nil
    | some s' =>
        rw [hfill] at he
        obtain ⟨s, hfor, hs'⟩ := Option.bind_eq_some_iff.mp hfill
        exact ⟨s, s', hfor, hs', he⟩

/-- The slot a fragment meets survived the expiry or is opened by the fragment. -/
theorem slotFor_cases (h : b.slotFor cfg now ff = some s) :
    (b.evictExpired now).1.slots.lookup ff.txID = some s ∨
      ((b.evictExpired now).1.slots.lookup ff.txID = none ∧ ¬ Rejected ff ∧
        s = Slot.new cfg.ttl now ff) := by
  rw [slotFor] at h
  cases hs : (b.evictExpired now).1.slots.lookup ff.txID with
  | some s₀ =>
      simp only [hs] at h
      exact Or.inl h
  | none =>
      simp only [hs] at h
      split at h
      · cases h
      · rename_i hok
        exact Or.inr ⟨rfl, hok, (Option.some.inj h).symm⟩

/-- An open slot was open before and not met, or is what became of the slot that was met. -/
theorem lookup_observe_cases (h : Sound b)
    (hs : (b.observe cfg sha256 now ff).1.slots.lookup id = some s) :
    (ff.txID ≠ id ∧ (b.evictExpired now).1.slots.lookup id = some s) ∨
      (ff.txID = id ∧ ∃ s₀, b.slotFor cfg now ff = some s₀ ∧ s₀.next ff = some s) := by
  by_cases hid : ff.txID = id
  · subst hid
    rw [lookup_observe_self h, Option.bind_eq_some_iff] at hs
    exact Or.inr ⟨rfl, hs⟩
  · rw [lookup_observe_of_ne h (Ne.symm hid)] at hs
    exact Or.inl ⟨hid, lookup_of_lookup_clear hs⟩

end Buffer

end ShardListener.Reassembly
