import ShardListener.Completion

/-!
# The Fragments of One Message

Copies of the fragments of one message, with nothing in between, meet a buffer without open
slots (`Buffer.Idle`). The first one opens the slot, which is then the only one, so it is never
displaced; and it does not expire as long as the copies come within the lifetime of the slot
(`CopiesOf`). The fragment that was missing last completes it, and the message goes out under
the header of the first copy (`message`). The fragments from the first to the last, once each,
are the case `InSequence`.

## Main results

* `CopiesOf.unfinished`: nothing is delivered while a fragment is missing.
* `CopiesOf.finished`: what the last fragment delivers, and that it leaves no slot open.
-/

namespace ShardListener.Reassembly

/-- No slot is open. -/
def Buffer.Idle (b : Buffer) : Prop := ∀ id, b.slots.lookup id = none

/-- A new buffer is idle. -/
theorem Buffer.Idle.new : Idle new := fun _ => rfl

/-- An idle buffer is sound. -/
theorem Buffer.Idle.sound {b : Buffer} (h : b.Idle) : b.Sound := by
  have hno : ∀ {C : Bytes32 → Slot → Prop} id s, b.slots.lookup id = some s → C id s := by
    intro C id s hs
    rw [h id] at hs
    cases hs
  exact ⟨hno, hno, hno⟩

/-- The fragment delivers no message. -/
def Silent (cfg : Config) (sha256 : Bytes → Bytes32) (b : Buffer) (o : Observation) : Prop :=
  deliveries (step cfg sha256 b o).2 = []

/-- The observations are copies of the fragments `parts`, and none comes after the slot of the
first has expired. -/
structure CopiesOf (cfg : Config) (parts : List FragFrame) (os : List Observation) : Prop where
  only : ∀ o ∈ os, o.2 ∈ parts
  kept : ∀ first ∈ os.head?, ∀ o ∈ os, o.1 ≤ first.1 + cfg.ttl

/-- The observations are the fragments of one message in order, and none comes after the slot
of the first has expired. -/
structure InSequence (cfg : Config) (id : Bytes32) (P : Bytes) (ver msgType : UInt8)
    (os : List Observation) : Prop where
  split : Split id P ver msgType (os.map Prod.snd)
  kept : ∀ first ∈ os.head?, ∀ o ∈ os, o.1 ≤ first.1 + cfg.ttl

/-- No fragment of a message occurs twice. -/
theorem Fragmented.nodup {id : Bytes32} {P : Bytes} {ver msgType : UInt8}
    {parts : List FragFrame} (h : Fragmented id P ver msgType parts) : parts.Nodup := by
  have hindex : parts.map (fun ff => ff.fragIndex.toNat) = List.range parts.length := by
    apply List.ext_getElem?
    intro i
    rw [List.getElem?_map]
    cases hi : parts[i]? with
    | none =>
        have hlen := List.getElem?_eq_none_iff.mp hi
        exact (List.getElem?_eq_none_iff.mpr (by rwa [List.length_range])).symm
    | some ff =>
        have hlt := (List.getElem?_eq_some_iff.mp hi).1
        rw [List.getElem?_range hlt, Option.map_some, (h.get hi).2.1]
  exact List.Nodup.of_map _ (hindex ▸ List.nodup_range)

/-- A split payload has a fragment. -/
theorem Split.ne_nil {id : Bytes32} {P : Bytes} {ver msgType : UInt8} {parts : List FragFrame}
    (h : Split id P ver msgType parts) : parts ≠ [] := by
  rintro rfl
  have hpayload := h.payload
  have hnonempty := h.nonempty
  rw [← hpayload] at hnonempty
  exact Nat.not_succ_le_zero _ hnonempty

/-- The slot that a fragment fills is no longer open. -/
theorem Slot.next_of_filled {s s' : Slot} {ff : FragFrame} (h : s.filled ff = some s') :
    s.next ff = none := by
  obtain ⟨hstore, hfull⟩ := Slot.filled_eq_some h
  rw [Slot.next, hstore]
  exact if_neg hfull

section CopiesOf

variable {cfg : Config} {sha256 : Bytes → Bytes32} {id : Bytes32} {P : Bytes}
  {ver msgType : UInt8} {parts : List FragFrame} {os es rest : List Observation}
  {o last : Observation} {b : Buffer}

/-- A fragment that comes in time does not give up its own slot. -/
theorem InProgress.retained {p : Buffer × List Observation}
    (h : InProgress cfg id ver parts es p) (hhist : p.2 = es) (hid : o.2.txID = id)
    (htime : ∀ first ∈ es.head?, o.1 ≤ first.1 + cfg.ttl) : Retained cfg id p.1 o := by
  intro hopen
  obtain ⟨s, hs⟩ := Option.isSome_iff_exists.mp hopen
  obtain ⟨first, hfirst, hopened⟩ := (h.dated s hs).opened
  have halive : (p.1.evictExpired o.1).1.slots.lookup id = some s := by
    rw [Buffer.lookup_evictExpired, if_pos (h.sound.listed id s hs), Option.filter_eq_some_iff]
    refine ⟨hs, decide_eq_true ?_⟩
    rw [hopened.deadline]
    exact htime first (hhist ▸ hfirst)
  rw [Buffer.clear, hid, halive]
  exact Option.isSome_iff_exists.mpr ⟨s, halive⟩

/-- While the slot is kept, its history goes on. -/
theorem InProgress.follow {p : Buffer × List Observation}
    (h : InProgress cfg id ver parts es p) (hhist : p.2 = es) (hkeep : Retained cfg id p.1 o)
    (hids : ∀ o ∈ es, o.2.txID = id) : Reassembly.follow id p.1 o p.2 = es ++ [o] := by
  rw [Reassembly.follow, hhist]
  cases hes : es with
  | nil => split <;> rfl
  | cons first es' =>
      have hmem : first ∈ es := hes ▸ List.mem_cons_self
      obtain ⟨s, hs⟩ := Option.isSome_iff_exists.mp (h.opened first hmem (hids first hmem))
      rw [if_pos (Option.isSome_iff_exists.mpr ⟨s, (hkeep.lookup hs).2⟩)]

/-- An earlier part of the copies. -/
theorem CopiesOf.left (h : CopiesOf cfg parts (es ++ rest)) : CopiesOf cfg parts es where
  only := fun o ho => h.only o (List.mem_append_left _ ho)
  kept := fun first hfirst o ho =>
    h.kept first (List.mem_head?_append_of_mem_head? hfirst) o (List.mem_append_left _ ho)

/-- A copy of a fragment has the id of the message. -/
theorem CopiesOf.txID (h : CopiesOf cfg parts os) (hparts : Fragmented id P ver msgType parts)
    (ho : o ∈ os) : o.2.txID = id := (hparts.get (hparts.getElem?_of_mem (h.only o ho))).1

/-- Copies keep to the time limit of the first one. -/
theorem CopiesOf.timely (h : CopiesOf cfg parts (es ++ [o])) :
    ∀ first ∈ es.head?, o.1 ≤ first.1 + cfg.ttl := by
  intro first hfirst
  exact h.kept first (List.mem_head?_append_of_mem_head? hfirst) o (by simp)

variable (sha256) in
/-- **Nothing is delivered while a fragment is missing**, and the slot is kept. -/
theorem CopiesOf.unfinished (h : CopiesOf cfg parts es) (hparts : Fragmented id P ver msgType parts)
    (hmissing : ∃ ff ∈ parts, ∀ o ∈ es, o.2 ≠ ff) (hidle : b.Idle) :
    Machine.Guarded (Machine.next (step cfg sha256)) (Retained cfg id) b es ∧
      Machine.Guarded (Machine.next (step cfg sha256)) (Silent cfg sha256) b es ∧
      (Machine.run (Machine.withGhost (Machine.next (step cfg sha256)) (follow id)) (b, []) es).2 =
        es := by
  -- from the end, as the invariants of the slot are about the fragments so far
  induction es using List.reverseRecOn with
  | nil => exact ⟨trivial, trivial, rfl⟩
  | append_singleton es e ih =>
      obtain ⟨ff, hff, hne⟩ := hmissing
      have hmissing' : ∃ ff ∈ parts, ∀ o ∈ es, o.2 ≠ ff :=
        ⟨ff, hff, fun o ho => hne o (List.mem_append_left _ ho)⟩
      obtain ⟨hkeep, hsilent, hhist⟩ := ih h.left hmissing'
      obtain ⟨hprog, -⟩ := inProgress_run hparts hidle.sound (hidle id) es hkeep
        (fun o ho _ => h.left.only o ho) hmissing'
      have hid : e.2.txID = id := h.txID hparts (by simp)
      have hkeep' := hprog.retained hhist hid h.timely
      have hsilent' := hprog.deliveries_eq_nil sha256 hparts hkeep' (fun o ho _ => h.only o ho)
        ⟨ff, hff, hne⟩ hid
      have hghost := hprog.follow hhist hkeep' fun o ho => h.left.txID hparts ho
      rw [Machine.run_withGhost] at hkeep' hsilent'
      refine ⟨Machine.guarded_snoc.mpr ⟨hkeep, hkeep'⟩,
        Machine.guarded_snoc.mpr ⟨hsilent, hsilent'⟩, ?_⟩
      rw [Machine.run_snoc]
      exact hghost

/-- Fragments of one id open no other slot. -/
theorem lookup_run_of_ne (hsound : b.Sound) {id' : Bytes32} (hne : id' ≠ id)
    (hnone : b.slots.lookup id' = none) (hids : ∀ o ∈ es, o.2.txID = id) :
    (Machine.run (Machine.next (step cfg sha256)) b es).slots.lookup id' = none := by
  induction es generalizing b with
  | nil => exact hnone
  | cons e es ih =>
      refine ih (sound_step hsound e) ?_ fun o ho => hids o (List.mem_cons_of_mem _ ho)
      by_contra hsome
      obtain ⟨s, hs⟩ := Option.ne_none_iff_exists'.mp hsome
      rcases Buffer.lookup_observe_cases hsound hs with ⟨-, hold⟩ | ⟨hid, -⟩
      · rw [Buffer.lookup_of_lookup_evictExpired hold] at hnone
        cases hnone
      · exact hne (hid.symm.trans (hids e List.mem_cons_self))

variable (sha256) in
/-- **The last fragment** completes the slot that the first copy opened, and leaves no slot
open. -/
theorem CopiesOf.finished (h : CopiesOf cfg parts (es ++ [last]))
    (hparts : Fragmented id P ver msgType parts) (hmissing : ∃ ff ∈ parts, ∀ o ∈ es, o.2 ≠ ff)
    (hall : ∀ ff ∈ parts, ∃ o ∈ es ++ [last], o.2 = ff) (hidle : b.Idle) :
    (step cfg sha256 (Machine.run (Machine.next (step cfg sha256)) b es) last).1.Idle ∧
      ∃ (evs : List Event) (s : Slot), ∃ first ∈ (es ++ [last]).head?, deliveries evs = [] ∧
        (step cfg sha256 (Machine.run (Machine.next (step cfg sha256)) b es) last).2 =
          evs ++ s.complete cfg sha256 ∧ s.OpenedBy cfg.ttl first ∧ s.payload = P := by
  obtain ⟨hkeep, -, hhist⟩ := h.left.unfinished sha256 hparts hmissing hidle
  obtain ⟨hprog, -⟩ := inProgress_run hparts hidle.sound (hidle id) es hkeep
    (fun o ho _ => h.left.only o ho) hmissing
  have hids : ∀ o ∈ es, o.2.txID = id := fun o ho => h.left.txID hparts ho
  have hid : last.2.txID = id := h.txID hparts (by simp)
  have hkeep' := hprog.retained hhist hid h.timely
  have hghost := hprog.follow hhist hkeep' hids
  have harr : Arrives id parts es last [] :=
    ⟨fun o ho _ => h.only o ho, hall, hmissing, fun _ ho => (nomatch ho)⟩
  obtain ⟨s, s', hfor, hfilled, -, -, hpayload, hdated⟩ := hprog.filled_last hparts harr hkeep'
  have hsound := hprog.sound
  rw [hghost] at hdated
  rw [Machine.run_withGhost] at hfor hsound
  obtain ⟨first, hfirst, hopened⟩ := hdated.opened
  constructor
  · intro id'
    by_contra hsome
    obtain ⟨s₁, hs₁⟩ := Option.ne_none_iff_exists'.mp hsome
    rcases Buffer.lookup_observe_cases hsound hs₁ with ⟨hne, hold⟩ | ⟨-, s₀, hfor', hnext⟩
    · have hopen := Buffer.lookup_of_lookup_evictExpired hold
      rw [hid] at hne
      rw [lookup_run_of_ne hidle.sound (Ne.symm hne) (hidle id') hids] at hopen
      cases hopen
    · rw [hfor] at hfor'
      obtain rfl := Option.some.inj hfor'
      rw [Slot.next_of_filled hfilled] at hnext
      cases hnext
  · obtain ⟨evs, hevs, heq⟩ := @Buffer.observe_events cfg sha256 _ last.1 last.2 hsound
    refine ⟨evs, s', first, hfirst, hevs, ?_, hopened, hpayload⟩
    rw [step, heq, hfor, Option.bind_some, hfilled]
    rfl

end CopiesOf

section InSequence

variable {cfg : Config} {sha256 : Bytes → Bytes32} {id : Bytes32} {P : Bytes}
  {ver msgType : UInt8} {os es rest : List Observation} {o last : Observation} {b : Buffer}

/-- Fragments in sequence are copies of themselves. -/
theorem InSequence.copies (h : InSequence cfg id P ver msgType os) :
    CopiesOf cfg (os.map Prod.snd) os := ⟨fun _ ho => List.mem_map_of_mem ho, h.kept⟩

/-- What is still to come is missing. -/
theorem InSequence.missing (h : InSequence cfg id P ver msgType (es ++ o :: rest)) :
    ∃ ff ∈ (es ++ o :: rest).map Prod.snd, ∀ o' ∈ es, o'.2 ≠ ff := by
  have hnodup := h.split.fragmented.nodup
  rw [List.map_append, List.map_cons, List.nodup_append] at hnodup
  refine ⟨o.2, List.mem_map_of_mem (by simp), ?_⟩
  intro o' ho'
  exact hnodup.2.2 o'.2 (List.mem_map_of_mem ho') o.2 List.mem_cons_self

variable (sha256) in
/-- **Nothing is delivered before the last fragment**, and the slot is kept. -/
theorem InSequence.unfinished (h : InSequence cfg id P ver msgType (es ++ o :: rest))
    (hidle : b.Idle) :
    Machine.Guarded (Machine.next (step cfg sha256)) (Retained cfg id) b es ∧
      Machine.Guarded (Machine.next (step cfg sha256)) (Silent cfg sha256) b es ∧
      (Machine.run (Machine.withGhost (Machine.next (step cfg sha256)) (follow id)) (b, []) es).2 =
        es := h.copies.left.unfinished sha256 h.split.fragmented h.missing hidle

variable (sha256) in
/-- **The last fragment** completes the slot that the first one opened, and leaves no slot
open. -/
theorem InSequence.finished (h : InSequence cfg id P ver msgType (es ++ [last]))
    (hidle : b.Idle) :
    (step cfg sha256 (Machine.run (Machine.next (step cfg sha256)) b es) last).1.Idle ∧
      ∃ (evs : List Event) (s : Slot), ∃ first ∈ (es ++ [last]).head?, deliveries evs = [] ∧
        (step cfg sha256 (Machine.run (Machine.next (step cfg sha256)) b es) last).2 =
          evs ++ s.complete cfg sha256 ∧ s.OpenedBy cfg.ttl first ∧ s.payload = P := by
  refine h.copies.finished sha256 h.split.fragmented h.missing ?_ hidle
  intro ff hff
  obtain ⟨o, ho, rfl⟩ := List.mem_map.mp hff
  exact ⟨o, ho, rfl⟩

end InSequence

/-! ### The message delivered -/

/-- The message with the payload `P` under the header of `ff`, as its callback gets it. -/
def message (ff : FragFrame) (P : Bytes) : Event :=
  if ff.origFrameVer = frameVerV4 then
    .completeBlock
      { msgType := ff.msgType, contentID := ff.txID, hashKey := ff.hashKey, seqNum := ff.seqNum,
        payload := P }
  else if ff.origFrameVer = frameVerV5 then
    .completeSubtree
      { msgType := ff.msgType, subtreeID := ff.txID, hashKey := ff.hashKey, seqNum := ff.seqNum,
        payload := P }
  else
    .complete
      { version := frameVerV2, txID := ff.txID, hashKey := ff.hashKey, seqNum := ff.seqNum,
        subtreeID := ff.subtreeID, payload := P }

instance (cfg : Config) (sha256 : Bytes → Bytes32) (ver : UInt8) (id : Bytes32) (P : Bytes) :
    Decidable (cfg.Verifies sha256 ver id P) := inferInstanceAs (Decidable (_ → _ → _ → _))

/-- A full slot delivers the message under the header of the fragment that opened it. -/
theorem Slot.complete_of_openedBy {cfg : Config} (sha256 : Bytes → Bytes32) {s : Slot}
    {o : Observation} (hreg : cfg.registered s.origFrameVer = true) (h : s.OpenedBy cfg.ttl o) :
    s.complete cfg sha256 =
      if cfg.Verifies sha256 o.2.origFrameVer o.2.txID s.payload then [message o.2 s.payload]
      else [.hashMismatch] := by
  rw [Config.registered] at hreg
  rw [Slot.complete, message, ← h.txID, ← h.subtreeID, ← h.hashKey, ← h.seqNum, ← h.origFrameVer,
    ← h.msgType]
  by_cases hV4 : s.origFrameVer = frameVerV4
  · have hver : cfg.Verifies sha256 s.origFrameVer s.txID s.payload := fun hne => absurd hV4 hne
    rw [if_pos hV4] at hreg
    simp only [if_pos hV4, if_pos hreg, if_pos hver]
  by_cases hV5 : s.origFrameVer = frameVerV5
  · have hver : cfg.Verifies sha256 s.origFrameVer s.txID s.payload := fun _ hne => absurd hV5 hne
    rw [if_neg hV4, if_pos hV5] at hreg
    simp only [if_neg hV4, if_pos hV5, if_pos hreg, if_pos hver]
  · rw [if_neg hV4, if_neg hV5] at hreg
    rw [if_neg hV4, if_neg hV5, if_neg hV4, if_neg hV5, if_pos hreg]
    by_cases hbad : cfg.verifyHash = true ∧ sha256d sha256 s.payload ≠ s.txID
    · rw [if_pos hbad, if_neg fun hver => hbad.2 (hver hV4 hV5 hbad.1)]
    · have hver : cfg.Verifies sha256 s.origFrameVer s.txID s.payload :=
        fun _ _ hverify => not_not.mp fun hne => hbad ⟨hverify, hne⟩
      rw [if_neg hbad, if_pos hver]

end ShardListener.Reassembly
