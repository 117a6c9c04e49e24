import ShardListener.Repeats

/-!
# The Order of the Fragments

The fragments of one message may arrive in any order. The slot takes `SeqNum`, like the other
metadata, from the fragment that opens it, and unlike the other metadata it differs from
fragment to fragment. So the order shows in one place: the message is delivered under the
sequence number of the fragment that came first.

## Main results

* `OneMessage.callbacks_eq`: what the fragments of one message deliver, in any order.
* `order_shows_in_seqNum`: two orders deliver the same, up to the sequence number.
* `order_changes_seqNum`: two orders that deliver different frames.
-/

namespace ShardListener.Reassembly

/-- The fragments `parts` of one message, in the order of their indices: they agree with `hdr` on
everything but the index, the data and the sequence number. -/
structure OneMessage (hdr : FragFrame) (parts : List FragFrame) : Prop where
  agree : ∀ ff ∈ parts, ff =
    { hdr with fragIndex := ff.fragIndex, fragData := ff.fragData, seqNum := ff.seqNum }
  index : ∀ p ∈ parts.zipIdx, p.1.fragIndex.toNat = p.2
  total : hdr.fragTotal.toNat = parts.length

/-- The calls of the completion callbacks among some events. -/
def callbacks (evs : List Event) : List Event := evs.filter fun e => e.delivery.isSome

/-- The same message under another sequence number. -/
def Event.withSeqNum (n : UInt64) : Event → Event
  | .complete f => .complete { f with seqNum := n }
  | .completeBlock bf => .completeBlock { bf with seqNum := n }
  | .completeSubtree sf => .completeSubtree { sf with seqNum := n }
  | e => e

/-- The sequence number of the fragment that comes first. -/
def openingSeqNum (os : List Observation) : UInt64 := (os.head?.map fun o => o.2.seqNum).getD 0

theorem callbacks_append (evs evs' : List Event) :
    callbacks (evs ++ evs') = callbacks evs ++ callbacks evs' := List.filter_append _ _

/-- No callback is called exactly when nothing is delivered. -/
theorem callbacks_eq_nil {evs : List Event} : callbacks evs = [] ↔ deliveries evs = [] := by
  rw [callbacks, deliveries, List.filter_eq_nil_iff, List.filterMap_eq_nil_iff]
  refine forall₂_congr fun e _ => ?_
  rw [Bool.not_eq_true, Option.isSome_eq_false_iff, Option.isNone_iff_eq_none]

/-- The header but the sequence number is the same for all fragments of a message. -/
theorem message_of_agree {hdr ff : FragFrame} (P : Bytes)
    (h : ff = { hdr with
      fragIndex := ff.fragIndex, fragData := ff.fragData, seqNum := ff.seqNum }) :
    message ff P = (message hdr P).withSeqNum ff.seqNum := by
  rw [h]
  rw [message, message]
  by_cases hV4 : hdr.origFrameVer = frameVerV4
  · simp only [if_pos hV4, Event.withSeqNum]
  by_cases hV5 : hdr.origFrameVer = frameVerV5
  · simp only [if_neg hV4, if_pos hV5, Event.withSeqNum]
  · simp only [if_neg hV4, if_neg hV5, Event.withSeqNum]

theorem withSeqNum_withSeqNum (e : Event) (n n' : UInt64) :
    (e.withSeqNum n).withSeqNum n' = e.withSeqNum n' := by
  cases e <;> rfl

/-- What the callbacks get from a full slot. -/
theorem Slot.callbacks_complete {cfg : Config} (sha256 : Bytes → Bytes32) {s : Slot}
    {o : Observation} (h : s.OpenedBy cfg.ttl o) :
    callbacks (s.complete cfg sha256) =
      if cfg.registered s.origFrameVer = true ∧
          cfg.Verifies sha256 s.origFrameVer s.txID s.payload then [message o.2 s.payload]
      else [] := by
  split
  · rename_i hok
    have hver := hok.2
    rw [h.origFrameVer, h.txID] at hver
    rw [Slot.complete_of_openedBy sha256 hok.1 h, if_pos hver, message]
    split
    · rfl
    · split <;> rfl
  · rename_i hbad
    rw [callbacks_eq_nil, Slot.deliveries_complete_eq, if_neg hbad]

section OneMessage

variable {cfg : Config} {sha256 : Bytes → Bytes32} {hdr ff : FragFrame} {parts : List FragFrame}
  {b : Buffer} {es os : List Observation} {o last : Observation}

/-- The metadata of a fragment of the message. -/
theorem OneMessage.get (h : OneMessage hdr parts) {i : ℕ} (hi : parts[i]? = some ff) :
    ff.txID = hdr.txID ∧ ff.fragIndex.toNat = i ∧ ff.fragTotal.toNat = parts.length ∧
      ff.origFrameVer = hdr.origFrameVer ∧ ff.msgType = hdr.msgType := by
  have hagree := h.agree ff (List.mem_of_getElem? hi)
  have hindex := h.index (ff, i) (List.mem_zipIdx_iff_getElem?.mpr hi)
  rw [← h.total]
  refine ⟨?_, hindex, ?_, ?_, ?_⟩
  · rw [hagree]
  · rw [hagree]
  · rw [hagree]
  · rw [hagree]

/-- The buffer takes all fragments of the message or none. -/
theorem OneMessage.rejected_iff (h : OneMessage hdr parts) (hff : ff ∈ parts) :
    Buffer.Rejected ff ↔
      hdr.origPayloadLen = 0 ∨ hdr.origPayloadLen + 1 < hdr.fragTotal.toUInt32 := by
  obtain ⟨i, hi⟩ := List.mem_iff_getElem?.mp hff
  obtain ⟨-, hindex, htotal, -⟩ := h.get hi
  have hlt : i < parts.length := (List.getElem?_eq_some_iff.mp hi).1
  have hrange : ¬ (ff.fragTotal = 0 ∨ ff.fragTotal ≤ ff.fragIndex) := by
    rintro (hzero | hle)
    · rw [hzero] at htotal
      change 0 = _ at htotal
      omega
    · rw [UInt16.le_iff_toNat_le] at hle
      omega
  rw [Buffer.Rejected, or_iff_right hrange, h.agree ff hff]

/-- Fragments that the buffer takes are those of a message. -/
theorem OneMessage.fragmented (h : OneMessage hdr parts)
    (hok : ¬ (hdr.origPayloadLen = 0 ∨ hdr.origPayloadLen + 1 < hdr.fragTotal.toUInt32)) :
    Fragmented hdr.txID (parts.map fun ff => ff.fragData).flatten hdr.origFrameVer hdr.msgType
      parts where
  payload := rfl
  part := fun _ hp => h.get (List.mem_zipIdx_iff_getElem?.mp hp)
  accepted := fun _ hff => mt (h.rejected_iff hff).mp hok

/-! ### Fragments that the buffer does not take -/

/-- A rejected fragment without a slot opens none and delivers nothing. -/
theorem untaken_step (hsound : b.Sound) (hnone : b.slots.lookup o.2.txID = none)
    (hrej : Buffer.Rejected o.2) :
    (step cfg sha256 b o).1.slots.lookup o.2.txID = none ∧
      deliveries (step cfg sha256 b o).2 = [] := by
  have hfor : b.slotFor cfg o.1 o.2 = none := Buffer.slotFor_of_rejected o.1 hnone hrej
  constructor
  · rw [step, Buffer.lookup_observe_self hsound, hfor]
    rfl
  · rw [step, Buffer.deliveries_observe hsound, hfor]
    rfl

/-- Any number of rejected fragments without a slot deliver nothing. -/
theorem untaken_run {id : Bytes32} (hsound : b.Sound) (hnone : b.slots.lookup id = none)
    (hos : ∀ o ∈ os, o.2.txID = id ∧ Buffer.Rejected o.2) :
    deliveries (Machine.outputs (step cfg sha256) b os) = [] := by
  induction os generalizing b with
  | nil => rfl
  | cons o os ih =>
      obtain ⟨hid, hrej⟩ := hos o List.mem_cons_self
      subst hid
      obtain ⟨hnone', hdel⟩ := untaken_step hsound hnone hrej
      rw [Machine.outputs, deliveries_append, hdel, List.nil_append]
      exact ih (sound_step hsound o) hnone' fun o' ho' => hos o' (List.mem_cons_of_mem _ ho')

/-! ### Fragments that the buffer takes -/

/-- Fragments of one id deliver nothing but messages of that id. -/
theorem deliveries_eq_nil_of_deliveriesTo {id : Bytes32} (hsound : b.Sound)
    (hids : ∀ o ∈ es, o.2.txID = id)
    (h : deliveriesTo id (Machine.outputs (step cfg sha256) b es) = []) :
    deliveries (Machine.outputs (step cfg sha256) b es) = [] := by
  induction es generalizing b with
  | nil => rfl
  | cons o es ih =>
      rw [Machine.outputs, deliveriesTo_append, List.append_eq_nil_iff] at h
      rw [Machine.outputs, deliveries_append, ih (sound_step hsound o)
        (fun o' ho' => hids o' (List.mem_cons_of_mem _ ho')) h.2, List.append_nil,
        deliveries, List.filterMap_eq_nil_iff]
      intro e he
      by_contra hsome
      obtain ⟨⟨id', payload⟩, hd⟩ := Option.ne_none_iff_exists'.mp hsome
      obtain rfl := (delivery_id hsound he hd).symm.trans (hids o List.mem_cons_self)
      have hmem : payload ∈ deliveriesTo id' (step cfg sha256 b o).2 :=
        List.mem_filterMap.mpr ⟨_, List.mem_filterMap.mpr ⟨e, he, hd⟩, if_pos rfl⟩
      rw [h.1] at hmem
      cases hmem

/-- While its slot is kept, the history of a message is everything that came for it. -/
theorem history_run {id : Bytes32} {P : Bytes} {ver msgType : UInt8}
    (hparts : Fragmented id P ver msgType parts) (hsound : b.Sound)
    (hnone : b.slots.lookup id = none)
    (hkeep : Machine.Guarded (Machine.next (step cfg sha256)) (Retained cfg id) b es)
    (honly : ∀ o ∈ es, o.2 ∈ parts) (hmissing : ∃ ff ∈ parts, ∀ o ∈ es, o.2 ≠ ff) :
    (Machine.run (Machine.withGhost (Machine.next (step cfg sha256)) (follow id)) (b, []) es).2 =
      es := by
  induction es using List.reverseRecOn with
  | nil => rfl
  | append_singleton es e ih =>
      obtain ⟨hkeep', hlast⟩ := Machine.guarded_snoc.mp hkeep
      obtain ⟨ff, hff, hne⟩ := hmissing
      have hmissing' : ∃ ff ∈ parts, ∀ o ∈ es, o.2 ≠ ff :=
        ⟨ff, hff, fun o ho => hne o (List.mem_append_left _ ho)⟩
      have honly' : ∀ o ∈ es, o.2 ∈ parts := fun o ho => honly o (List.mem_append_left _ ho)
      obtain ⟨hprog, -⟩ := inProgress_run hparts hsound hnone es hkeep'
        (fun o ho _ => honly' o ho) hmissing'
      rw [← Machine.run_withGhost (follow id) []] at hlast
      rw [Machine.run_snoc]
      exact hprog.follow (ih hkeep' honly' hmissing') hlast fun o ho =>
        (hparts.get (hparts.getElem?_of_mem (honly' o ho))).1

/-- **The last fragment** delivers the message under the header of the first, whatever the
order in between. -/
theorem callbacks_last {id : Bytes32} {P : Bytes} {ver msgType : UInt8}
    (hparts : Fragmented id P ver msgType parts) (hsound : b.Sound)
    (hnone : b.slots.lookup id = none)
    (hkeep : Machine.Guarded (Machine.next (step cfg sha256)) (Retained cfg id) b (es ++ [last]))
    (hperm : ((es ++ [last]).map Prod.snd).Perm parts) :
    ∃ first ∈ (es ++ [last]).head?,
      callbacks (Machine.outputs (step cfg sha256) b (es ++ [last])) =
        if cfg.registered ver = true ∧ cfg.Verifies sha256 ver id P then [message first.2 P]
        else [] := by
  obtain ⟨hkeep', hlast⟩ := Machine.guarded_snoc.mp hkeep
  have honly : ∀ o ∈ es ++ [last], o.2 ∈ parts := fun o ho =>
    hperm.mem_iff.mp (List.mem_map_of_mem ho)
  have honly' : ∀ o ∈ es, o.2 ∈ parts := fun o ho => honly o (List.mem_append_left _ ho)
  have hids : ∀ o ∈ es, o.2.txID = id := fun o ho =>
    (hparts.get (hparts.getElem?_of_mem (honly' o ho))).1
  -- the last fragment has not come before
  have hnodup := hperm.nodup_iff.mpr hparts.nodup
  rw [List.map_append, List.nodup_append] at hnodup
  have hmissing : ∃ ff ∈ parts, ∀ o ∈ es, o.2 ≠ ff :=
    ⟨last.2, honly last (by simp), fun o ho =>
      hnodup.2.2 o.2 (List.mem_map_of_mem ho) last.2 (by simp)⟩
  have harr : Arrives id parts es last [] := by
    refine ⟨fun o ho _ => honly o ho, ?_, hmissing, fun _ ho => nomatch ho⟩
    intro ff hff
    exact List.mem_map.mp (hperm.mem_iff.mpr hff)
  obtain ⟨hprog, hdel⟩ := inProgress_run hparts hsound hnone es hkeep'
    (fun o ho _ => honly' o ho) hmissing
  have hhist := history_run hparts hsound hnone hkeep' honly' hmissing
  rw [← Machine.run_withGhost (follow id) []] at hlast
  obtain ⟨s, s', hfor, hfilled, rfl, rfl, rfl, hdated⟩ := hprog.filled_last hparts harr hlast
  rw [hprog.follow hhist hlast hids] at hdated
  obtain ⟨first, hfirst, hopened⟩ := hdated.opened
  refine ⟨first, hfirst, ?_⟩
  rw [Machine.outputs_snoc, callbacks_append,
    callbacks_eq_nil.mpr (deliveries_eq_nil_of_deliveriesTo hsound hids hdel), List.nil_append]
  have hsound' := hprog.sound
  rw [Machine.run_withGhost] at hfor hsound'
  obtain ⟨evs, hevs, heq⟩ := @Buffer.observe_events cfg sha256 _ last.1 last.2 hsound'
  rw [step, heq, hfor, Option.bind_some, hfilled, callbacks_append, callbacks_eq_nil.mpr hevs]
  exact Slot.callbacks_complete sha256 hopened

variable (sha256) in
/-- **What the fragments of one message deliver**, in any order: nothing, or the message under
the sequence number of the fragment that came first. -/
theorem OneMessage.callbacks_eq (h : OneMessage hdr parts) (hsound : b.Sound)
    (hnone : b.slots.lookup hdr.txID = none)
    (hkeep : Machine.Guarded (Machine.next (step cfg sha256)) (Retained cfg hdr.txID) b os)
    (hperm : (os.map Prod.snd).Perm parts) :
    callbacks (Machine.outputs (step cfg sha256) b os) =
      if parts ≠ [] ∧ ¬ (hdr.origPayloadLen = 0 ∨
            hdr.origPayloadLen + 1 < hdr.fragTotal.toUInt32) ∧
          cfg.registered hdr.origFrameVer = true ∧
          cfg.Verifies sha256 hdr.origFrameVer hdr.txID
            (parts.map fun ff => ff.fragData).flatten then
        [(message hdr (parts.map fun ff => ff.fragData).flatten).withSeqNum (openingSeqNum os)]
      else [] := by
  by_cases hok : hdr.origPayloadLen = 0 ∨ hdr.origPayloadLen + 1 < hdr.fragTotal.toUInt32
  · rw [if_neg fun hc => hc.2.1 hok, callbacks_eq_nil]
    refine untaken_run hsound hnone ?_
    intro o ho
    have hmem : o.2 ∈ parts := hperm.mem_iff.mp (List.mem_map_of_mem ho)
    obtain ⟨i, hi⟩ := List.mem_iff_getElem?.mp hmem
    exact ⟨(h.get hi).1, (h.rejected_iff hmem).mpr hok⟩
  · rcases List.eq_nil_or_concat' os with rfl | ⟨es, last, rfl⟩
    · rw [List.map_nil, List.nil_perm] at hperm
      rw [if_neg fun hc => hc.1 hperm]
      rfl
    · have hne : parts ≠ [] := by
        rintro rfl
        simpa using hperm.length_eq
      obtain ⟨first, hfirst, hcall⟩ := callbacks_last (h.fragmented hok) hsound hnone hkeep hperm
      have hmem : first.2 ∈ parts :=
        hperm.mem_iff.mp (List.mem_map_of_mem (List.mem_of_mem_head? hfirst))
      have hopening : openingSeqNum (es ++ [last]) = first.2.seqNum := by
        rw [openingSeqNum, hfirst]
        rfl
      rw [hcall, message_of_agree _ (h.agree first.2 hmem), hopening]
      simp only [hne, hok, ne_eq, not_false_eq_true, true_and]

end OneMessage

/-- **The order shows in the sequence number only.** Two orders of the fragments of one message,
taken to the same buffer without giving up the slot of the message, call the same callbacks
with the same frames, but for the sequence number: it is that of the fragment that came
first. -/
theorem order_shows_in_seqNum (cfg : Config) (sha256 : Bytes → Bytes32)
    (pre os os' : List Observation) (hdr : FragFrame) (parts : List FragFrame)
    (h : OneMessage hdr parts) (hnone : (after cfg sha256 pre).slots.lookup hdr.txID = none)
    (hperm : (os.map Prod.snd).Perm parts) (hperm' : (os'.map Prod.snd).Perm parts)
    (hkeep : Machine.Guarded (Machine.next (step cfg sha256)) (Retained cfg hdr.txID)
      (after cfg sha256 pre) os)
    (hkeep' : Machine.Guarded (Machine.next (step cfg sha256)) (Retained cfg hdr.txID)
      (after cfg sha256 pre) os') :
    callbacks (Machine.outputs (step cfg sha256) (after cfg sha256 pre) os) =
      (callbacks (Machine.outputs (step cfg sha256) (after cfg sha256 pre) os')).map
        (Event.withSeqNum (openingSeqNum os)) := by
  have hsound := sound_after cfg sha256 pre
  rw [h.callbacks_eq sha256 hsound hnone hkeep hperm,
    h.callbacks_eq sha256 hsound hnone hkeep' hperm']
  split
  · rw [List.map_singleton, withSeqNum_withSeqNum]
  · rfl

/-! Two fragments of a subtree with the sequence numbers 1 and 2. -/

/-- Fragment `i` of two, with the sequence number `i + 1`. -/
def numberedFrag (i : UInt16) (data : Bytes) : FragFrame :=
  { subtreeFrag 1 i data with seqNum := i.toUInt64 + 1 }

/-- **The order changes the frame.** The same two fragments are delivered under the sequence
number 1 or 2, depending on which comes first. -/
theorem order_changes_seqNum :
    callbacks (Machine.outputs (step testConfig fun _ => Bytes32.ofByte 0) .new
      [(0, numberedFrag 0 [0xA0]), (1, numberedFrag 1 [0xA1])]) =
        [.completeSubtree ⟨1, Bytes32.ofByte 7, 1, 1, [0xA0, 0xA1]⟩] ∧
    callbacks (Machine.outputs (step testConfig fun _ => Bytes32.ofByte 0) .new
      [(0, numberedFrag 1 [0xA1]), (1, numberedFrag 0 [0xA0])]) =
        [.completeSubtree ⟨1, Bytes32.ofByte 7, 1, 2, [0xA0, 0xA1]⟩] := by
  decide

theorem order_shows_in_seqNum_pair :
    callbacks (Machine.outputs (step testConfig fun _ => Bytes32.ofByte 0)
        (after testConfig (fun _ => Bytes32.ofByte 0) [])
        [(0, numberedFrag 1 [0xA1]), (1, numberedFrag 0 [0xA0])]) =
      (callbacks (Machine.outputs (step testConfig fun _ => Bytes32.ofByte 0)
        (after testConfig (fun _ => Bytes32.ofByte 0) [])
        [(0, numberedFrag 0 [0xA0]), (1, numberedFrag 1 [0xA1])])).map
        (Event.withSeqNum 2) := by
  refine order_shows_in_seqNum testConfig (fun _ => Bytes32.ofByte 0) []
    [(0, numberedFrag 1 [0xA1]), (1, numberedFrag 0 [0xA0])]
    [(0, numberedFrag 0 [0xA0]), (1, numberedFrag 1 [0xA1])] (numberedFrag 0 [])
    [numberedFrag 0 [0xA0], numberedFrag 1 [0xA1]] ?_ rfl ?_ ?_ ?_ ?_
  · exact ⟨by decide, by decide, rfl⟩
  · exact .swap _ _ _
  · exact .refl _
  · decide
  · decide

end ShardListener.Reassembly
