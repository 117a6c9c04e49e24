import ShardListener.SlotTrace

/-!
# Independent Messages

The messages in a reassembly buffer share its room and its clock. A fragment of one message gives
up the slots of others: those that have expired, and the oldest one if the buffer is full. The
first makes no difference to a message, since its own next fragment would find the slot expired
as well. So as long as the slot of a message is not given up for want of room, everything that
happens to other messages can be left out, and the ticks too.

Two buffers are compared by what a call at some time would find (`Buffer.visible`): a slot that
has expired but is still there is as good as none.

## Main results

* `Buffer.visible_operate`: what a call that does not concern a message leaves visible of it.
* `Buffer.messages_independent`: what is delivered for a message depends on its own fragments.
-/

namespace ShardListener.Reassembly

/-- The time of a call, if it reads the clock. -/
def BufferOp.time? : BufferOp → Option Time
  | .observe now _ | .tick now => some now
  | .purge => none

/-- A fragment of the message, or a call that gives up all slots. -/
def BufferOp.concerns (id : Bytes32) : BufferOp → Bool
  | .observe _ ff => ff.txID = id
  | .tick _ => false
  | .purge => true

/-- What is delivered for `id`. -/
def messagesOf (id : Bytes32) (evs : List Event) : List Event :=
  evs.filter fun e => e.delivery.any fun d => d.1 = id

/-- What is delivered for `id`, part by part. -/
theorem messagesOf_append (id : Bytes32) (evs evs' : List Event) :
    messagesOf id (evs ++ evs') = messagesOf id evs ++ messagesOf id evs' := List.filter_append ..

/-- Events that deliver nothing deliver nothing for `id`. -/
theorem messagesOf_eq_nil {id : Bytes32} {evs : List Event} (h : deliveries evs = []) :
    messagesOf id evs = [] := by
  refine List.filter_eq_nil_iff.mpr fun e he => ?_
  rw [List.filterMap_eq_nil_iff.mp h e he]
  exact Bool.false_ne_true

namespace Buffer

variable {cfg : Config} {sha256 : Bytes → Bytes32} {b b' : Buffer} {id : Bytes32} {now : Time}
  {ff : FragFrame}

/-- The slot of `id` that a call at `now` finds. -/
def visible (b : Buffer) (id : Bytes32) (now : Time) : Option Slot :=
  (b.slots.lookup id).filter fun s => now ≤ s.deadline

/-- Expiry leaves what is visible. -/
theorem Sound.lookup_evictExpired (h : b.Sound) (id : Bytes32) (now : Time) :
    (b.evictExpired now).1.slots.lookup id = b.visible id now := by
  rw [Buffer.lookup_evictExpired, visible]
  split_ifs with hmem
  · rfl
  · cases hs : b.slots.lookup id with
    | none => rfl
    | some s => exact absurd (h.listed id s hs) hmem

/-- Once expired slots have been given up, the later calls find the same. -/
theorem visible_of_lookup {now' : Time} (hle : now ≤ now')
    (h : b'.slots.lookup id = b.visible id now) : b'.visible id now' = b.visible id now' := by
  rw [visible, h, visible, Option.filter_filter, visible]
  congr 1
  funext s
  rw [Bool.eq_iff_iff]
  simp only [Bool.and_eq_true, decide_eq_true_eq]
  exact ⟨fun hs => hs.2, fun hs => ⟨hle.trans hs, hs⟩⟩

/-- The call does not give up the slot of `id` for want of room. -/
def Spares (cfg : Config) (id : Bytes32) (b : Buffer) : BufferOp → Prop
  | .observe now ff => (b.clear cfg now ff).slots.lookup id = (b.evictExpired now).1.slots.lookup id
  | _ => True

instance (cfg : Config) (id : Bytes32) (b : Buffer) : DecidablePred (Spares cfg id b)
  | .observe _ _ => inferInstanceAs (Decidable (_ = _))
  | .tick _ | .purge => inferInstanceAs (Decidable True)

/-- **The other calls**: they deliver nothing for the message, and from then on they make no
difference to what is found of it. -/
theorem visible_operate (sha256 : Bytes → Bytes32) (h : b.Sound) {op : BufferOp}
    (hop : op.concerns id = false) (hspare : Spares cfg id b op) :
    messagesOf id (b.operate cfg sha256 op).2 = [] ∧
      ∀ now, (∀ t ∈ op.time?, t ≤ now) →
        (b.operate cfg sha256 op).1.visible id now = b.visible id now := by
  cases op with
  | observe t ff =>
      have hne : ff.txID ≠ id := of_decide_eq_false hop
      refine ⟨?_, fun now hle => visible_of_lookup (hle t rfl) ?_⟩
      · refine List.filter_eq_nil_iff.mpr fun e he => ?_
        cases hd : e.delivery with
        | none => exact Bool.false_ne_true
        | some d =>
            have hid : ff.txID = d.1 := delivery_id (o := (t, ff)) h he hd
            simp [← hid, hne]
      · rw [operate, lookup_observe_of_ne h (Ne.symm hne)]
        exact hspare.trans (h.lookup_evictExpired id t)
  | tick t =>
      refine ⟨messagesOf_eq_nil deliveries_evictExpired, fun now hle => ?_⟩
      exact visible_of_lookup (hle t rfl) (h.lookup_evictExpired id t)
  | purge => cases hop

/-- A fragment meets the slot that is visible. -/
theorem slotFor_congr (cfg : Config) (h : b.Sound) (h' : b'.Sound)
    (hvis : b.visible ff.txID now = b'.visible ff.txID now) :
    b.slotFor cfg now ff = b'.slotFor cfg now ff := by
  rw [slotFor, slotFor, h.lookup_evictExpired, h'.lookup_evictExpired, hvis]

/-- **The calls for the message** deliver the same, and leave the same slot, wherever they find
the same. -/
theorem operate_congr (cfg : Config) (sha256 : Bytes → Bytes32) (h : b.Sound) (h' : b'.Sound)
    {op : BufferOp} (hop : op.concerns id = true)
    (hvis : ∀ t ∈ op.time?, b.visible id t = b'.visible id t) :
    messagesOf id (b.operate cfg sha256 op).2 = messagesOf id (b'.operate cfg sha256 op).2 ∧
      (b.operate cfg sha256 op).1.slots.lookup id =
        (b'.operate cfg sha256 op).1.slots.lookup id := by
  cases op with
  | observe t ff =>
      obtain rfl : ff.txID = id := of_decide_eq_true hop
      have hfor := slotFor_congr cfg h h' (hvis t rfl)
      obtain ⟨evs, hevs, heq⟩ := @observe_events cfg sha256 b t ff h
      obtain ⟨evs', hevs', heq'⟩ := @observe_events cfg sha256 b' t ff h'
      rw [operate, operate, lookup_observe_self h, lookup_observe_self h', heq, heq',
        messagesOf_append, messagesOf_append, messagesOf_eq_nil hevs, messagesOf_eq_nil hevs', hfor]
      exact ⟨rfl, rfl⟩
  | tick t => cases hop
  | purge =>
      have hnone : ∀ b : Buffer, messagesOf id b.purge.2 = [] := by
        intro b
        refine messagesOf_eq_nil (List.filterMap_eq_nil_iff.mpr fun e he => ?_)
        rw [List.eq_of_mem_replicate he]
        rfl
      exact ⟨(hnone b).trans (hnone b').symm, rfl⟩

/-- **Messages do not influence each other.** Take any calls of a buffer, whose clock does not go
back, and a message whose slot is never given up for want of room. What is delivered for it is
what would be delivered if the buffer had been given its fragments alone, without the fragments
of other messages and without ticks; and any later call finds the same slot of it. -/
theorem messages_independent (cfg : Config) (sha256 : Bytes → Bytes32) (id : Bytes32)
    (ops : List BufferOp) (hclock : (ops.filterMap BufferOp.time?).Pairwise (· ≤ ·))
    (hspare : Machine.Guarded (Machine.next (operate cfg sha256)) (Spares cfg id) new ops) :
    let own := ops.filter (BufferOp.concerns id)
    messagesOf id (Machine.outputs (operate cfg sha256) new ops) =
        messagesOf id (Machine.outputs (operate cfg sha256) new own) ∧
      ∀ now, (∀ t ∈ ops.filterMap BufferOp.time?, t ≤ now) →
        (run cfg sha256 ops).visible id now = (run cfg sha256 own).visible id now := by
  induction ops using List.reverseRecOn with
  | nil => exact ⟨rfl, fun _ _ => rfl⟩
  | append_singleton ops op ih =>
      have htime : ∀ t ∈ op.time?, t ∈ [op].filterMap BufferOp.time? := fun t ht =>
        List.mem_filterMap.mpr ⟨op, List.mem_singleton_self op, ht⟩
      rw [List.filterMap_append, List.pairwise_append] at hclock
      obtain ⟨hspare, hop⟩ := Machine.guarded_snoc.mp hspare
      obtain ⟨hmsgs, hvis⟩ := ih hclock.1 hspare
      have hsound : (run cfg sha256 ops).Sound := sound_run ops
      have hsound' : (run cfg sha256 (ops.filter (BufferOp.concerns id))).Sound := sound_run _
      rw [List.filter_append, List.filter_singleton, List.filterMap_append, Machine.outputs_snoc,
        messagesOf_append, hmsgs, run_snoc]
      cases hcon : op.concerns id with
      | false =>
          -- the call is left out on the right
          obtain ⟨hnone, hsame⟩ := visible_operate sha256 hsound hcon hop
          rw [cond_false, List.append_nil]
          refine ⟨(congrArg _ hnone).trans (List.append_nil _), fun now hlate => ?_⟩
          rw [hsame now fun t ht => hlate t (List.mem_append_right _ (htime t ht))]
          exact hvis now fun t ht => hlate t (List.mem_append_left _ ht)
      | true =>
          have hlate : ∀ t ∈ op.time?, ∀ t' ∈ ops.filterMap BufferOp.time?, t' ≤ t :=
            fun t ht t' ht' => hclock.2.2 t' ht' t (htime t ht)
          obtain ⟨hout, hlook⟩ := operate_congr cfg sha256 hsound hsound' hcon
            fun t ht => hvis t (hlate t ht)
          rw [cond_true]
          dsimp only
          rw [Machine.outputs_snoc, messagesOf_append, run_snoc]
          refine ⟨congrArg _ hout, fun now _ => ?_⟩
          rw [visible, visible, hlook]

/-- Two messages interleaved, with a tick between the fragments of the first one. -/
theorem messages_independent_pair :
    let sha256 := fun _ : Bytes => Bytes32.ofByte 0
    let other := { subtreeFrag 1 0 [0xB0] with txID := Bytes32.ofByte 8 }
    messagesOf (Bytes32.ofByte 7) (Machine.outputs (operate testConfig sha256) new
        [.observe 0 (subtreeFrag 1 0 [0xA0]), .observe 1 other, .tick 2,
          .observe 3 (subtreeFrag 1 1 [0xA1])]) =
      messagesOf (Bytes32.ofByte 7) (Machine.outputs (operate testConfig sha256) new
        [.observe 0 (subtreeFrag 1 0 [0xA0]), .observe 3 (subtreeFrag 1 1 [0xA1])]) :=
  (messages_independent testConfig _ (Bytes32.ofByte 7) _ (by decide) (by decide)).1

end Buffer

end ShardListener.Reassembly
