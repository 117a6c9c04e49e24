import Mathlib.Data.List.Flatten
import ShardListener.Streams

/-!
# What Becomes of a Datagram

Every datagram a worker reads has one fate, and the counters tell which: it could not be
decoded, it was a fragment and went to the reassembly buffer, or it was a frame. A frame, read
from the socket or completed by the buffer, has one fate too: its payload hash was wrong, the
filter dropped it, it was a duplicate, or it was handed to unicast egress, which worked or did
not.

The counters are grouped by what they say (`Metric.entries`, `Metric.exits`, `Metric.readings`),
and each equation is proved for one step of the first stage. There a parcel already has the value
of what the second stage will count for it (`Outlet.sum_emit_exits`).

## Main results

* `Worker.datagrams_accounted`, `Worker.frames_accounted`: the two equations, over any run.
* `Worker.suppression_transparent`: the duplicate set changes nothing but the egress streams of
  frames, from which it takes one transaction for every duplicate counted.
-/

namespace ShardListener

/-! ### The counters -/

/-- The event an effect counts. -/
def Effect.metric? : Effect → Option Metric
  | .count m => some m
  | _ => none

/-- How often an event was counted in some effects. -/
def counted (effects : List Effect) (m : Metric) : ℕ := (effects.filterMap Effect.metric?).count m

/-- A frame has come in: from the socket, or from the reassembly buffer. -/
def Metric.entries : List Metric :=
  [.frameReceived .brc12, .frameReceived .brc124, .frameReceived .brc131, .frameReceived .brc132,
    .reassemblyCompleted]

/-- A frame has been dealt with, by a worker whose unicast egress is labelled `proto`. -/
def Metric.exits (proto : Proto) : List Metric :=
  [.frameInvalidPayload, .frameDropped .shardFilter, .frameDropped .subtreeExclude,
    .frameDropped .subtreeIncludeMiss, .frameDeduped, .frameForwarded (.unicast proto),
    .egressError]

/-- A datagram was not one for the reassembly buffer. -/
def Metric.readings : List Metric :=
  [.frameReceived .brc12, .frameReceived .brc124, .frameReceived .brc131, .frameReceived .brc132,
    .frameDropped .decodeError, .frameDropped .noReassemblyBuffer, .frameDropped .fragDecodeError]

/-- How often the events of a list were counted. -/
def total (ms : List Metric) (effects : List Effect) : ℕ := (ms.map (counted effects)).sum

/-- What an effect adds to the total. -/
def Effect.weigh (ms : List Metric) : Effect → ℕ
  | .count m => ms.count m
  | _ => 0

/-- What an item of the first stage adds to the total. -/
def Item.weigh (ms : List Metric) (parcel : ℕ) : Item → ℕ
  | .count m => ms.count m
  | .parcel _ => parcel
  | .call _ => 0

/-- The total of a list of events, one event at a time. -/
theorem Effect.weigh_cons (m : Metric) (ms : List Metric) :
    Effect.weigh (m :: ms) = fun e => Effect.weigh ms e + Effect.weigh [m] e := by
  funext e
  cases e with
  | count m' => simp [Effect.weigh, List.count_cons]
  | _ => rfl

/-- A count as a total. -/
theorem counted_eq_sum (effects : List Effect) (m : Metric) :
    counted effects m = (effects.map (Effect.weigh [m])).sum := by
  induction effects with
  | nil => rfl
  | cons e effects ih =>
      rw [List.map_cons, List.sum_cons, ← ih]
      cases e with
      | count m' =>
          by_cases h : m' = m
          · simp [counted, Effect.metric?, Effect.weigh, h, add_comm]
          · simp [counted, Effect.metric?, Effect.weigh, h, Ne.symm h]
      | _ => exact (Nat.zero_add _).symm

/-- Totals can be taken effect by effect. -/
theorem total_eq_sum (ms : List Metric) (effects : List Effect) :
    total ms effects = (effects.map (Effect.weigh ms)).sum := by
  induction ms with
  | nil =>
      refine (List.sum_eq_zero ?_).symm
      intro n hn
      obtain ⟨e, -, rfl⟩ := List.mem_map.mp hn
      cases e <;> rfl
  | cons m ms ih =>
      rw [Effect.weigh_cons, List.sum_map_add, ← counted_eq_sum, ← ih]
      exact Nat.add_comm _ _

/-! ### The second stage -/

namespace Outlet

variable {cfg : WorkerConfig} {o : Outlet} {net : Net} {ms : List Metric}

/-- Header egress adds nothing, if its own events are not in the list. -/
theorem sum_header
    (hheader : ∀ ok : Bool, ms.count (if ok then .headerForwarded else .headerEgressError) = 0)
    (bf : BlockFrame) : ((o.header cfg net bf).2.map (Effect.weigh ms)).sum = 0 := by
  have huni (buf : Bytes) : ((o.headerUnicast net buf).2.map (Effect.weigh ms)).sum = 0 := by
    rw [headerUnicast]
    cases o.headerEgr <;> simp [Effect.weigh, hheader]
  have hmulti (buf : Bytes) : ((o.headerMulticast net buf).map (Effect.weigh ms)).sum = 0 := by
    rw [headerMulticast]
    cases o.headerMCastEgr <;> simp [Effect.weigh, hheader]
  rw [header]
  cases headerFrame cfg bf with
  | none => rfl
  | some buf => rw [List.map_append, List.sum_append, huni, hmulti]

/-- What a parcel adds to a total that leaves out multicast and header egress. -/
theorem sum_emit {n : ℕ}
    (huni : ∀ ok : Bool, ms.count (if ok then .frameForwarded (.unicast o.egr.proto)
      else .egressError) = n)
    (hmulti : ∀ ok : Bool, ms.count (if ok then .frameForwarded .udpMcast
      else .mcEgressError) = 0)
    (hheader : ∀ ok : Bool, ms.count (if ok then .headerForwarded else .headerEgressError) = 0)
    (p : Parcel) : ((o.emit cfg net p).2.map (Effect.weigh ms)).sum = n := by
  have hunicast (raw payload : Bytes) :
      ((o.unicast net raw payload).2.map (Effect.weigh ms)).sum = n := by
    simp [unicast, Effect.weigh, huni]
  cases p with
  | transaction raw f groupIdx =>
      rw [emit, List.map_append, List.sum_append, hunicast, multicast]
      cases o.mcastEgr <;> simp [Effect.weigh, hmulti]
  | block raw bf =>
      rw [emit, List.map_append, List.sum_append, hunicast, sum_header hheader, Nat.add_zero]
  | subtreeData raw sf => exact hunicast raw sf.payload

/-- No frame enters by being sent. -/
theorem sum_emit_entries (p : Parcel) :
    ((o.emit cfg net p).2.map (Effect.weigh Metric.entries)).sum = 0 := by
  refine sum_emit ?_ ?_ ?_ p <;> rintro (_ | _) <;> rfl

/-- Emitting a parcel counts no datagram. -/
theorem sum_emit_readings (p : Parcel) :
    ((o.emit cfg net p).2.map (Effect.weigh Metric.readings)).sum = 0 := by
  refine sum_emit ?_ ?_ ?_ p <;> rintro (_ | _) <;> rfl

/-- A frame that is sent is dealt with, once. -/
theorem sum_emit_exits (p : Parcel) :
    ((o.emit cfg net p).2.map (Effect.weigh (Metric.exits o.egr.proto))).sum = 1 := by
  refine sum_emit ?_ ?_ ?_ p <;> rintro (_ | _) <;> simp [Metric.exits]

end Outlet

namespace Worker

variable {cfg : WorkerConfig}

/-- A total over a run can be taken from the items of the first stage. -/
theorem total_outputs {ms : List Metric} {n : ℕ} {w : Worker}
    (hemit : ∀ o net p, o.egr.proto = w.egr.proto →
      ((Outlet.emit cfg o net p).2.map (Effect.weigh ms)).sum = n) (ops : List Op) :
    total ms (Machine.outputs (step cfg) w ops) =
      ((Machine.outputs (Intake.step cfg) w.intake (ops.map Op.intake)).map
        (Item.weigh ms n)).sum := by
  rw [total_eq_sum, (two_stages w ops).2.2, ← Intake.map_outputs_deal, List.map_map]
  refine Machine.sum_outputs (P := fun d => d.outlet.egr.proto = w.egr.proto) ?_ ?_ rfl _
  · rintro d ⟨net, item⟩ hd
    cases item with
    | count m => exact hd
    | parcel p => exact (Outlet.emit_sameSetup p).proto.trans hd
    | call c => exact hd
  · rintro d ⟨net, item⟩ hd
    cases item with
    | count m => exact Nat.add_zero _
    | parcel p => exact hemit d.outlet net p hd
    | call c => rfl

end Worker

/-! ### The first stage -/

/-- The encoders succeed on a buffer of the right length. -/
structure Codec.Encodes (c : Codec) : Prop where
  transaction : ∀ f, (c.encode f (headerSize + f.payload.length)).isSome
  block : ∀ bf, (c.encodeBlock bf (headerSize + bf.payload.length)).isSome
  subtreeData : ∀ sf, (c.encodeSubtreeData sf (headerSize + sf.payload.length)).isSome

/-- The ways in which a frame can be dealt with. -/
inductive Fate : List Item → Prop
  | invalid : Fate [.count .frameInvalidPayload]
  | shardFilter : Fate [.count (.frameDropped .shardFilter)]
  | subtreeExclude : Fate [.count (.frameDropped .subtreeExclude)]
  | subtreeIncludeMiss : Fate [.count (.frameDropped .subtreeIncludeMiss)]
  | duplicate (c : Call) : Fate [.count .frameDeduped, .call c]
  | passed (p : Parcel) (cs : List Call) : Fate (.parcel p :: cs.map .call)

/-- Reports to the tracker add nothing. -/
theorem sum_calls (ms : List Metric) (n : ℕ) (cs : List Call) :
    ((cs.map Item.call).map (Item.weigh ms n)).sum = 0 := by
  induction cs with
  | nil => rfl
  | cons c cs ih => exact (Nat.zero_add _).trans ih

namespace Fate

variable {items : List Item}

/-- A fate counts no frame that comes in. -/
theorem sum_entries (h : Fate items) : (items.map (Item.weigh Metric.entries 0)).sum = 0 := by
  cases h with
  | passed p cs => exact (Nat.zero_add _).trans (sum_calls _ _ cs)
  | _ => rfl

/-- A fate counts no datagram. -/
theorem sum_readings (h : Fate items) : (items.map (Item.weigh Metric.readings 0)).sum = 0 := by
  cases h with
  | passed p cs => exact (Nat.zero_add _).trans (sum_calls _ _ cs)
  | _ => rfl

/-- A fate counts one frame that has been dealt with. -/
theorem sum_exits (h : Fate items) (proto : Proto) :
    (items.map (Item.weigh (Metric.exits proto) 1)).sum = 1 := by
  cases h with
  | passed p cs => exact congrArg (1 + ·) (sum_calls _ _ cs)
  | _ => simp [Item.weigh, Metric.exits]

end Fate

/-- A frame is dropped by the filter for one of its own reasons. -/
theorem Filter.fate_of_allow {f : Filter} {now : GroupClock} {groupIdx : UInt32} {fr : Frame}
    {reason : DropReason} (h : f.allow now groupIdx fr = some reason) :
    Fate [.count (.frameDropped reason)] := by
  rw [allow] at h
  split at h
  · cases h
    exact .shardFilter
  · split at h
    · cases h
      exact .subtreeExclude
    · split at h
      · dsimp only at h
        split at h
        · cases h
          exact .subtreeIncludeMiss
        · exact absurd h.symm (Option.some_ne_none _)
      · exact absurd h.symm (Option.some_ne_none _)

namespace Intake

variable {cfg : WorkerConfig} {i : Intake} {r : Readings}

/-- A message for the senders, reported if it is stamped. -/
theorem fate_report (p : Parcel) (seqNum : UInt64) (groupIdx : UInt32) (subtreeID : Bytes32)
    (hashKey : UInt64) :
    Fate (.parcel p :: report seqNum (r.observe groupIdx subtreeID hashKey seqNum)) := by
  rw [report]
  split
  · exact .passed p [_]
  · exact .passed p []

/-- **A frame from the socket has one fate.** -/
theorem transaction_fate (raw : Bytes) (f : Frame) :
    ∃ items, Fate items ∧ (i.transaction cfg raw f r).2 =
      .count (.frameReceived (if f.version = frameVerV2 then .brc124 else .brc12)) :: items := by
  rw [transaction]
  split
  · exact ⟨_, .invalid, rfl⟩
  · dsimp only
    cases hallow : i.filt.allow r.filterNow (cfg.codec.groupIndex f.txID) f with
    | some reason => exact ⟨_, Filter.fate_of_allow hallow, rfl⟩
    | none =>
        dsimp only
        split
        · exact ⟨_, .duplicate _, rfl⟩
        · split
          · exact ⟨_, fate_report _ _ _ _ _, rfl⟩
          · exact ⟨_, .passed _ [], rfl⟩

/-- **A frame from the reassembly buffer has one fate.** -/
theorem reassembled_fate (hcodec : cfg.codec.Encodes) (filt : Filter) {ev : Reassembly.Event}
    (hframe : ev ≠ .started ∧ ev ≠ .abandoned ∧ ev ≠ .hashMismatch) :
    ∃ labels items, Fate items ∧
      labels ⊆ [FrameLabel.brc130, .brc131Reassembled, .brc132Reassembled] ∧
      reassembled cfg filt r ev = .count .reassemblyCompleted ::
        (labels.map fun l => .count (.frameReceived l)) ++ items := by
  cases ev with
  | started => exact absurd rfl hframe.1
  | abandoned => exact absurd rfl hframe.2.1
  | hashMismatch => exact absurd rfl hframe.2.2
  | complete f =>
      rw [reassembled]
      cases hallow : filt.allow r.filterNow (cfg.codec.groupIndex f.txID) f with
      | some reason => exact ⟨[], _, Filter.fate_of_allow hallow, List.nil_subset _, rfl⟩
      | none =>
          obtain ⟨raw, henc⟩ := Option.isSome_iff_exists.mp (hcodec.transaction f)
          simp only [henc]
          exact ⟨[.brc130], _, fate_report _ _ _ _ _, by decide, rfl⟩
  | completeBlock bf =>
      obtain ⟨raw, henc⟩ := Option.isSome_iff_exists.mp (hcodec.block bf)
      simp only [reassembled, henc]
      exact ⟨[.brc131Reassembled], _, fate_report _ _ _ _ _, by decide, rfl⟩
  | completeSubtree sf =>
      obtain ⟨raw, henc⟩ := Option.isSome_iff_exists.mp (hcodec.subtreeData sf)
      simp only [reassembled, henc]
      exact ⟨[.brc132Reassembled], _, fate_report _ _ _ _ _, by decide, rfl⟩

/-- The label of a reassembled frame is in none of the groups. -/
theorem sum_labels {ms : List Metric} {n : ℕ} {labels : List FrameLabel}
    (h : ∀ l ∈ labels, .frameReceived l ∉ ms) :
    ((labels.map fun l => Item.count (.frameReceived l)).map (Item.weigh ms n)).sum = 0 := by
  refine List.sum_eq_zero ?_
  intro k hk
  rw [List.map_map] at hk
  obtain ⟨l, hl, rfl⟩ := List.mem_map.mp hk
  exact List.count_eq_zero.mpr (h l hl)

/-- What enters with an event of the reassembly buffer is dealt with. -/
theorem sum_reassembled (hcodec : cfg.codec.Encodes) (filt : Filter) (proto : Proto)
    (ev : Reassembly.Event) :
    ((reassembled cfg filt r ev).map (Item.weigh Metric.entries 0)).sum =
      ((reassembled cfg filt r ev).map (Item.weigh (Metric.exits proto) 1)).sum := by
  by_cases hframe : ev ≠ .started ∧ ev ≠ .abandoned ∧ ev ≠ .hashMismatch
  · obtain ⟨labels, items, hfate, hlabels, heq⟩ := reassembled_fate (r := r) hcodec filt hframe
    have hentries : ∀ l ∈ labels, .frameReceived l ∉ Metric.entries := by
      intro l hl
      have := hlabels hl
      revert this
      cases l <;> decide
    have hexits : ∀ l ∈ labels, .frameReceived l ∉ Metric.exits proto := by
      intro l _
      simp [Metric.exits]
    rw [heq]
    simp only [List.map_append, List.map_cons, List.sum_append, List.sum_cons, sum_labels hentries,
      sum_labels hexits, hfate.sum_entries, hfate.sum_exits]
    rfl
  · cases ev <;> first | rfl | simp at hframe

/-- What may be counted for an event of the reassembly buffer. -/
def reassemblyMetrics : List Metric :=
  [.reassemblyStarted, .reassemblyAbandoned, .reassemblyHashMismatch, .reassemblyCompleted,
    .frameReceived .brc130, .frameReceived .brc131Reassembled, .frameReceived .brc132Reassembled,
    .frameDropped .shardFilter, .frameDropped .subtreeExclude, .frameDropped .subtreeIncludeMiss]

/-- A report counts nothing. -/
theorem count_notMem_report (m : Metric) (seqNum : UInt64) (groupIdx : UInt32)
    (subtreeID : Bytes32) (hashKey : UInt64) :
    Item.count m ∉ report seqNum (r.observe groupIdx subtreeID hashKey seqNum) := by
  rw [report]
  split <;> simp [Readings.observe]

/-- What is counted for the events of the buffer. -/
theorem mem_reassemblyMetrics {filt : Filter} {ev : Reassembly.Event} {m : Metric}
    (h : .count m ∈ reassembled cfg filt r ev) : m ∈ reassemblyMetrics := by
  cases ev with
  | started => simp_all [reassembled, reassemblyMetrics]
  | abandoned => simp_all [reassembled, reassemblyMetrics]
  | hashMismatch => simp_all [reassembled, reassemblyMetrics]
  | complete f =>
      rw [reassembled] at h
      cases hallow : filt.allow r.filterNow (cfg.codec.groupIndex f.txID) f with
      | some reason =>
          have hfate := Filter.fate_of_allow hallow
          simp only [hallow, List.mem_cons, Item.count.injEq, List.not_mem_nil, or_false] at h
          rcases h with rfl | rfl
          · decide
          · cases hfate <;> decide
      | none =>
          simp only [hallow, List.mem_cons, Item.count.injEq] at h
          rcases h with rfl | rfl | h
          · decide
          · decide
          · split at h
            · exact absurd h (List.not_mem_nil)
            · simp [count_notMem_report] at h
  | completeBlock bf =>
      simp only [reassembled, List.mem_cons, Item.count.injEq] at h
      rcases h with rfl | h
      · decide
      · split at h
        · exact absurd h (List.not_mem_nil)
        · simp only [block, List.mem_cons, Item.count.injEq, reduceCtorEq, count_notMem_report,
            or_false] at h
          subst h
          decide
  | completeSubtree sf =>
      simp only [reassembled, List.mem_cons, Item.count.injEq] at h
      rcases h with rfl | h
      · decide
      · split at h
        · exact absurd h (List.not_mem_nil)
        · simp only [subtreeData, List.mem_cons, Item.count.injEq, reduceCtorEq,
            count_notMem_report, or_false] at h
          subst h
          decide

/-- A total that has none of these does not change with the events of the buffer. -/
theorem sum_reassembled_eq_zero {ms : List Metric} (hms : ∀ m ∈ reassemblyMetrics, m ∉ ms)
    (filt : Filter) (evs : List Reassembly.Event) :
    ((evs.flatMap (reassembled cfg filt r)).map (Item.weigh ms 0)).sum = 0 := by
  refine List.sum_eq_zero ?_
  intro n hn
  obtain ⟨item, hitem, rfl⟩ := List.mem_map.mp hn
  obtain ⟨ev, -, hev⟩ := List.mem_flatMap.mp hitem
  cases item with
  | count m => exact List.count_eq_zero.mpr (hms m (mem_reassemblyMetrics hev))
  | parcel p => rfl
  | call c => rfl

/-- Quantities of the events of the buffer add up. -/
theorem sum_flatMap_reassembled {filt : Filter} {f : Item → ℕ} (g : Item → ℕ)
    (h : ∀ ev, ((reassembled cfg filt r ev).map f).sum = ((reassembled cfg filt r ev).map g).sum)
    (evs : List Reassembly.Event) :
    ((evs.flatMap (reassembled cfg filt r)).map f).sum =
      ((evs.flatMap (reassembled cfg filt r)).map g).sum := by
  induction evs with
  | nil => rfl
  | cons ev evs ih => simp only [List.flatMap_cons, List.map_append, List.sum_append, h, ih]

/-- What enters in a step is dealt with in it. -/
theorem sum_step (hcodec : cfg.codec.Encodes) (proto : Proto) (op : Op) :
    ((i.step cfg op).2.map (Item.weigh Metric.entries 0)).sum =
      ((i.step cfg op).2.map (Item.weigh (Metric.exits proto) 1)).sum := by
  -- a frame from the socket: the entry is the first item, the rest is its fate
  have hframe {label : FrameLabel} {items : List Item}
      (hlabel : label ∈ [FrameLabel.brc12, .brc124, .brc131, .brc132]) (hfate : Fate items) :
      ((Item.count (.frameReceived label) :: items).map (Item.weigh Metric.entries 0)).sum =
        ((Item.count (.frameReceived label) :: items).map
          (Item.weigh (Metric.exits proto) 1)).sum := by
    rw [List.map_cons, List.map_cons, List.sum_cons, List.sum_cons, hfate.sum_entries,
      hfate.sum_exits]
    revert hlabel
    cases label <;> simp [Item.weigh, Metric.entries, Metric.exits]
  cases op with
  | datagram raw r =>
      rw [step, datagram]
      split
      · cases cfg.codec.decodeBlock raw with
        | none => simp [Item.weigh, Metric.entries, Metric.exits]
        | some bf => exact hframe (by decide) (fate_report _ _ _ _ _)
      · split
        · cases cfg.codec.decodeSubtreeData raw with
          | none => simp [Item.weigh, Metric.entries, Metric.exits]
          | some sf => exact hframe (by decide) (fate_report _ _ _ _ _)
        · split
          · rw [fragment]
            split
            · simp [Item.weigh, Metric.entries, Metric.exits]
            · split
              · simp [Item.weigh, Metric.entries, Metric.exits]
              · exact sum_flatMap_reassembled _ (sum_reassembled hcodec _ proto) _
          · cases cfg.codec.decode raw with
            | none => simp [Item.weigh, Metric.entries, Metric.exits]
            | some f =>
                obtain ⟨items, hfate, heq⟩ := @transaction_fate cfg i r raw f
                dsimp only
                rw [heq]
                refine hframe ?_ hfate
                split <;> decide
  | tick r =>
      rw [step, tick]
      split
      · rfl
      · exact sum_flatMap_reassembled _ (sum_reassembled hcodec _ proto) _
  | groups op => rfl
  | track c => rfl

/-- A datagram is read. -/
def Op.isDatagram : Op → Bool
  | .datagram _ _ => true
  | _ => false

/-- The datagram is a fragment that can be decoded. -/
def Op.isFragment (c : Codec) : Op → Bool
  | .datagram raw _ =>
      !c.isBlockFrame raw && !c.isSubtreeDataFrame raw && c.isFragment raw &&
        (c.decodeFragment raw).isSome
  | _ => false

/-- A step keeps a reassembly buffer that is there. -/
theorem isSome_reassemBuf_step (op : Op) :
    (i.step cfg op).1.reassemBuf.isSome = i.reassemBuf.isSome := by
  have hsuppress (groupIdx : UInt32) (f : Frame) (r : Readings) :
      (i.suppress groupIdx f r).1.reassemBuf = i.reassemBuf := by
    rw [suppress]
    split
    · rfl
    · split <;> rfl
  cases op with
  | datagram raw r =>
      rw [step, datagram]
      split
      · split <;> rfl
      · split
        · split <;> rfl
        · split
          · rw [fragment]
            split
            · rfl
            · rename_i hbuf
              split
              · rfl
              · rw [hbuf]; rfl
          · split
            · rfl
            · rw [transaction]
              split
              · rfl
              · dsimp only
                split
                · rfl
                · split <;> rw [hsuppress]
  | tick r =>
      rw [step, tick]
      split
      · rfl
      · rename_i hbuf
        rw [hbuf]
        rfl
  | groups op => rfl
  | track c => rfl

/-- A datagram that is not for the buffer is counted once as read. -/
theorem sum_step_readings (op : Op) :
    ((i.step cfg op).2.map (Item.weigh Metric.readings 0)).sum =
      if op.isDatagram && !(i.reassemBuf.isSome && op.isFragment cfg.codec) then 1 else 0 := by
  have hframe {label : FrameLabel} {items : List Item}
      (hlabel : label ∈ [FrameLabel.brc12, .brc124, .brc131, .brc132]) (hfate : Fate items) :
      ((Item.count (.frameReceived label) :: items).map
        (Item.weigh Metric.readings 0)).sum = 1 := by
    rw [List.map_cons, List.sum_cons, hfate.sum_readings]
    revert hlabel
    cases label <;> decide
  cases op with
  | datagram raw r =>
      rw [step, datagram]
      split
      · rename_i hblock
        simp only [Op.isDatagram, Op.isFragment, hblock, Bool.not_true, Bool.false_and,
          Bool.and_false, Bool.not_false, Bool.and_true, if_true]
        cases cfg.codec.decodeBlock raw with
        | none => rfl
        | some bf => exact hframe (by decide) (fate_report _ _ _ _ _)
      · split
        · rename_i hsubtree
          simp only [Op.isDatagram, Op.isFragment, hsubtree, Bool.not_true, Bool.false_and,
            Bool.and_false, Bool.not_false, Bool.and_true, if_true]
          cases cfg.codec.decodeSubtreeData raw with
          | none => rfl
          | some sf => exact hframe (by decide) (fate_report _ _ _ _ _)
        · rename_i hblock hsubtree
          split
          · rename_i hfrag
            rw [fragment]
            cases hbuf : i.reassemBuf with
            | none => rfl
            | some b =>
                cases hdec : cfg.codec.decodeFragment raw with
                | none => simp [Op.isDatagram, Op.isFragment, hdec, Item.weigh, Metric.readings]
                | some ff =>
                    simp only [Op.isDatagram, Op.isFragment, hblock, hsubtree, hfrag, hdec]
                    exact sum_reassembled_eq_zero (by decide) _ _
          · rename_i hfrag
            have hnot : Op.isFragment cfg.codec (.datagram raw r) = false := by
              simp [Op.isFragment, hfrag]
            rw [hnot, Bool.and_false]
            cases cfg.codec.decode raw with
            | none => rfl
            | some f =>
                obtain ⟨items, hfate, heq⟩ := @transaction_fate cfg i r raw f
                dsimp only
                rw [heq]
                refine hframe ?_ hfate
                split <;> decide
  | tick r =>
      rw [step, tick]
      split
      · rfl
      · exact sum_reassembled_eq_zero (by decide) _ _
  | groups op => rfl
  | track c => rfl

end Intake

namespace Worker

/-- **Every datagram is accounted for**: over any run, as many datagrams are counted as frames or
as undecodable as were read and not taken by the reassembly buffer, and as many frames are
counted as invalid, filtered, duplicate, forwarded or failed as came in from the socket and from
the buffer. -/
theorem datagrams_accounted (cfg : WorkerConfig) (hcodec : cfg.codec.Encodes) (w : Worker)
    (ops : List Op) :
    let out := Machine.outputs (step cfg) w ops
    (total Metric.readings out = (ops.map Op.intake).countP fun op =>
        op.isDatagram && !(w.reassemBuf.isSome && op.isFragment cfg.codec)) ∧
      total Metric.entries out = total (Metric.exits w.egr.proto) out := by
  refine ⟨?_, ?_⟩
  · rw [total_outputs (n := 0) fun o net p _ => Outlet.sum_emit_readings p]
    rw [Machine.sum_outputs (P := fun i : Intake => i.reassemBuf.isSome = w.reassemBuf.isSome)
      (fun i op h => (Intake.isSome_reassemBuf_step op).trans h)
      (fun i op h => by rw [Intake.sum_step_readings, h]) rfl]
    induction ops.map Op.intake with
    | nil => rfl
    | cons op ops ih =>
        rw [List.map_cons, List.sum_cons, ih, List.countP_cons, Nat.add_comm]
  · rw [total_outputs (n := 0) fun o net p _ => Outlet.sum_emit_entries p,
      total_outputs (n := 1) fun o net p h => h ▸ Outlet.sum_emit_exits p]
    exact Machine.sum_outputs_congr (fun i op => Intake.sum_step hcodec _ op) _ _

end Worker

/-- The codec of `Codec.wire`, without the check that a payload length fits into its field. -/
def Codec.unchecked : Codec :=
  { Codec.wire with
    encode := fun f n => some ((Wire.Packet.ofFrame f).fill n)
    encodeBlock := fun bf n => some ((Wire.Packet.ofBlock bf).fill n)
    encodeSubtreeData := fun sf n => some ((Wire.Packet.ofSubtreeData sf).fill n) }

namespace Worker

/-- A frame, its retransmit and a datagram that is no frame. -/
theorem datagrams_accounted_retransmit :
    let ops := [Op.datagram (testRaw (testFrame 1 1 0xA)) (Env.test 0),
      .datagram (testRaw (testFrame 1 1 0xA)) (Env.test 1), .datagram [] (Env.test 2)]
    let out := Machine.outputs (step (testConfig Codec.unchecked)) testWorker ops
    (total Metric.readings out = (ops.map Op.intake).countP fun op =>
        op.isDatagram && !(testWorker.reassemBuf.isSome && op.isFragment Codec.unchecked)) ∧
      total Metric.entries out = total (Metric.exits .udp) out :=
  datagrams_accounted (testConfig Codec.unchecked)
    ⟨fun _ => rfl, fun _ => rfl, fun _ => rfl⟩ testWorker _

end Worker

/-! ### With and without the duplicate set -/

/-- The parcel of a transaction. -/
def Parcel.isTransaction : Parcel → Bool
  | .transaction _ _ _ => true
  | _ => false

/-- The items are the same but for some transactions, each replaced by a count of a duplicate. -/
structure Suppresses (items items' : List Item) : Prop where
  calls : items.filterMap Item.call? = items'.filterMap Item.call?
  parcels : (items.filterMap Item.parcel?).Sublist (items'.filterMap Item.parcel?)
  others : (items.filterMap Item.parcel?).filter (!·.isTransaction) =
    (items'.filterMap Item.parcel?).filter (!·.isTransaction)
  length : (items'.filterMap Item.parcel?).length =
    (items.filterMap Item.parcel?).length + (items.map (Item.weigh [.frameDeduped] 0)).sum

namespace Suppresses

variable {items items' : List Item}

/-- Two lists of items, one after the other. -/
theorem append {rest rest' : List Item} (h : Suppresses items items')
    (h' : Suppresses rest rest') : Suppresses (items ++ rest) (items' ++ rest') where
  calls := by rw [List.filterMap_append, List.filterMap_append, h.calls, h'.calls]
  parcels := by
    rw [List.filterMap_append, List.filterMap_append]
    exact h.parcels.append h'.parcels
  others := by
    rw [List.filterMap_append, List.filterMap_append, List.filter_append, List.filter_append,
      h.others, h'.others]
  length := by
    simp only [List.filterMap_append, List.length_append, List.map_append, List.sum_append,
      h.length, h'.length]
    omega

/-- Without duplicates nothing is replaced. -/
theorem refl (h : (items.map (Item.weigh [.frameDeduped] 0)).sum = 0) : Suppresses items items :=
  ⟨rfl, .refl _, rfl, by rw [h, Nat.add_zero]⟩

/-- The messages that are missing are transactions. -/
theorem countP_isTransaction (h : Suppresses items items') :
    (items'.filterMap Item.parcel?).countP Parcel.isTransaction =
      (items.filterMap Item.parcel?).countP Parcel.isTransaction +
        (items.map (Item.weigh [.frameDeduped] 0)).sum := by
  have hothers := congrArg List.length h.others
  rw [← List.countP_eq_length_filter, ← List.countP_eq_length_filter] at hothers
  have hsplit := fun ps : List Parcel => ps.length_eq_countP_add_countP Parcel.isTransaction
  have hitems := hsplit (items.filterMap Item.parcel?)
  have hitems' := hsplit (items'.filterMap Item.parcel?)
  have hlength := h.length
  simp only [Bool.not_eq_true, Bool.decide_eq_false] at hitems hitems'
  omega

/-- An outlet that takes no transactions is offered the same. -/
theorem flatMap_eq {α : Type} {g : Parcel → List α} (h : Suppresses items items')
    (hg : ∀ raw f groupIdx, g (.transaction raw f groupIdx) = []) :
    (items.filterMap Item.parcel?).flatMap g = (items'.filterMap Item.parcel?).flatMap g := by
  have hothers (ps : List Parcel) : (ps.filter (!·.isTransaction)).flatMap g = ps.flatMap g := by
    induction ps with
    | nil => rfl
    | cons p ps ih =>
        rw [List.flatMap_cons, ← ih]
        cases p with
        | transaction raw f groupIdx =>
            rw [hg, List.nil_append]
            rfl
        | block raw bf => rfl
        | subtreeData raw sf => rfl
  rw [← hothers, h.others, hothers]

end Suppresses

namespace Outlet

variable {o : Outlet}

/-- Multicast egress, if there is one, is offered every transaction. -/
theorem length_flatMap_multicastOf (hm : o.mcastEgr.isSome = true) (ps : List Parcel) :
    (ps.flatMap o.multicastOf).length = ps.countP Parcel.isTransaction := by
  obtain ⟨m, hm⟩ := Option.isSome_iff_exists.mp hm
  induction ps with
  | nil => rfl
  | cons p ps ih =>
      rw [List.flatMap_cons, List.length_append, ih, List.countP_cons]
      cases p <;> simp [multicastOf, hm, Parcel.isTransaction, Nat.add_comm]

end Outlet

namespace Intake

variable {cfg : WorkerConfig} {i : Intake}

/-- The intake without its duplicate set. -/
def withoutDedup (i : Intake) : Intake := { i with dedupSet := none }

/-- A lookup changes the duplicate set alone. -/
theorem suppress_withoutDedup (groupIdx : UInt32) (f : Frame) (r : Readings) :
    (i.suppress groupIdx f r).1.withoutDedup = i.withoutDedup := by
  rw [suppress]
  split
  · rfl
  · split <;> rfl

/-- Only stamped frames of the current version are duplicates. -/
theorem stamped_of_suppress {groupIdx : UInt32} {f : Frame} {r : Readings}
    (h : (i.suppress groupIdx f r).2 = true) : f.version = frameVerV2 ∧ f.seqNum ≠ 0 := by
  rw [suppress] at h
  split at h
  · exact absurd h Bool.false_ne_true
  · split at h
    · assumption
    · exact absurd h Bool.false_ne_true

/-- A transaction frame, at an intake with and without a duplicate set. -/
theorem transaction_withoutDedup (raw : Bytes) (f : Frame) (r : Readings) :
    (i.withoutDedup.transaction cfg raw f r).1 = (i.transaction cfg raw f r).1.withoutDedup ∧
      Suppresses (i.transaction cfg raw f r).2 (i.withoutDedup.transaction cfg raw f r).2 := by
  have hnone (groupIdx : UInt32) :
      i.withoutDedup.suppress groupIdx f r = (i.withoutDedup, false) := rfl
  have hfilt : i.withoutDedup.filt = i.filt := rfl
  have hlabel : ([.frameDeduped] : List Metric).count
      (.frameReceived (if f.version = frameVerV2 then .brc124 else .brc12)) = 0 := by
    split <;> decide
  simp only [transaction, hnone, hfilt]
  split
  · exact ⟨rfl, .refl (by simp [Item.weigh, hlabel])⟩
  · cases i.filt.allow r.filterNow (cfg.codec.groupIndex f.txID) f with
    | some reason => exact ⟨rfl, .refl (by simp [Item.weigh, hlabel])⟩
    | none =>
        dsimp only
        cases hdup : (i.suppress (cfg.codec.groupIndex f.txID) f r).2 with
        | true =>
            obtain ⟨hver, hseq⟩ := stamped_of_suppress hdup
            refine ⟨(suppress_withoutDedup _ _ _).symm, ?_⟩
            simp only [hver, if_true, Bool.false_eq_true, if_false, report, ne_eq, hseq,
              not_false_eq_true]
            exact ⟨rfl, List.nil_sublist _, rfl, rfl⟩
        | false =>
            refine ⟨(suppress_withoutDedup _ _ _).symm, .refl ?_⟩
            simp only [Bool.false_eq_true, if_false, List.map_cons, List.sum_cons, Item.weigh,
              hlabel]
            split
            · rw [report]
              split <;> rfl
            · rfl

/-- What a block control or subtree data frame passes on, without duplicates. -/
theorem sum_parcel_report (m : Metric) (p : Parcel) (seqNum : UInt64) (r : Readings)
    (groupIdx : UInt32) (subtreeID : Bytes32) (hashKey : UInt64) (hm : m ≠ .frameDeduped) :
    ((.count m :: .parcel p ::
      report seqNum (r.observe groupIdx subtreeID hashKey seqNum)).map
        (Item.weigh [.frameDeduped] 0)).sum = 0 := by
  rw [report]
  split <;> simp [Item.weigh, Readings.observe, hm.symm]

/-- One step, with and without a duplicate set. -/
theorem step_withoutDedup (op : Op) :
    (i.withoutDedup.step cfg op).1 = (i.step cfg op).1.withoutDedup ∧
      Suppresses (i.step cfg op).2 (i.withoutDedup.step cfg op).2 := by
  cases op with
  | datagram raw r =>
      simp only [step, datagram]
      split
      · cases cfg.codec.decodeBlock raw with
        | none => exact ⟨rfl, .refl rfl⟩
        | some bf => exact ⟨rfl, .refl (sum_parcel_report _ _ _ _ _ _ _ (by decide))⟩
      · split
        · cases cfg.codec.decodeSubtreeData raw with
          | none => exact ⟨rfl, .refl rfl⟩
          | some sf => exact ⟨rfl, .refl (sum_parcel_report _ _ _ _ _ _ _ (by decide))⟩
        · split
          · obtain ⟨filt, dedupSet, reassemBuf⟩ := i
            cases reassemBuf with
            | none => exact ⟨rfl, .refl rfl⟩
            | some b =>
                simp only [withoutDedup, fragment]
                cases cfg.codec.decodeFragment raw with
                | none => exact ⟨rfl, .refl rfl⟩
                | some ff => exact ⟨rfl, .refl (sum_reassembled_eq_zero (by decide) _ _)⟩
          · cases cfg.codec.decode raw with
            | none => exact ⟨rfl, .refl rfl⟩
            | some f => exact transaction_withoutDedup raw f r
  | tick r =>
      obtain ⟨filt, dedupSet, reassemBuf⟩ := i
      cases reassemBuf with
      | none => exact ⟨rfl, .refl rfl⟩
      | some b => exact ⟨rfl, .refl (sum_reassembled_eq_zero (by decide) _ _)⟩
  | groups op => exact ⟨rfl, .refl rfl⟩
  | track c => exact ⟨rfl, .refl rfl⟩

/-- A run, with and without a duplicate set. -/
theorem run_withoutDedup (ops : List Op) :
    Machine.run (Machine.next (step cfg)) i.withoutDedup ops =
        (Machine.run (Machine.next (step cfg)) i ops).withoutDedup ∧
      Suppresses (Machine.outputs (step cfg) i ops)
        (Machine.outputs (step cfg) i.withoutDedup ops) := by
  induction ops generalizing i with
  | nil => exact ⟨rfl, .refl rfl⟩
  | cons op ops ih =>
      obtain ⟨hstate, hthin⟩ := @step_withoutDedup cfg i op
      rw [Machine.run_cons, Machine.run_cons, Machine.outputs, Machine.outputs, Machine.next,
        Machine.next, hstate]
      exact ⟨ih.1, hthin.append ih.2⟩

end Intake

/-! ### What the duplicate set changes -/

namespace Worker

/-- The worker without its duplicate set. -/
def withoutDedup (w : Worker) : Worker := { w with dedupSet := none }

/-- **Duplicate suppression is transparent**: over any run, a worker and the same worker without
its duplicate set have the same filter, reassembly buffer and gap tracker and send the same block
headers. The frames that the first one sends are those that the second one sends, in the same
order, with one transaction left out for every duplicate it counts, from unicast egress and, if
there is one, from multicast egress. -/
theorem suppression_transparent (cfg : WorkerConfig) (w : Worker) (ops : List Op) :
    let out := Machine.outputs (step cfg) w ops
    let out' := Machine.outputs (step cfg) w.withoutDedup ops
    (w.withoutDedup.after cfg ops).filt = (w.after cfg ops).filt ∧
      (w.withoutDedup.after cfg ops).reassemBuf = (w.after cfg ops).reassemBuf ∧
      (w.withoutDedup.after cfg ops).tracker = (w.after cfg ops).tracker ∧
      out.flatMap Effect.headerUnicast? = out'.flatMap Effect.headerUnicast? ∧
      out.flatMap Effect.headerMulticast? = out'.flatMap Effect.headerMulticast? ∧
      (out.flatMap Effect.unicast?).Sublist (out'.flatMap Effect.unicast?) ∧
      (out.flatMap Effect.multicast?).Sublist (out'.flatMap Effect.multicast?) ∧
      (out'.flatMap Effect.unicast?).length =
        (out.flatMap Effect.unicast?).length + counted out .frameDeduped ∧
      (w.mcastEgr.isSome = true → (out'.flatMap Effect.multicast?).length =
        (out.flatMap Effect.multicast?).length + counted out .frameDeduped) := by
  have hintake : w.withoutDedup.intake = w.intake.withoutDedup := rfl
  obtain ⟨hstate, hthin⟩ := @Intake.run_withoutDedup cfg w.intake (ops.map Op.intake)
  have hrun : (w.withoutDedup.after cfg ops).intake = (w.after cfg ops).intake.withoutDedup := by
    rw [(two_stages _ ops).1, (two_stages w ops).1, hintake, hstate]
  have hcalls : w.withoutDedup.calls cfg ops = w.calls cfg ops := by
    rw [calls, calls, hintake, hthin.calls]
  have hcounted : counted (Machine.outputs (step cfg) w ops) .frameDeduped =
      ((Machine.outputs (Intake.step cfg) w.intake (ops.map Op.intake)).map
        (Item.weigh [.frameDeduped] 0)).sum := by
    rw [← total_outputs fun o net p _ => ?_]
    · rfl
    · refine Outlet.sum_emit ?_ ?_ ?_ p <;> rintro (_ | _) <;> rfl
  have houtlet : w.withoutDedup.downstream.outlet = w.downstream.outlet := rfl
  refine ⟨congrArg Intake.filt hrun, congrArg Intake.reassemBuf hrun, ?_, ?_, ?_, ?_, ?_, ?_,
    fun hm => ?_⟩
  · rw [tracker_after, tracker_after, hcalls]
    rfl
  · rw [headerUnicast_stream, headerUnicast_stream, houtlet, hintake]
    exact hthin.flatMap_eq fun _ _ _ => by simp [Outlet.headerUnicastOf, Parcel.headerFrame]
  · rw [headerMulticast_stream, headerMulticast_stream, houtlet, hintake]
    refine hthin.flatMap_eq fun _ _ _ => ?_
    rw [Outlet.headerMulticastOf]
    split <;> rfl
  · rw [unicast_stream, unicast_stream, houtlet, hintake]
    exact hthin.parcels.map _
  · rw [multicast_stream, multicast_stream, houtlet, hintake]
    exact hthin.parcels.flatMap _
  · rw [unicast_stream, unicast_stream, houtlet, hintake, hcounted, List.length_map,
      List.length_map]
    exact hthin.length
  · rw [multicast_stream, multicast_stream, houtlet, hintake, hcounted,
      Outlet.length_flatMap_multicastOf hm, Outlet.length_flatMap_multicastOf hm]
    exact hthin.countP_isTransaction

/-- A frame and its retransmit: multicast egress is offered one of them. -/
theorem suppression_transparent_retransmit :
    let cfg := testConfig Codec.wire
    let w : Worker := { testWorker with mcastEgr := some ⟨[], 9002, false⟩ }
    let ops := [Op.datagram (testRaw (testFrame 1 1 0xA)) (Env.test 0),
      .datagram (testRaw (testFrame 1 1 0xA)) (Env.test 1)]
    let out := Machine.outputs (step cfg) w ops
    let out' := Machine.outputs (step cfg) w.withoutDedup ops
    counted out .frameDeduped = 1 ∧
      (out'.flatMap Effect.multicast?).length =
        (out.flatMap Effect.multicast?).length + counted out .frameDeduped := by
  intro cfg w ops out out'
  obtain ⟨-, -, -, -, -, -, -, -, hmulticast⟩ := suppression_transparent cfg w ops
  exact ⟨by decide +kernel, hmulticast rfl⟩

end Worker

end ShardListener
