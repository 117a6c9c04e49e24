import ShardListener.Worker

/-!
# A Worker in Two Stages

The handlers of a worker receive and send in one go. This module takes them apart. The
**intake** decodes, verifies, filters, looks for duplicates and reassembles; it makes a list of
`Item`s of every operation: metrics, messages for the senders (`Parcel`) and calls of the gap
tracker. The **outlet** has the four senders and makes datagrams of the parcels.

The intake is given the clock readings and random draws of an operation, but not the outcomes
of its network calls (`Readings`), and it has neither the senders nor the tracker. Nothing flows
back to it, so its part of a run can be computed first.

## Main results

* `Worker.step_eq`: one step of a worker is a step of its intake, followed by what is done with
  the items.
* `Worker.two_stages`: a run of a worker is a run of its intake, followed by runs of the outlet
  and of the tracker on what the intake has passed on.
-/

namespace ShardListener

/-! ### What the intake passes on -/

/-- A message for the senders: a frame, and the datagram it is sent on as. -/
inductive Parcel
  | transaction (raw : Bytes) (f : Frame) (groupIdx : UInt32)
  | block (raw : Bytes) (bf : BlockFrame)
  | subtreeData (raw : Bytes) (sf : SubtreeDataFrame)
  deriving DecidableEq

/-- What the intake makes of an operation: an event to count, a message for the senders, a call
of the gap tracker. -/
inductive Item
  | count (m : Metric)
  | parcel (p : Parcel)
  | call (c : Call)

/-- The parcel of an item. -/
def Item.parcel? : Item → Option Parcel
  | .parcel p => some p
  | _ => none

/-- The tracker call of an item. -/
def Item.call? : Item → Option Call
  | .call c => some c
  | _ => none

/-- The clock readings and random draws among what the environment decides. -/
structure Readings where
  filterNow : GroupClock
  dedupNow : Time
  trackerNow : Time
  bufferNow : Time
  draw : UInt64 → ℕ

/-- The outcomes of network calls among what the environment decides. -/
structure Net where
  unicast : NetResult
  multicast : Bool
  header : NetResult
  headerMulticast : Bool

@[simps -fullyApplied] def Env.readings (env : Env) : Readings :=
  ⟨env.filterNow, env.dedupNow, env.trackerNow, env.bufferNow, env.draw⟩

def Env.net (env : Env) : Net := ⟨env.unicast, env.multicast, env.header, env.headerMulticast⟩

/-- A call of `Tracker.Observe`. -/
def Readings.observe (r : Readings) (groupIdx : UInt32) (subtreeID : Bytes32)
    (hashKey seqNum : UInt64) : Item :=
  .call (.observe
    { groupIdx := groupIdx, subtreeID := subtreeID, hashKey := hashKey, seqNum := seqNum,
      now := r.trackerNow, draw := r.draw })

/-! ### The intake -/

/-- The receiving part of a worker. -/
structure Intake where
  filt : Filter
  dedupSet : Option DedupSet
  reassemBuf : Option Reassembly.Buffer

/-- What happens to an intake. -/
inductive Intake.Op
  | datagram (raw : Bytes) (r : Readings)
  | tick (r : Readings)
  | groups (op : GroupOp)
  | track (c : Call)

namespace Intake

variable (cfg : WorkerConfig)

/-- Whether the frame is a duplicate. -/
def suppress (i : Intake) (groupIdx : UInt32) (f : Frame) (r : Readings) : Intake × Bool :=
  match i.dedupSet with
  | none => (i, false)
  | some s =>
      if f.version = frameVerV2 ∧ f.seqNum ≠ 0 then
        let out := s.seenAndAdd r.dedupNow ⟨groupIdx, f.subtreeID, f.seqNum⟩
        ({ i with dedupSet := some out.1 }, out.2)
      else (i, false)

/-- A stamped frame is reported to the tracker. -/
def report (seqNum : UInt64) (call : Item) : List Item := if seqNum ≠ 0 then [call] else []

/-- A block control frame. -/
def block (r : Readings) (raw : Bytes) (bf : BlockFrame) : List Item :=
  .parcel (.block raw bf) ::
    report bf.seqNum (r.observe ctrlGroupControl (Bytes32.ofByte 0) bf.hashKey bf.seqNum)

/-- A subtree data frame. -/
def subtreeData (r : Readings) (raw : Bytes) (sf : SubtreeDataFrame) : List Item :=
  .parcel (.subtreeData raw sf) ::
    report sf.seqNum (r.observe ctrlGroupSubtreeAnnounce sf.subtreeID sf.hashKey sf.seqNum)

/-- A decoded transaction frame. -/
def transaction (i : Intake) (raw : Bytes) (f : Frame) (r : Readings) : Intake × List Item :=
  let received : Item :=
    .count (.frameReceived (if f.version = frameVerV2 then .brc124 else .brc12))
  if (cfg.verifyPayloadHash = true ∧ f.version = frameVerV2) ∧
      Reassembly.sha256d cfg.codec.sha256 f.payload ≠ f.txID then
    (i, [received, .count .frameInvalidPayload])
  else
    let groupIdx := cfg.codec.groupIndex f.txID
    let observe := r.observe groupIdx f.subtreeID f.hashKey f.seqNum
    match i.filt.allow r.filterNow groupIdx f with
    | some reason => (i, [received, .count (.frameDropped reason)])
    | none =>
        let dup := i.suppress groupIdx f r
        if dup.2 then (dup.1, [received, .count .frameDeduped, observe])
        else
          (dup.1, received :: .parcel (.transaction raw f groupIdx) ::
            if f.version = frameVerV2 then report f.seqNum observe else [])

/-- A hook or callback of the reassembly buffer. -/
def reassembled (filt : Filter) (r : Readings) : Reassembly.Event → List Item
  | .started => [.count .reassemblyStarted]
  | .abandoned => [.count .reassemblyAbandoned]
  | .hashMismatch => [.count .reassemblyHashMismatch]
  | .complete f =>
      let groupIdx := cfg.codec.groupIndex f.txID
      match filt.allow r.filterNow groupIdx f with
      | some reason => [.count .reassemblyCompleted, .count (.frameDropped reason)]
      | none =>
          .count .reassemblyCompleted :: .count (.frameReceived .brc130) ::
            match cfg.codec.encode f (headerSize + f.payload.length) with
            | none => []
            | some raw =>
                .parcel (.transaction raw f groupIdx) ::
                  report f.seqNum (r.observe groupIdx f.subtreeID f.hashKey f.seqNum)
  | .completeBlock bf =>
      .count .reassemblyCompleted ::
        match cfg.codec.encodeBlock bf (headerSize + bf.payload.length) with
        | none => []
        | some raw => .count (.frameReceived .brc131Reassembled) :: block r raw bf
  | .completeSubtree sf =>
      .count .reassemblyCompleted ::
        match cfg.codec.encodeSubtreeData sf (headerSize + sf.payload.length) with
        | none => []
        | some raw => .count (.frameReceived .brc132Reassembled) :: subtreeData r raw sf

/-- A BRC-130 datagram. -/
def fragment (i : Intake) (raw : Bytes) (r : Readings) : Intake × List Item :=
  match i.reassemBuf with
  | none => (i, [.count (.frameDropped .noReassemblyBuffer)])
  | some b =>
      match cfg.codec.decodeFragment raw with
      | none => (i, [.count (.frameDropped .fragDecodeError)])
      | some ff =>
          let out := b.observe cfg.reassembly cfg.codec.sha256 r.bufferNow ff
          ({ i with reassemBuf := some out.1 }, out.2.flatMap (reassembled cfg i.filt r))

/-- One datagram. -/
def datagram (i : Intake) (raw : Bytes) (r : Readings) : Intake × List Item :=
  if cfg.codec.isBlockFrame raw then
    match cfg.codec.decodeBlock raw with
    | none => (i, [.count (.frameDropped .decodeError)])
    | some bf => (i, .count (.frameReceived .brc131) :: block r raw bf)
  else if cfg.codec.isSubtreeDataFrame raw then
    match cfg.codec.decodeSubtreeData raw with
    | none => (i, [.count (.frameDropped .decodeError)])
    | some sf => (i, .count (.frameReceived .brc132) :: subtreeData r raw sf)
  else if cfg.codec.isFragment raw then i.fragment cfg raw r
  else
    match cfg.codec.decode raw with
    | none => (i, [.count (.frameDropped .decodeError)])
    | some f => i.transaction cfg raw f r

/-- The tick of the reassembly buffer. -/
def tick (i : Intake) (r : Readings) : Intake × List Item :=
  match i.reassemBuf with
  | none => (i, [])
  | some b =>
      let out := b.tick r.bufferNow
      ({ i with reassemBuf := some out.1 }, out.2.flatMap (reassembled cfg i.filt r))

/-- One step of an intake. -/
def step (i : Intake) : Op → Intake × List Item
  | .datagram raw r => i.datagram cfg raw r
  | .tick r => i.tick cfg r
  | .groups op =>
      ({ i with filt := { i.filt with groupReg := i.filt.groupReg.map fun r => r.step op } }, [])
  | .track c => (i, [.call c])

end Intake

/-! ### The outlet -/

/-- The senders of a worker. -/
structure Outlet where
  egr : EgressSender
  mcastEgr : Option MCastSender
  headerEgr : Option EgressSender
  headerMCastEgr : Option MCastSender

namespace Outlet

variable (cfg : WorkerConfig)

/-- Unicast egress. -/
def unicast (o : Outlet) (net : Net) (raw payload : Bytes) : Outlet × List Effect :=
  let out := o.egr.sendRaw (o.egr.buffer raw payload) net.unicast
  ({ o with egr := out.1 },
    [.unicast out.2,
      .count (if out.2.ok then .frameForwarded (.unicast o.egr.proto) else .egressError)])

/-- Multicast egress. -/
def multicast (o : Outlet) (net : Net) (raw : Bytes) (f : Frame) (groupIdx : UInt32) :
    List Effect :=
  match o.mcastEgr with
  | none => []
  | some m =>
      [.multicast (m.send raw f groupIdx net.multicast),
        .count (if net.multicast then .frameForwarded .udpMcast else .mcEgressError)]

/-- The header frame of a block announcement. -/
def headerFrame (bf : BlockFrame) : Option Bytes :=
  if bf.msgType ≠ blockMsgAnnounce then none
  else if bf.payload.length < blockHeaderSize then none
  else
    cfg.codec.encodeBlock { bf with payload := bf.payload.take blockHeaderSize }
      (headerSize + blockHeaderSize)

/-- Unicast egress of a header frame. -/
def headerUnicast (o : Outlet) (net : Net) (buf : Bytes) : Outlet × List Effect :=
  match o.headerEgr with
  | none => (o, [])
  | some s =>
      let out := s.sendRaw buf net.header
      ({ o with headerEgr := some out.1 },
        [.headerUnicast out.2,
          .count (if out.2.ok then .headerForwarded else .headerEgressError)])

/-- Multicast egress of a header frame. -/
def headerMulticast (o : Outlet) (net : Net) (buf : Bytes) : List Effect :=
  match o.headerMCastEgr with
  | none => []
  | some m =>
      [.headerMulticast (m.sendToGroup buf ctrlGroupBlockHeader net.headerMulticast),
        .count (if net.headerMulticast then .headerForwarded else .headerEgressError)]

/-- Header egress of a block control frame. -/
def header (o : Outlet) (net : Net) (bf : BlockFrame) : Outlet × List Effect :=
  match headerFrame cfg bf with
  | none => (o, [])
  | some buf =>
      let uni := o.headerUnicast net buf
      (uni.1, uni.2 ++ o.headerMulticast net buf)

/-- What the senders make of a parcel. -/
def emit (o : Outlet) (net : Net) : Parcel → Outlet × List Effect
  | .transaction raw f groupIdx =>
      let uni := o.unicast net raw f.payload
      (uni.1, uni.2 ++ o.multicast net raw f groupIdx)
  | .block raw bf =>
      let uni := o.unicast net raw bf.payload
      let header := uni.1.header cfg net bf
      (header.1, uni.2 ++ header.2)
  | .subtreeData raw sf => o.unicast net raw sf.payload

end Outlet

/-! ### The second stage -/

/-- What an intake works for: the senders and the gap tracker. -/
structure Downstream where
  outlet : Outlet
  tracker : Option Tracker

/-- What is done with an item. -/
def Downstream.step (cfg : WorkerConfig) (d : Downstream) : Net × Item → Downstream × List Effect
  | (_, .count m) => (d, [.count m])
  | (net, .parcel p) =>
      let out := d.outlet.emit cfg net p
      ({ d with outlet := out.1 }, out.2)
  | (_, .call c) => ({ d with tracker := d.tracker.map fun t => t.step cfg.tracker c }, [])

namespace Worker

/-- The intake of a worker. -/
def intake (w : Worker) : Intake := ⟨w.filt, w.dedupSet, w.reassemBuf⟩

/-- What the intake of a worker works for. -/
def downstream (w : Worker) : Downstream :=
  ⟨⟨w.egr, w.mcastEgr, w.headerEgr, w.headerMCastEgr⟩, w.tracker⟩

/-- A worker from its parts. -/
def assemble (i : Intake) (d : Downstream) : Worker where
  filt := i.filt
  egr := d.outlet.egr
  mcastEgr := d.outlet.mcastEgr
  headerEgr := d.outlet.headerEgr
  headerMCastEgr := d.outlet.headerMCastEgr
  tracker := d.tracker
  dedupSet := i.dedupSet
  reassemBuf := i.reassemBuf

/-- The part of an operation the first stage gets. -/
def Op.intake : Op → Intake.Op
  | .datagram raw env => .datagram raw env.readings
  | .tick env => .tick env.readings
  | .groups op => .groups op
  | .track c => .track c

/-- The part of an operation the second stage gets. The changes of other goroutines make no
network calls. -/
def Op.net : Op → Net
  | .datagram _ env => env.net
  | .tick env => env.net
  | .groups _ => ⟨.ok, true, .ok, true⟩
  | .track _ => ⟨.ok, true, .ok, true⟩

/-! ### One step -/

variable (cfg : WorkerConfig)

/-- The second stage, given what the first one made of an operation. -/
def finish (d : Downstream) (net : Net) (out : Intake × List Item) : Worker × List Effect :=
  (assemble out.1 (Machine.run (Machine.next (Downstream.step cfg)) d (out.2.map (net, ·))),
    Machine.outputs (Downstream.step cfg) d (out.2.map (net, ·)))

variable {cfg} {w : Worker} {env : Env} {d : Downstream} {net : Net} {i : Intake}

/-- Nothing is left to finish. -/
@[simp] theorem finish_nil : finish cfg d net (i, []) = (assemble i d, []) := rfl

/-- A count is passed through. -/
@[simp] theorem finish_count (m : Metric) (items : List Item) :
    finish cfg d net (i, .count m :: items) =
      ((finish cfg d net (i, items)).1, .count m :: (finish cfg d net (i, items)).2) := rfl

/-- Two lists of items are finished one after the other. -/
theorem finish_append (items items' : List Item) :
    finish cfg d net (i, items ++ items') =
      let out := finish cfg d net (i, items)
      let rest := finish cfg out.1.downstream net (i, items')
      (rest.1, out.2 ++ rest.2) := by
  simp only [finish, List.map_append, Machine.run_append, Machine.outputs_append]
  rfl

/-- A parcel of a frame that is reported if it is stamped. -/
theorem finish_parcel (p : Parcel) (groupIdx : UInt32) (subtreeID : Bytes32)
    (hashKey seqNum : UInt64) :
    finish cfg d net (i, .parcel p ::
        Intake.report seqNum (env.readings.observe groupIdx subtreeID hashKey seqNum)) =
      let out := d.outlet.emit cfg net p
      let sent := assemble i { d with outlet := out.1 }
      (if seqNum ≠ 0 then sent.track cfg groupIdx subtreeID hashKey seqNum env else sent,
        out.2) := by
  rw [Intake.report]
  split <;> exact Prod.ext rfl (List.append_nil _)

/-- The worker sends the header frame as its outlet does. -/
theorem emitBlockHeader_eq (bf : BlockFrame) :
    w.emitBlockHeader cfg bf env =
      let out := w.downstream.outlet.header cfg env.net bf
      (assemble w.intake { w.downstream with outlet := out.1 }, out.2) := by
  rw [emitBlockHeader, Outlet.header, Outlet.headerFrame]
  split
  · rfl
  · split
    · rfl
    · cases cfg.codec.encodeBlock { bf with payload := bf.payload.take blockHeaderSize }
        (headerSize + blockHeaderSize) with
      | none => rfl
      | some buf =>
          obtain ⟨_, _, _, headerEgr, headerMCastEgr, _, _, _⟩ := w
          cases headerEgr <;> cases headerMCastEgr <;> rfl

/-- Without header senders nothing is done for a header. -/
theorem header_eq_of_none {o : Outlet} (huni : o.headerEgr = none)
    (hmulti : o.headerMCastEgr = none) (bf : BlockFrame) : o.header cfg net bf = (o, []) := by
  rw [Outlet.header]
  split
  · rfl
  · simp only [Outlet.headerUnicast, Outlet.headerMulticast, huni, hmulti, List.append_nil]

/-- A block control frame is sent by the outlet and reported. -/
theorem forwardBlock_eq (raw : Bytes) (bf : BlockFrame) :
    w.forwardBlock cfg raw bf env =
      finish cfg w.downstream env.net (w.intake, Intake.block env.readings raw bf) := by
  have hheader : (if w.headerEgr.isSome ∨ w.headerMCastEgr.isSome then
        (w.unicast (w.egr.sendBlock raw bf env.unicast)).1.emitBlockHeader cfg bf env
      else ((w.unicast (w.egr.sendBlock raw bf env.unicast)).1, [])) =
      (w.unicast (w.egr.sendBlock raw bf env.unicast)).1.emitBlockHeader cfg bf env := by
    split
    · rfl
    · rename_i h
      rw [not_or, Option.not_isSome_iff_eq_none, Option.not_isSome_iff_eq_none] at h
      rw [emitBlockHeader_eq, header_eq_of_none h.1 h.2]
      rfl
  rw [forwardBlock, hheader, emitBlockHeader_eq, Intake.block, finish_parcel]
  rfl

/-- A subtree data frame is dealt with by the two stages. -/
theorem forwardSubtreeData_eq (raw : Bytes) (sf : SubtreeDataFrame) :
    w.forwardSubtreeData cfg raw sf env =
      finish cfg w.downstream env.net (w.intake, Intake.subtreeData env.readings raw sf) := by
  rw [forwardSubtreeData, Intake.subtreeData, finish_parcel]
  rfl

/-- The hook or callback of a buffer event. -/
theorem deliver_eq (ev : Reassembly.Event) :
    w.deliver cfg env ev =
      finish cfg w.downstream env.net
        (w.intake, Intake.reassembled cfg w.filt env.readings ev) := by
  cases ev with
  | started => rfl
  | abandoned => rfl
  | hashMismatch => rfl
  | complete f =>
      simp only [deliver, deliverReassembled, Intake.reassembled, Env.readings_filterNow]
      cases w.filt.allow env.filterNow (cfg.codec.groupIndex f.txID) f with
      | some reason => rfl
      | none =>
          cases cfg.codec.encode f (headerSize + f.payload.length) with
          | none => rfl
          | some raw =>
              simp only [finish_count, finish_parcel]
              rfl
  | completeBlock bf =>
      rw [deliver, deliverReassembledBlock, Intake.reassembled]
      cases cfg.codec.encodeBlock bf (headerSize + bf.payload.length) with
      | none => rfl
      | some raw => simp only [finish_count, forwardBlock_eq]
  | completeSubtree sf =>
      rw [deliver, deliverReassembledSubtreeData, Intake.reassembled]
      cases cfg.codec.encodeSubtreeData sf (headerSize + sf.payload.length) with
      | none => rfl
      | some raw => simp only [finish_count, forwardSubtreeData_eq]

/-- The hooks and callbacks of some buffer events, in order. They do not touch the intake. -/
theorem deliverAll_eq (evs : List Reassembly.Event) :
    w.deliverAll cfg env evs =
      finish cfg w.downstream env.net
        (w.intake, evs.flatMap (Intake.reassembled cfg w.filt env.readings)) := by
  induction evs generalizing w with
  | nil => rfl
  | cons ev evs ih =>
      rw [deliverAll, List.flatMap_cons, finish_append, deliver_eq]
      simp only [ih]
      rfl

/-- A BRC-130 datagram. -/
theorem processFragment_eq (raw : Bytes) :
    w.processFragment cfg raw env =
      finish cfg w.downstream env.net (w.intake.fragment cfg raw env.readings) := by
  obtain ⟨_, _, _, _, _, _, _, reassemBuf⟩ := w
  cases reassemBuf with
  | none => rfl
  | some b =>
      simp only [processFragment, Intake.fragment, intake]
      cases cfg.codec.decodeFragment raw with
      | none => rfl
      | some ff => exact deliverAll_eq _

/-- The duplicate check is the intake's. -/
theorem suppress_eq (groupIdx : UInt32) (f : Frame) :
    w.suppress groupIdx f env =
      let out := w.intake.suppress groupIdx f env.readings
      (assemble out.1 w.downstream, out.2) := by
  obtain ⟨_, _, _, _, _, _, dedupSet, _⟩ := w
  cases dedupSet with
  | none => rfl
  | some s =>
      simp only [suppress, Intake.suppress, intake, Env.readings_dedupNow]
      split <;> rfl

/-- A decoded transaction frame. -/
theorem processTransaction_eq (raw : Bytes) (f : Frame) :
    w.processTransaction cfg raw f env =
      finish cfg w.downstream env.net (w.intake.transaction cfg raw f env.readings) := by
  have hfilt : w.intake.filt = w.filt := rfl
  simp only [processTransaction, Intake.transaction, hfilt, Env.readings_filterNow, suppress_eq]
  split
  · rfl
  · cases w.filt.allow env.filterNow (cfg.codec.groupIndex f.txID) f with
    | some reason => rfl
    | none =>
        simp only
        split
        · rfl
        · by_cases hver : f.version = frameVerV2
          · simp only [hver, true_and, if_true, finish_count, finish_parcel]
            rfl
          · simp only [hver, false_and, if_false, finish_count]
            exact Prod.ext rfl (congrArg (List.cons _) (List.append_nil _).symm)

/-- One datagram. -/
theorem processFrame_eq (raw : Bytes) :
    w.processFrame cfg raw env =
      finish cfg w.downstream env.net (w.intake.datagram cfg raw env.readings) := by
  rw [processFrame, Intake.datagram]
  split
  · rw [processBlockFrame]
    cases cfg.codec.decodeBlock raw with
    | none => rfl
    | some bf => simp only [finish_count, forwardBlock_eq]
  · split
    · rw [processSubtreeDataFrame]
      cases cfg.codec.decodeSubtreeData raw with
      | none => rfl
      | some sf => simp only [finish_count, forwardSubtreeData_eq]
    · split
      · exact processFragment_eq raw
      · cases cfg.codec.decode raw with
        | none => rfl
        | some f => exact processTransaction_eq raw f

/-- **One step**: the first stage takes the operation, the second one what it makes of it. -/
theorem step_eq (op : Op) :
    w.step cfg op = finish cfg w.downstream op.net (w.intake.step cfg op.intake) := by
  cases op with
  | datagram raw env => exact processFrame_eq raw
  | tick env =>
      obtain ⟨_, _, _, _, _, _, _, reassemBuf⟩ := w
      cases reassemBuf with
      | none => rfl
      | some b => exact deliverAll_eq _
  | groups op => rfl
  | track c => rfl

/-! ### Runs -/

end Worker

/-- The first stage, on the operations of a worker: an item goes with the network outcomes of its
operation. -/
def Intake.deal (cfg : WorkerConfig) (i : Intake) (op : Worker.Op) : Intake × List (Net × Item) :=
  ((i.step cfg op.intake).1, (i.step cfg op.intake).2.map (op.net, ·))

variable {cfg : WorkerConfig}

/-- The first stage does not look at the network. -/
theorem Intake.run_deal (i : Intake) (ops : List Worker.Op) :
    Machine.run (Machine.next (Intake.deal cfg)) i ops =
      Machine.run (Machine.next (Intake.step cfg)) i (ops.map Worker.Op.intake) := by
  rw [Machine.run, Machine.run, List.foldl_map]
  rfl

/-- The items of the first stage, with the outcomes of the network dropped. -/
theorem Intake.map_outputs_deal (i : Intake) (ops : List Worker.Op) :
    (Machine.outputs (Intake.deal cfg) i ops).map Prod.snd =
      Machine.outputs (Intake.step cfg) i (ops.map Worker.Op.intake) := by
  induction ops generalizing i with
  | nil => rfl
  | cons op ops ih =>
      simp only [Machine.outputs, List.map_append, List.map_cons, ih, Intake.deal, List.map_map,
        Function.comp_def, List.map_id']

/-- The tracker of the second stage gets the calls among the items. -/
theorem Downstream.tracker_projects (cfg : WorkerConfig) :
    Machine.Projects (Machine.next (Downstream.step cfg))
      (fun t c => t.map fun t => Tracker.step cfg.tracker t c) Downstream.tracker
      fun e => e.2.call? := by
  rintro d ⟨net, item⟩
  cases item <;> rfl

namespace Worker

/-- **The step lemma**: an operation of the worker is one of the two stages in series. -/
theorem cascade_step (cfg : WorkerConfig) (w : Worker) (op : Op) :
    Machine.cascade (Intake.deal cfg) (Downstream.step cfg) (w.intake, w.downstream) op =
      (((w.step cfg op).1.intake, (w.step cfg op).1.downstream), (w.step cfg op).2) := by
  rw [step_eq]
  rfl

/-- **A run of a worker is a run of its first stage followed by a run of the second**: what the
first stage makes of the operations does not depend on what becomes of it. -/
theorem two_stages (w : Worker) (ops : List Op) :
    (w.after cfg ops).intake =
        Machine.run (Machine.next (Intake.step cfg)) w.intake (ops.map Op.intake) ∧
      (w.after cfg ops).downstream =
        Machine.run (Machine.next (Downstream.step cfg)) w.downstream
          (Machine.outputs (Intake.deal cfg) w.intake ops) ∧
      Machine.outputs (step cfg) w ops =
        Machine.outputs (Downstream.step cfg) w.downstream
          (Machine.outputs (Intake.deal cfg) w.intake ops) := by
  have hrun := Machine.run_of_view (fun w : Worker => (w.intake, w.downstream))
    (cascade_step cfg) w ops
  rw [Machine.run_cascade, Intake.run_deal, Prod.mk.injEq] at hrun
  refine ⟨hrun.1, hrun.2, ?_⟩
  rw [Machine.outputs_of_view (fun w : Worker => (w.intake, w.downstream)) (cascade_step cfg),
    Machine.outputs_cascade]

/-- The calls of the gap tracker in a run. -/
def calls (cfg : WorkerConfig) (w : Worker) (ops : List Op) : List Call :=
  (Machine.outputs (Intake.step cfg) w.intake (ops.map Op.intake)).filterMap Item.call?

/-- The tracker of a worker follows the calls of its first stage. -/
theorem tracker_after (w : Worker) (ops : List Op) :
    (w.after cfg ops).tracker =
      w.tracker.map fun t => Machine.run (Tracker.step cfg.tracker) t (w.calls cfg ops) := by
  have hrun := (Downstream.tracker_projects cfg).run w.downstream
    (Machine.outputs (Intake.deal cfg) w.intake ops)
  rw [← (two_stages w ops).2.1, Machine.run_option] at hrun
  rw [calls, ← Intake.map_outputs_deal, List.filterMap_map]
  exact hrun

end Worker

end ShardListener
