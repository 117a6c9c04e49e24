import ShardListener.Dedup
import ShardListener.Egress
import ShardListener.Filter
import ShardListener.Machine
import ShardListener.Reassembly
import ShardListener.Tracker

/-!
# The Receive Worker

The datagram pipeline of `listener/listener.go`. `Worker.processFrame` sends a datagram to the
block handler, the subtree data handler or the reassembly buffer, or takes it as a transaction
frame through payload verification, filter, duplicate suppression, the two egresses and the
gap tracker. The three `deliverReassembled` functions are the callbacks of the reassembly
buffer, wired as in `main.go`.

Conventions of the model:

* the functions of other packages (frame codec, shard engine, SHA-256) are a parameter
  (`Codec`); a codec function that can fail returns an `Option`;
* the clock readings, the random draws and the outcomes of the network calls a datagram may
  cause are its `Env`. A datagram completes one message at most, so one of each suffices;
* a handler returns the new worker and its `Effect`s, in order: what it hands to a sender, and
  what it counts. A worker without a metrics recorder behaves the same otherwise; log lines
  are left out.

`Worker.SameCore` is the frame condition of the handlers: who touches the filter, the duplicate
set and the buffer, and who does not.
-/

namespace ShardListener

/-! ### Parameters -/

/-- Size of the BRC-124/BRC-128, BRC-131 and BRC-132 frame headers. -/
def headerSize : ℕ := 92

/-- Size of a block header. -/
def blockHeaderSize : ℕ := 80

/-- `MsgType` of a block announcement. -/
def blockMsgAnnounce : UInt8 := 0x01

/-- Reserved group index of stripped block headers. -/
def ctrlGroupBlockHeader : UInt32 := 0xFFFA

/-- The functions of other packages a worker calls. An `encode` gets the length of the buffer
it fills and returns the buffer. -/
structure Codec where
  isBlockFrame : Bytes → Bool
  isSubtreeDataFrame : Bytes → Bool
  isFragment : Bytes → Bool
  decode : Bytes → Option Frame
  decodeBlock : Bytes → Option BlockFrame
  decodeSubtreeData : Bytes → Option SubtreeDataFrame
  decodeFragment : Bytes → Option FragFrame
  encode : Frame → ℕ → Option Bytes
  encodeBlock : BlockFrame → ℕ → Option Bytes
  encodeSubtreeData : SubtreeDataFrame → ℕ → Option Bytes
  groupIndex : Bytes32 → UInt32
  sha256 : Bytes → Bytes32

/-- What is fixed once a worker is set up. -/
structure WorkerConfig where
  codec : Codec
  tracker : TrackerConfig
  reassembly : Reassembly.Config
  verifyPayloadHash : Bool

/-- What the environment of a worker decides while it processes one datagram. -/
structure Env where
  filterNow : GroupClock
  dedupNow : Time
  trackerNow : Time
  bufferNow : Time
  draw : UInt64 → ℕ
  unicast : NetResult
  multicast : Bool
  header : NetResult
  headerMulticast : Bool

/-! ### Effects -/

/-- The version label of a received frame. -/
inductive FrameLabel
  | brc12
  | brc124
  | brc130
  | brc131
  | brc132
  | brc131Reassembled
  | brc132Reassembled
  deriving DecidableEq

/-- The protocol label of a forwarded frame. -/
inductive EgressLabel
  | unicast (proto : Proto)
  | udpMcast
  deriving DecidableEq

/-- What is counted. -/
inductive Metric
  | frameReceived (label : FrameLabel)
  | frameDropped (reason : DropReason)
  | frameForwarded (label : EgressLabel)
  | frameInvalidPayload
  | frameDeduped
  | egressError
  | mcEgressError
  | headerForwarded
  | headerEgressError
  | reassemblyStarted
  | reassemblyCompleted
  | reassemblyAbandoned
  | reassemblyHashMismatch
  deriving DecidableEq

/-- What a worker does to its surroundings: hand a buffer to a sender, or count an event. -/
inductive Effect
  | unicast (sent : Sent)
  | multicast (sent : SentTo)
  | headerUnicast (sent : Sent)
  | headerMulticast (sent : SentTo)
  | count (m : Metric)
  deriving DecidableEq

/-! ### State -/

/-- A worker. An absent component is disabled. -/
structure Worker where
  filt : Filter
  egr : EgressSender
  mcastEgr : Option MCastSender
  headerEgr : Option EgressSender
  headerMCastEgr : Option MCastSender
  tracker : Option Tracker
  dedupSet : Option DedupSet
  reassemBuf : Option Reassembly.Buffer

namespace Worker

variable (cfg : WorkerConfig)

/-! ### Shared steps -/

/-- The bookkeeping of a unicast send. -/
def unicast (w : Worker) (out : EgressSender × Sent) : Worker × List Effect :=
  ({ w with egr := out.1 },
    [.unicast out.2,
      .count (if out.2.ok then .frameForwarded (.unicast w.egr.proto) else .egressError)])

/-- Multicast egress of a frame, whatever the unicast outcome. -/
def multicast (w : Worker) (raw : Bytes) (f : Frame) (groupIdx : UInt32) (env : Env) :
    List Effect :=
  match w.mcastEgr with
  | none => []
  | some m =>
      [.multicast (m.send raw f groupIdx env.multicast),
        .count (if env.multicast then .frameForwarded .udpMcast else .mcEgressError)]

/-- `Tracker.Observe`, if there is a tracker. -/
def track (w : Worker) (groupIdx : UInt32) (subtreeID : Bytes32) (hashKey seqNum : UInt64)
    (env : Env) : Worker :=
  { w with
    tracker := w.tracker.map fun t => t.observe cfg.tracker
      { groupIdx := groupIdx, subtreeID := subtreeID, hashKey := hashKey, seqNum := seqNum,
        now := env.trackerNow, draw := env.draw } }

/-! ### Block control and subtree data -/

/-- Extract the header of an announced block and send it on as a stripped frame. -/
def emitBlockHeader (w : Worker) (bf : BlockFrame) (env : Env) : Worker × List Effect :=
  if bf.msgType ≠ blockMsgAnnounce then (w, [])
  else if bf.payload.length < blockHeaderSize then (w, [])
  else
    match cfg.codec.encodeBlock { bf with payload := bf.payload.take blockHeaderSize }
        (headerSize + blockHeaderSize) with
    | none => (w, [])
    | some buf =>
        let uni : Worker × List Effect :=
          match w.headerEgr with
          | none => (w, [])
          | some s =>
              let out := s.sendRaw buf env.header
              ({ w with headerEgr := some out.1 },
                [.headerUnicast out.2,
                  .count (if out.2.ok then .headerForwarded else .headerEgressError)])
        let multi : List Effect :=
          match w.headerMCastEgr with
          | none => []
          | some m =>
              [.headerMulticast (m.sendToGroup buf ctrlGroupBlockHeader env.headerMulticast),
                .count (if env.headerMulticast then .headerForwarded else .headerEgressError)]
        (uni.1, uni.2 ++ multi)

/-- The steps a received and a reassembled block control frame share: egress, header egress,
gap tracking on the control flow. Filter and duplicate suppression are bypassed. -/
def forwardBlock (w : Worker) (raw : Bytes) (bf : BlockFrame) (env : Env) :
    Worker × List Effect :=
  let uni := w.unicast (w.egr.sendBlock raw bf env.unicast)
  let header : Worker × List Effect :=
    if w.headerEgr.isSome ∨ w.headerMCastEgr.isSome then uni.1.emitBlockHeader cfg bf env
    else (uni.1, [])
  let tracked :=
    if bf.seqNum ≠ 0 then
      header.1.track cfg ctrlGroupControl (Bytes32.ofByte 0) bf.hashKey bf.seqNum env
    else header.1
  (tracked, uni.2 ++ header.2)

/-- The steps a received and a reassembled subtree data frame share. -/
def forwardSubtreeData (w : Worker) (raw : Bytes) (sf : SubtreeDataFrame) (env : Env) :
    Worker × List Effect :=
  let uni := w.unicast (w.egr.sendSubtreeData raw sf env.unicast)
  let tracked :=
    if sf.seqNum ≠ 0 then
      uni.1.track cfg ctrlGroupSubtreeAnnounce sf.subtreeID sf.hashKey sf.seqNum env
    else uni.1
  (tracked, uni.2)

/-- A BRC-131 datagram. -/
def processBlockFrame (w : Worker) (raw : Bytes) (env : Env) : Worker × List Effect :=
  match cfg.codec.decodeBlock raw with
  | none => (w, [.count (.frameDropped .decodeError)])
  | some bf =>
      let out := w.forwardBlock cfg raw bf env
      (out.1, .count (.frameReceived .brc131) :: out.2)

/-- A BRC-132 datagram. -/
def processSubtreeDataFrame (w : Worker) (raw : Bytes) (env : Env) : Worker × List Effect :=
  match cfg.codec.decodeSubtreeData raw with
  | none => (w, [.count (.frameDropped .decodeError)])
  | some sf =>
      let out := w.forwardSubtreeData cfg raw sf env
      (out.1, .count (.frameReceived .brc132) :: out.2)

/-! ### Callbacks of the reassembly buffer -/

/-- `DeliverReassembledBlock`: the frame is encoded again for egress. -/
def deliverReassembledBlock (w : Worker) (payload : Bytes) (bf : BlockFrame) (env : Env) :
    Worker × List Effect :=
  match cfg.codec.encodeBlock bf (headerSize + payload.length) with
  | none => (w, [.count .reassemblyCompleted])
  | some raw =>
      let out := w.forwardBlock cfg raw bf env
      (out.1, .count .reassemblyCompleted :: .count (.frameReceived .brc131Reassembled) :: out.2)

/-- `DeliverReassembledSubtreeData`. -/
def deliverReassembledSubtreeData (w : Worker) (payload : Bytes) (sf : SubtreeDataFrame)
    (env : Env) : Worker × List Effect :=
  match cfg.codec.encodeSubtreeData sf (headerSize + payload.length) with
  | none => (w, [.count .reassemblyCompleted])
  | some raw =>
      let out := w.forwardSubtreeData cfg raw sf env
      (out.1, .count .reassemblyCompleted :: .count (.frameReceived .brc132Reassembled) :: out.2)

/-- `DeliverReassembled`: a transaction frame built by the buffer passes the filter, is encoded
again, sent and tracked. -/
def deliverReassembled (w : Worker) (payload : Bytes) (f : Frame) (env : Env) :
    Worker × List Effect :=
  let groupIdx := cfg.codec.groupIndex f.txID
  match w.filt.allow env.filterNow groupIdx f with
  | some reason => (w, [.count .reassemblyCompleted, .count (.frameDropped reason)])
  | none =>
      match cfg.codec.encode f (headerSize + payload.length) with
      | none => (w, [.count .reassemblyCompleted, .count (.frameReceived .brc130)])
      | some raw =>
          let uni := w.unicast (w.egr.send raw f env.unicast)
          let multi := uni.1.multicast raw f groupIdx env
          let tracked :=
            if f.seqNum ≠ 0 then uni.1.track cfg groupIdx f.subtreeID f.hashKey f.seqNum env
            else uni.1
          (tracked, .count .reassemblyCompleted :: .count (.frameReceived .brc130) ::
            (uni.2 ++ multi))

/-- The hook or callback of a buffer event, as `main.go` registers them. -/
def deliver (w : Worker) (env : Env) : Reassembly.Event → Worker × List Effect
  | .started => (w, [.count .reassemblyStarted])
  | .abandoned => (w, [.count .reassemblyAbandoned])
  | .hashMismatch => (w, [.count .reassemblyHashMismatch])
  | .complete f => w.deliverReassembled cfg f.payload f env
  | .completeBlock bf => w.deliverReassembledBlock cfg bf.payload bf env
  | .completeSubtree sf => w.deliverReassembledSubtreeData cfg sf.payload sf env

/-- The hooks and callbacks of some buffer events, in order. -/
def deliverAll (w : Worker) (env : Env) : List Reassembly.Event → Worker × List Effect
  | [] => (w, [])
  | ev :: evs =>
      let out := w.deliver cfg env ev
      let rest := out.1.deliverAll env evs
      (rest.1, out.2 ++ rest.2)

/-! ### Datagrams -/

/-- A BRC-130 datagram. The callbacks run inside the buffer's `Observe` and do not touch the
buffer. -/
def processFragment (w : Worker) (raw : Bytes) (env : Env) : Worker × List Effect :=
  match w.reassemBuf with
  | none => (w, [.count (.frameDropped .noReassemblyBuffer)])
  | some b =>
      match cfg.codec.decodeFragment raw with
      | none => (w, [.count (.frameDropped .fragDecodeError)])
      | some ff =>
          let out := b.observe cfg.reassembly cfg.codec.sha256 env.bufferNow ff
          { w with reassemBuf := some out.1 }.deliverAll cfg env out.2

/-- Whether the frame is a duplicate; only stamped BRC-124/BRC-128 frames are looked up. -/
def suppress (w : Worker) (groupIdx : UInt32) (f : Frame) (env : Env) : Worker × Bool :=
  match w.dedupSet with
  | none => (w, false)
  | some s =>
      if f.version = frameVerV2 ∧ f.seqNum ≠ 0 then
        let out := s.seenAndAdd env.dedupNow ⟨groupIdx, f.subtreeID, f.seqNum⟩
        ({ w with dedupSet := some out.1 }, out.2)
      else (w, false)

/-- A decoded transaction frame. A duplicate skips egress and is still tracked. -/
def processTransaction (w : Worker) (raw : Bytes) (f : Frame) (env : Env) :
    Worker × List Effect :=
  let received : Effect :=
    .count (.frameReceived (if f.version = frameVerV2 then .brc124 else .brc12))
  if (cfg.verifyPayloadHash = true ∧ f.version = frameVerV2) ∧
      Reassembly.sha256d cfg.codec.sha256 f.payload ≠ f.txID then
    (w, [received, .count .frameInvalidPayload])
  else
    let groupIdx := cfg.codec.groupIndex f.txID
    match w.filt.allow env.filterNow groupIdx f with
    | some reason => (w, [received, .count (.frameDropped reason)])
    | none =>
        let dup := w.suppress groupIdx f env
        if dup.2 then
          (dup.1.track cfg groupIdx f.subtreeID f.hashKey f.seqNum env,
            [received, .count .frameDeduped])
        else
          let uni := dup.1.unicast (dup.1.egr.send raw f env.unicast)
          let multi := uni.1.multicast raw f groupIdx env
          let tracked :=
            if f.version = frameVerV2 ∧ f.seqNum ≠ 0 then
              uni.1.track cfg groupIdx f.subtreeID f.hashKey f.seqNum env
            else uni.1
          (tracked, received :: (uni.2 ++ multi))

/-- `processFrame`: one datagram. -/
def processFrame (w : Worker) (raw : Bytes) (env : Env) : Worker × List Effect :=
  if cfg.codec.isBlockFrame raw then w.processBlockFrame cfg raw env
  else if cfg.codec.isSubtreeDataFrame raw then w.processSubtreeDataFrame cfg raw env
  else if cfg.codec.isFragment raw then w.processFragment cfg raw env
  else
    match cfg.codec.decode raw with
    | none => (w, [.count (.frameDropped .decodeError)])
    | some f => w.processTransaction cfg raw f env

end Worker

/-! ### Runs -/

/-- An operation of the subtree group registry. -/
inductive GroupOp
  | add (now : Time) (groupID : GroupID) (subtreeID : Bytes32) (ttl : Duration)
  | remove (groupID : GroupID) (subtreeID : Bytes32)
  | evict (now : Time) (ord : RangeOrder GroupID) (ords : GroupID → RangeOrder Bytes32)

/-- One operation of the registry. -/
def GroupRegistry.step (r : GroupRegistry) : GroupOp → GroupRegistry
  | .add now groupID subtreeID ttl => r.add now groupID subtreeID ttl
  | .remove groupID subtreeID => r.remove groupID subtreeID
  | .evict now ord ords => (r.evict now ord ords).1

namespace Worker

/-- What happens to a worker: a datagram, the tick of its reassembly buffer, and the changes
other goroutines make to the shared group registry and tracker. -/
inductive Op
  | datagram (raw : Bytes) (env : Env)
  | tick (env : Env)
  | groups (op : GroupOp)
  | track (c : Call)

variable (cfg : WorkerConfig)

/-- One step of a worker. -/
def step (w : Worker) : Op → Worker × List Effect
  | .datagram raw env => w.processFrame cfg raw env
  | .tick env =>
      match w.reassemBuf with
      | none => (w, [])
      | some b =>
          let out := b.tick env.bufferNow
          { w with reassemBuf := some out.1 }.deliverAll cfg env out.2
  | .groups op =>
      ({ w with filt := { w.filt with groupReg := w.filt.groupReg.map fun r => r.step op } }, [])
  | .track c => ({ w with tracker := w.tracker.map fun t => t.step cfg.tracker c }, [])

/-- The worker after some operations. -/
def after (w : Worker) (ops : List Op) : Worker :=
  Machine.run (Machine.next (Worker.step cfg)) w ops

/-- The last operation is a step from where the others lead. -/
theorem after_snoc (w : Worker) (ops : List Op) (op : Op) :
    w.after cfg (ops ++ [op]) = ((w.after cfg ops).step cfg op).1 :=
  Machine.run_snoc _ _ _ _

/-! ### What the steps leave alone -/

/-- The two workers have the same filter, duplicate set and reassembly buffer. -/
structure SameCore (w w' : Worker) : Prop where
  filt : w'.filt = w.filt
  dedupSet : w'.dedupSet = w.dedupSet
  reassemBuf : w'.reassemBuf = w.reassemBuf

/-- A worker that is not changed keeps its core. -/
theorem SameCore.refl (w : Worker) : SameCore w w := ⟨rfl, rfl, rfl⟩

/-- Steps that keep the core may follow each other. -/
theorem SameCore.trans {w w' w'' : Worker} (h : SameCore w w') (h' : SameCore w' w'') :
    SameCore w w'' :=
  ⟨h'.filt.trans h.filt, h'.dedupSet.trans h.dedupSet, h'.reassemBuf.trans h.reassemBuf⟩

variable {cfg} {w : Worker} {env : Env}

/-- A unicast send changes the sender and the counters. -/
theorem unicast_sameCore (out : EgressSender × Sent) : SameCore w (w.unicast out).1 :=
  ⟨rfl, rfl, rfl⟩

/-- A report to the gap tracker changes the tracker. -/
theorem track_sameCore (groupIdx : UInt32) (subtreeID : Bytes32) (hashKey seqNum : UInt64) :
    SameCore w (w.track cfg groupIdx subtreeID hashKey seqNum env) := ⟨rfl, rfl, rfl⟩

/-- Header egress changes its own sender at most. -/
theorem emitBlockHeader_sameCore (bf : BlockFrame) :
    SameCore w (w.emitBlockHeader cfg bf env).1 := by
  rw [emitBlockHeader]
  split
  · exact .refl w
  split
  · exact .refl w
  split
  · exact .refl w
  · dsimp only
    split
    · exact .refl w
    · exact ⟨rfl, rfl, rfl⟩

/-- A block control frame is forwarded without a look at the core. -/
theorem forwardBlock_sameCore (raw : Bytes) (bf : BlockFrame) :
    SameCore w (w.forwardBlock cfg raw bf env).1 := by
  rw [forwardBlock]
  dsimp only
  have huni := unicast_sameCore (w := w) (w.egr.sendBlock raw bf env.unicast)
  split
  · split
    · exact (huni.trans (emitBlockHeader_sameCore bf)).trans (track_sameCore _ _ _ _)
    · exact huni.trans (track_sameCore _ _ _ _)
  · split
    · exact huni.trans (emitBlockHeader_sameCore bf)
    · exact huni

/-- A subtree data frame is forwarded without a look at the core. -/
theorem forwardSubtreeData_sameCore (raw : Bytes) (sf : SubtreeDataFrame) :
    SameCore w (w.forwardSubtreeData cfg raw sf env).1 := by
  rw [forwardSubtreeData]
  dsimp only
  split
  · exact (unicast_sameCore _).trans (track_sameCore _ _ _ _)
  · exact unicast_sameCore _

/-- A block control datagram is not filtered, not suppressed and not reassembled. -/
theorem processBlockFrame_sameCore (raw : Bytes) :
    SameCore w (w.processBlockFrame cfg raw env).1 := by
  rw [processBlockFrame]
  split
  · exact .refl w
  · exact forwardBlock_sameCore raw _

/-- A subtree data datagram is not filtered, not suppressed and not reassembled. -/
theorem processSubtreeDataFrame_sameCore (raw : Bytes) :
    SameCore w (w.processSubtreeDataFrame cfg raw env).1 := by
  rw [processSubtreeDataFrame]
  split
  · exact .refl w
  · exact forwardSubtreeData_sameCore raw _

/-- A reassembled transaction passes the filter, but not the duplicate set. -/
theorem deliverReassembled_sameCore (payload : Bytes) (f : Frame) :
    SameCore w (w.deliverReassembled cfg payload f env).1 := by
  rw [deliverReassembled]
  dsimp only
  split
  · exact .refl w
  split
  · exact .refl w
  · dsimp only
    split
    · exact (unicast_sameCore _).trans (track_sameCore _ _ _ _)
    · exact unicast_sameCore _

/-- The callbacks of the buffer do not touch filter, duplicate set or buffer. -/
theorem deliver_sameCore (ev : Reassembly.Event) : SameCore w (w.deliver cfg env ev).1 := by
  cases ev with
  | started => exact .refl w
  | abandoned => exact .refl w
  | hashMismatch => exact .refl w
  | complete f => exact deliverReassembled_sameCore f.payload f
  | completeBlock bf =>
      rw [deliver, deliverReassembledBlock]
      split
      · exact .refl w
      · exact forwardBlock_sameCore _ bf
  | completeSubtree sf =>
      rw [deliver, deliverReassembledSubtreeData]
      split
      · exact .refl w
      · exact forwardSubtreeData_sameCore _ sf

/-- What the buffer delivers leaves the core as the buffer left it. -/
theorem deliverAll_sameCore (evs : List Reassembly.Event) :
    SameCore w (w.deliverAll cfg env evs).1 := by
  induction evs generalizing w with
  | nil => exact .refl w
  | cons ev evs ih => exact (deliver_sameCore ev).trans ih

end Worker

end ShardListener
