import ShardListener.AssocMap
import ShardListener.Machine
import ShardListener.Frame

/-!
# The Gap Tracker

The gap state machine of `nack/nack.go`: one `FlowState` for every `hashKey`, holding
the highest sequence number seen and the missing ones, each with its retry state. The
mutators are `observe` (a stamped frame arrived), `fill` and `cancelGap` (a gap was
answered), `advanceEndpoint` (a NACK attempt failed) and `sweepOnce` (the 100 ms
sweeper). `Call` enumerates them and `Tracker.step` runs one.

Conventions of the model:

* sequence numbers and flow keys are `UInt64`, so that `lastSeqNum + 1` and the
  `missing++` of the registration loop wrap as in the source;
* every clock reading is an argument, and the random hold-off of a new gap is computed
  from a draw that is an argument too;
* the iteration order over a map is a `RangeOrder`, arbitrary for every sweep and every
  flow;
* `Recorder` holds what an attached metrics recorder has counted; a tracker without one
  behaves the same in every other respect. Log lines are left out.
-/

namespace ShardListener

/-- Tuning parameters of the tracker. -/
structure TrackerConfig where
  jitterMax : Duration
  backoffMax : Duration
  maxRetries : ℤ
  gapTTL : Duration
  tailTTL : Duration
  seqResetThreshold : UInt64
  /-- With any other bound `rand.Int64N` panics at the first gap. -/
  jitterMax_mem : 0 ≤ jitterMax ∧ jitterMax < 2 ^ 63 - 1 := by decide

/-- Reserved group index of BRC-131 block control frames. -/
def ctrlGroupControl : UInt32 := 0xFFFE

/-- Reserved group index of BRC-132 subtree data frames. -/
def ctrlGroupSubtreeAnnounce : UInt32 := 0xFFFB

/-- The flow label of the gap metrics. -/
inductive FlowLabel
  | brc124
  | brc131
  | brc132
  deriving DecidableEq

/-- The label of a flow is decided by its group index. -/
def flowLabel (groupIdx : UInt32) : FlowLabel :=
  if groupIdx = ctrlGroupControl then .brc131
  else if groupIdx = ctrlGroupSubtreeAnnounce then .brc132
  else .brc124

/-! ### Metrics -/

/-- One more event under the label `l`. -/
def bump (c : FlowLabel → ℕ) (l : FlowLabel) : FlowLabel → ℕ :=
  fun l' => if l' = l then c l' + 1 else c l'

/-- The gap counters of the metrics recorder, by flow label. -/
structure Recorder where
  gapsDetected : FlowLabel → ℕ
  gapsSuppressed : FlowLabel → ℕ
  gapsUnrecovered : FlowLabel → ℕ
  nacksDispatched : FlowLabel → ℕ

namespace Recorder

/-- A recorder that has counted nothing. -/
def zero : Recorder := ⟨fun _ => 0, fun _ => 0, fun _ => 0, fun _ => 0⟩

/-- A newly detected sequence gap. -/
def gapDetected (r : Recorder) (l : FlowLabel) : Recorder :=
  { r with gapsDetected := bump r.gapsDetected l }

/-- A gap cancelled by a retransmit or an ACK. -/
def gapSuppressed (r : Recorder) (l : FlowLabel) : Recorder :=
  { r with gapsSuppressed := bump r.gapsSuppressed l }

/-- A gap given up. -/
def gapUnrecovered (r : Recorder) (l : FlowLabel) : Recorder :=
  { r with gapsUnrecovered := bump r.gapsUnrecovered l }

/-- A NACK datagram sent to a retry endpoint. -/
def nackDispatched (r : Recorder) (l : FlowLabel) : Recorder :=
  { r with nacksDispatched := bump r.nacksDispatched l }

end Recorder

/-! ### State -/

/-- Retry state of one missing frame. -/
structure GapEntry where
  hashKey : UInt64
  seqNum : UInt64
  groupIdx : UInt32
  subtreeID : Bytes32
  retries : ℕ
  nextAttempt : Time
  deadline : Time
  endpointIdx : ℕ
  deriving DecidableEq

/-- One active per-flow sequence stream. `pending` is keyed by the missing sequence
number. -/
structure FlowState where
  lastSeqNum : UInt64
  groupIdx : UInt32
  subtreeID : Bytes32
  flowType : FlowLabel
  pending : AssocMap UInt64 GapEntry
  lastSeen : Time
  deriving DecidableEq

/-- The tracker: the flows by `hashKey`, the bounded queue of gaps ready for dispatch,
and the attached recorder. -/
structure Tracker where
  flows : AssocMap UInt64 FlowState
  nackQueue : List GapEntry
  recorder : Recorder

/-- Capacity of `nackQueue`. -/
def nackQueueCap : ℕ := 4096

/-- How long `sendNACK` waits for a response. -/
def respTimeout : Duration := 300 * millisecond

/-- Bound on concurrent `sendNACK` goroutines. -/
def maxConcurrent : ℕ := 64

/-- A tracker without flows. -/
def Tracker.new : Tracker := ⟨∅, [], Recorder.zero⟩

/-! ### Observe -/

/-- The arguments of one `Observe` call, with the clock reading and the random draws it
makes (one for each gap it may register). -/
structure Arrival where
  groupIdx : UInt32
  subtreeID : Bytes32
  hashKey : UInt64
  seqNum : UInt64
  now : Time
  draw : UInt64 → ℕ

/-- The effective restart threshold. -/
def TrackerConfig.resetThreshold (cfg : TrackerConfig) : UInt64 :=
  if cfg.seqResetThreshold = 0 then 100 else cfg.seqResetThreshold

/-- `rand.Int64N(n)`, which panics unless `n` is positive: every value in `[0, n)` is some draw. -/
def int64N (draw : ℕ) (n : ℤ) (_hn : 0 < n) : ℤ := (draw : ℤ) % n

/-- The state of a flow whose first frame is arriving. -/
def FlowState.fresh (a : Arrival) : FlowState where
  lastSeqNum := 0
  groupIdx := a.groupIdx
  subtreeID := a.subtreeID
  flowType := flowLabel a.groupIdx
  pending := ∅
  lastSeen := a.now

/-- The entry registered for the missing sequence number `missing`. -/
def GapEntry.fresh (cfg : TrackerConfig) (a : Arrival) (missing : UInt64) : GapEntry where
  hashKey := a.hashKey
  seqNum := missing
  groupIdx := a.groupIdx
  subtreeID := a.subtreeID
  retries := 0
  nextAttempt := a.now +
    int64N (a.draw missing) (cfg.jitterMax + 1) (Int.lt_add_one_of_le cfg.jitterMax_mem.1)
  deadline := a.now + cfg.gapTTL
  endpointIdx := 0

/-- The values a loop variable takes from `missing` while it is below `seqNum`, with the
wrapping increment of the source and at most `fuel` iterations. -/
def countUp : ℕ → UInt64 → UInt64 → List UInt64
  | 0, _, _ => []
  | fuel + 1, missing, seqNum =>
      if missing < seqNum then missing :: countUp fuel (missing + 1) seqNum else []

/-- The values of the registration loop between the last and the arriving sequence
number. -/
def missingSeqs (last seqNum : UInt64) : List UInt64 :=
  countUp seqNum.toNat (last + 1) seqNum

/-- The body of the registration loop: a missing number that is not pending yet is
registered and counted. -/
def registerGap (cfg : TrackerConfig) (a : Arrival) (label : FlowLabel)
    (acc : AssocMap UInt64 GapEntry × Recorder) (missing : UInt64) :
    AssocMap UInt64 GapEntry × Recorder :=
  if missing ∈ acc.1 then acc
  else (acc.1.insert missing (GapEntry.fresh cfg a missing), acc.2.gapDetected label)

namespace FlowState

/-- Close the pending gap at `seqNum`, if there is one. -/
def autoFill (fs : FlowState) (r : Recorder) (seqNum : UInt64) : FlowState × Recorder :=
  if seqNum ∈ fs.pending then
    ({ fs with pending := fs.pending.erase seqNum }, r.gapSuppressed fs.flowType)
  else (fs, r)

/-- The steps of `Observe` after the auto-fill: first frame, duplicate or restart,
contiguous, gap. -/
def track (cfg : TrackerConfig) (a : Arrival) (fs : FlowState) (r : Recorder) :
    FlowState × Recorder :=
  if fs.lastSeqNum = 0 then ({ fs with lastSeqNum := a.seqNum }, r)
  else if a.seqNum ≤ fs.lastSeqNum then
    if a.seqNum ≤ cfg.resetThreshold ∧ cfg.resetThreshold < fs.lastSeqNum then
      -- proxy restart: every pending gap is given up and the counter starts over
      ({ fs with pending := ∅, lastSeqNum := a.seqNum },
        (fun r => r.gapUnrecovered fs.flowType)^[fs.pending.size] r)
    else (fs, r)
  else if a.seqNum = fs.lastSeqNum + 1 then ({ fs with lastSeqNum := a.seqNum }, r)
  else
    let out := (missingSeqs fs.lastSeqNum a.seqNum).foldl
      (registerGap cfg a fs.flowType) (fs.pending, r)
    ({ fs with pending := out.1, lastSeqNum := a.seqNum }, out.2)

/-- What `Observe` does to the flow of the arriving frame. -/
def observe (cfg : TrackerConfig) (a : Arrival) (fs : FlowState) (r : Recorder) :
    FlowState × Recorder :=
  let out := { fs with lastSeen := a.now }.autoFill r a.seqNum
  out.1.track cfg a out.2

end FlowState

namespace Tracker

/-- `Tracker.Observe`. Unstamped frames are ignored; the flow is created on its first
frame. The `txid` argument of the source is not read there and is left out. -/
def observe (cfg : TrackerConfig) (t : Tracker) (a : Arrival) : Tracker :=
  if a.seqNum = 0 then t
  else
    let fs := (t.flows.lookup a.hashKey).getD (FlowState.fresh a)
    let out := fs.observe cfg a t.recorder
    { t with flows := t.flows.insert a.hashKey out.1, recorder := out.2 }

/-! ### Fill and cancelGap -/

/-- Delete a pending gap and count it as suppressed under `label`; nothing happens when
the flow or the gap is gone. -/
def closeGap (t : Tracker) (hashKey seqNum : UInt64) (label : FlowState → FlowLabel) :
    Tracker :=
  match t.flows.lookup hashKey with
  | none => t
  | some fs =>
      if seqNum ∈ fs.pending then
        { t with
          flows := t.flows.insert hashKey { fs with pending := fs.pending.erase seqNum }
          recorder := t.recorder.gapSuppressed (label fs) }
      else t

/-- `Tracker.Fill`: a retransmitted frame arrived out of band. -/
def fill (t : Tracker) (hashKey seqNum : UInt64) : Tracker :=
  if seqNum = 0 then t else t.closeGap hashKey seqNum FlowState.flowType

/-- `Tracker.cancelGap`: an ACK for the copy `e` arrived. The label is taken from the
copy, not from the flow. -/
def cancelGap (t : Tracker) (e : GapEntry) : Tracker :=
  t.closeGap e.hashKey e.seqNum fun _ => flowLabel e.groupIdx

/-! ### advanceEndpoint -/

/-- Two's complement wrap-around of 64-bit signed arithmetic. -/
def wrap64 (x : ℤ) : ℤ := x.bmod (2 ^ 64)

/-- The hold-off of the backoff path after `retries` failed attempts. -/
def backoff (cfg : TrackerConfig) (retries : ℕ) : Duration :=
  let delay := wrap64 (wrap64 (wrap64 (2 ^ retries) * 500) * millisecond)
  if delay > cfg.backoffMax then cfg.backoffMax else delay

/-- The retry state of an entry after a failed attempt: one more retry, the next
endpoint, and either an immediate new attempt or the backoff. -/
def advanceEntry (cfg : TrackerConfig) (now : Time) (immediate : Bool) (numEndpoints : ℕ)
    (e : GapEntry) : GapEntry :=
  let retries := e.retries + 1
  let endpointIdx := e.endpointIdx + 1
  let exhausted := 0 < numEndpoints ∧ numEndpoints ≤ endpointIdx
  { e with
    retries := retries
    endpointIdx := endpointIdx
    nextAttempt := if immediate ∧ ¬ exhausted then now else now + backoff cfg retries }

/-- `Tracker.advanceEndpoint`: the attempt made with the copy `e` failed. The entry is
found again by its key. -/
def advanceEndpoint (cfg : TrackerConfig) (t : Tracker) (now : Time) (e : GapEntry)
    (immediate : Bool) (numEndpoints : ℕ) : Tracker :=
  match t.flows.lookup e.hashKey with
  | none => t
  | some fs =>
      match fs.pending.lookup e.seqNum with
      | none => t
      | some entry =>
          { t with
            flows := t.flows.insert e.hashKey { fs with
              pending := fs.pending.insert e.seqNum
                (advanceEntry cfg now immediate numEndpoints entry) } }

/-! ### sweepOnce -/

/-- The map orders one sweep iterates in. -/
structure SweepOrder where
  flows : RangeOrder UInt64
  gaps : UInt64 → RangeOrder UInt64

/-- Idle time after which a flow without gaps is dropped. -/
def flowTTL (cfg : TrackerConfig) : Duration :=
  if cfg.tailTTL ≤ 0 then cfg.gapTTL else cfg.tailTTL

/-- The `nextAttempt` stamped on an entry that is enqueued at `now`. -/
def stamp (now : Time) : Time := now + (respTimeout + 100 * millisecond)

/-- The inner loop body of the sweeper. The accumulator is the queue and the recorder:
an overdue or exhausted entry is deleted, a due one is stamped and copied into the queue
if there is room. -/
def sweepGap (cfg : TrackerConfig) (now : Time) (label : FlowLabel)
    (acc : List GapEntry × Recorder) (_seq : UInt64) (e : GapEntry) :
    (List GapEntry × Recorder) × Option GapEntry :=
  if e.deadline < now then ((acc.1, acc.2.gapUnrecovered label), none)
  else if cfg.maxRetries ≤ e.retries then ((acc.1, acc.2.gapUnrecovered label), none)
  else if e.nextAttempt < now then
    if acc.1.length < nackQueueCap then
      ((acc.1 ++ [{ e with nextAttempt := stamp now }], acc.2),
        some { e with nextAttempt := stamp now })
    else (acc, some { e with nextAttempt := now })
  else (acc, some e)

/-- The outer loop body of the sweeper: all gaps of one flow, then the flow itself when
nothing is pending and it has been idle for too long. -/
def sweepFlow (cfg : TrackerConfig) (now : Time) (ord : SweepOrder)
    (acc : List GapEntry × Recorder) (hk : UInt64) (fs : FlowState) :
    (List GapEntry × Recorder) × Option FlowState :=
  let out := fs.pending.range (ord.gaps hk) (sweepGap cfg now fs.flowType) acc
  if out.2.size = 0 ∧ now - fs.lastSeen > flowTTL cfg then (out.1, none)
  else (out.1, some { fs with pending := out.2 })

/-- `Tracker.sweepOnce`. -/
def sweepOnce (cfg : TrackerConfig) (t : Tracker) (now : Time) (ord : SweepOrder) : Tracker :=
  let out := t.flows.range ord.flows (sweepFlow cfg now ord) (t.nackQueue, t.recorder)
  ⟨out.2, out.1.1, out.1.2⟩

/-! ### Readouts -/

/-- The pending gap `seqNum` of the flow `hashKey`. -/
def gap (t : Tracker) (hashKey seqNum : UInt64) : Option GapEntry :=
  (t.flows.lookup hashKey).bind fun fs => fs.pending.lookup seqNum

/-- `Tracker.PendingGaps`. -/
def pendingGaps (t : Tracker) : ℕ := t.flows.weight fun fs => fs.pending.size

/-- `Tracker.ActiveFlows`. -/
def activeFlows (t : Tracker) : ℕ := t.flows.size

end Tracker

/-! ### Calls -/

/-- A call of one of the tracker's mutators, with the readings it makes. `dequeue` is the
receive of the dispatch loop and `nackDispatched` the metric of a sent NACK. -/
inductive Call
  | observe (a : Arrival)
  | fill (hashKey seqNum : UInt64)
  | cancelGap (e : GapEntry)
  | advanceEndpoint (now : Time) (e : GapEntry) (immediate : Bool) (numEndpoints : ℕ)
  | sweepOnce (now : Time) (ord : Tracker.SweepOrder)
  | dequeue
  | nackDispatched (groupIdx : UInt32)

/-- Run one call. -/
def Tracker.step (cfg : TrackerConfig) (t : Tracker) : Call → Tracker
  | .observe a => t.observe cfg a
  | .fill hashKey seqNum => t.fill hashKey seqNum
  | .cancelGap e => t.cancelGap e
  | .advanceEndpoint now e immediate numEndpoints =>
      t.advanceEndpoint cfg now e immediate numEndpoints
  | .sweepOnce now ord => t.sweepOnce cfg now ord
  | .dequeue => { t with nackQueue := t.nackQueue.tail }
  | .nackDispatched groupIdx =>
      { t with recorder := t.recorder.nackDispatched (flowLabel groupIdx) }

/-- The state after a sequence of calls on a new tracker. -/
def Tracker.after (cfg : TrackerConfig) (calls : List Call) : Tracker :=
  Machine.run (Tracker.step cfg) Tracker.new calls

/-! ### Concrete inputs -/

/-- The configuration the tracker's tests use: default restart threshold, no hold-off. -/
def Tracker.testConfig : TrackerConfig where
  jitterMax := 0
  backoffMax := 5 * second
  maxRetries := 3
  gapTTL := 10 * second
  tailTTL := 0
  seqResetThreshold := 0

/-- A frame of flow `h` with number `s`, arriving at `now`. -/
def Tracker.arrivalAt (h s : UInt64) (now : Time) : Arrival where
  groupIdx := 0
  subtreeID := Bytes32.ofByte 0
  hashKey := h
  seqNum := s
  now := now
  draw := fun _ => 0

end ShardListener
