import ShardListener.Gaps
import ShardListener.Registry

/-!
# NACK Dispatch

The concurrent part of `nack/nack.go`, as one state machine over the tracker, the endpoint
registry, the entry `dispatchLoop` holds while it waits for the semaphore, and the running
`sendNACK` goroutines. An event is one atomic action of one goroutine: a mutator of the
tracker under its lock, a receive or a launch of the dispatcher, or the next action of one
sender. Events that are not enabled change nothing, so a list of events is any schedule.

The copies a gap has on the way, in the queue, held or with a sender, form one pipeline
(`flights`): entering it is the sweeper's step, leaving it the end of a `sendNACK`, and the
dispatcher's own steps do not change it.

## Main results

* `tracker_step`: every event acts on the tracker as one of its calls, or not at all.
* `flights_receive`, `flights_launch`, `flights_sweep`: the pipeline is first in, first
  out.
* `Motion`, `step_motion`: what an event can do to the gaps and to the pipeline.
-/

namespace ShardListener

/-- Message type of a NACK. -/
def msgTypeNACK : UInt8 := 0x10

/-- A NACK datagram. -/
structure Nack where
  msgType : UInt8
  hashKey : UInt64
  startSeq : UInt64
  endSeq : UInt64
  subtreeID : Bytes32
  deriving DecidableEq

/-- The NACK for the copy `e`. -/
def Nack.ofGap (e : GapEntry) : Nack := ⟨msgTypeNACK, e.hashKey, e.seqNum, e.seqNum, e.subtreeID⟩

/-- How far a `sendNACK` has come: not started, endpoint chosen from a snapshot of `n`
endpoints, or datagram sent and waiting for the response. -/
inductive Phase
  | starting
  | selected (endpoint : EndpointEntry) (n : ℕ)
  | awaiting (endpoint : EndpointEntry) (n : ℕ)
  deriving DecidableEq

/-- A `sendNACK` goroutine working on the copy `entry`. -/
structure Sender where
  entry : GapEntry
  phase : Phase
  deriving DecidableEq

/-- The tracker with everything that works on it. -/
structure System where
  tracker : Tracker
  registry : Registry
  held : Option GapEntry
  senders : List Sender

/-- An atomic action. `i` is the position of a sender among the running ones. -/
inductive Event
  | observe (a : Arrival)
  | fill (hashKey seqNum : UInt64)
  | sweep (now : Time) (ord : Tracker.SweepOrder)
  | receive
  | launch
  | select (i : ℕ) (ord : RangeOrder UInt32) (sort : SliceSort EndpointEntry.less)
  | send (i : ℕ)
  | fail (i : ℕ) (now : Time)
  | ack (i : ℕ)
  | miss (i : ℕ) (now : Time)
  | upsert (now : Time) (a : Advert)
  | evict (now : Time) (ord : RangeOrder UInt32)

/-- The endpoint of an attempt: the entry's index into the snapshot, clamped at the last
one; none when the snapshot is empty. -/
def selectEndpoint (snap : List EndpointEntry) (e : GapEntry) : Option EndpointEntry :=
  let idx := if snap.length ≤ e.endpointIdx then snap.length - 1 else e.endpointIdx
  snap[idx]?

namespace System

/-- Nothing is tracked, queued or running yet. -/
def start (r : Registry) : System := ⟨Tracker.new, r, none, []⟩

/-- The sender at `i` returns. -/
def finish (s : System) (i : ℕ) : System := { s with senders := s.senders.eraseIdx i }

/-- The sender at `i` moves on to `phase`. -/
def setPhase (s : System) (i : ℕ) (x : Sender) (phase : Phase) : System :=
  { s with senders := s.senders.set i { x with phase := phase } }

/-- `dispatchLoop` receives the next copy. -/
def receive (s : System) : System :=
  match s.held, s.tracker.nackQueue with
  | none, c :: rest => { s with held := some c, tracker := { s.tracker with nackQueue := rest } }
  | _, _ => s

/-- `dispatchLoop` gets the semaphore and starts a `sendNACK`. -/
def launch (s : System) : System :=
  match s.held with
  | some c =>
      if s.senders.length < maxConcurrent then
        { s with held := none, senders := s.senders ++ [⟨c, .starting⟩] }
      else s
  | none => s

/-- `sendNACK` takes its snapshot and chooses an endpoint; it returns when there is
none. -/
def select (s : System) (i : ℕ) (ord : RangeOrder UInt32)
    (sort : SliceSort EndpointEntry.less) : System :=
  match s.senders[i]? with
  | some ⟨e, .starting⟩ =>
      let out := s.registry.takeSnapshot ord sort
      let s := { s with registry := out.1 }
      match selectEndpoint out.2 e with
      | none => s.finish i
      | some endpoint => s.setPhase i ⟨e, .starting⟩ (.selected endpoint out.2.length)
  | _ => s

/-- `sendNACK` writes its datagram. -/
def send (s : System) (i : ℕ) : System :=
  match s.senders[i]? with
  | some ⟨e, .selected endpoint n⟩ =>
      let tracker := { s.tracker with
        recorder := s.tracker.recorder.nackDispatched (flowLabel e.groupIdx) }
      { s with tracker := tracker }.setPhase i ⟨e, .selected endpoint n⟩ (.awaiting endpoint n)
  | _ => s

/-- The attempt of sender `i` fails: the endpoint does not resolve, no socket, no response
in time, or an invalid one. -/
def fail (cfg : TrackerConfig) (s : System) (i : ℕ) (now : Time) : System :=
  match s.senders[i]? with
  | some ⟨e, .selected _ _⟩ | some ⟨e, .awaiting _ _⟩ =>
      { s with tracker := s.tracker.advanceEndpoint cfg now e false 0 }.finish i
  | _ => s

/-- The response is an ACK. -/
def ack (s : System) (i : ℕ) : System :=
  match s.senders[i]? with
  | some ⟨e, .awaiting _ _⟩ => { s with tracker := s.tracker.cancelGap e }.finish i
  | _ => s

/-- The response is a MISS. -/
def miss (cfg : TrackerConfig) (s : System) (i : ℕ) (now : Time) : System :=
  match s.senders[i]? with
  | some ⟨e, .awaiting _ n⟩ =>
      { s with tracker := s.tracker.advanceEndpoint cfg now e true n }.finish i
  | _ => s

/-- Run one event. -/
def step (cfg : TrackerConfig) (s : System) : Event → System
  | .observe a => { s with tracker := s.tracker.observe cfg a }
  | .fill hashKey seqNum => { s with tracker := s.tracker.fill hashKey seqNum }
  | .sweep now ord => { s with tracker := s.tracker.sweepOnce cfg now ord }
  | .receive => s.receive
  | .launch => s.launch
  | .select i ord sort => s.select i ord sort
  | .send i => s.send i
  | .fail i now => s.fail cfg i now
  | .ack i => s.ack i
  | .miss i now => s.miss cfg i now
  | .upsert now a => { s with registry := s.registry.upsert now a }
  | .evict now ord => { s with registry := s.registry.evict now ord }

/-- The datagram an event puts on the wire, with the endpoint it goes to. -/
def sends (s : System) : Event → Option (EndpointEntry × Nack)
  | .send i =>
      match s.senders[i]? with
      | some ⟨e, .selected endpoint _⟩ => some (endpoint, Nack.ofGap e)
      | _ => none
  | _ => none

/-- The copies on the way, oldest first: with the senders, held by the dispatcher, in the
queue. -/
def flights (s : System) : List Sender :=
  s.senders ++ (s.held.toList ++ s.tracker.nackQueue).map (⟨·, .starting⟩)

/-- The entries of the copies on the way. -/
def copies (s : System) : List GapEntry := s.flights.map Sender.entry

/-- The state after a schedule. -/
def after (cfg : TrackerConfig) (r : Registry) (es : List Event) : System :=
  Machine.run (step cfg) (start r) es

/-! ### The tracker's view -/

/-- The tracker call an event makes, if any. -/
def call (s : System) : Event → Option Call
  | .observe a => some (.observe a)
  | .fill hashKey seqNum => some (.fill hashKey seqNum)
  | .sweep now ord => some (.sweepOnce now ord)
  | .receive =>
      match s.held, s.tracker.nackQueue with
      | none, _ :: _ => some .dequeue
      | _, _ => none
  | .send i =>
      match s.senders[i]? with
      | some ⟨e, .selected _ _⟩ => some (.nackDispatched e.groupIdx)
      | _ => none
  | .fail i now =>
      match s.senders[i]? with
      | some ⟨e, .selected _ _⟩ | some ⟨e, .awaiting _ _⟩ =>
          some (.advanceEndpoint now e false 0)
      | _ => none
  | .ack i =>
      match s.senders[i]? with
      | some ⟨e, .awaiting _ _⟩ => some (.cancelGap e)
      | _ => none
  | .miss i now =>
      match s.senders[i]? with
      | some ⟨e, .awaiting _ n⟩ => some (.advanceEndpoint now e true n)
      | _ => none
  | .launch | .select _ _ _ | .upsert _ _ | .evict _ _ => none

/-- **The system refines the tracker**: an event acts on the tracker as its call does. -/
theorem tracker_step (cfg : TrackerConfig) (s : System) (ev : Event) :
    (s.step cfg ev).tracker = (s.call ev).elim s.tracker (s.tracker.step cfg) := by
  cases ev with
  | observe | fill | sweep | upsert | evict => rfl
  | receive =>
      simp only [step, receive, call]
      split
      · rename_i c rest hheld hqueue
        rw [Option.elim_some, Tracker.step, hqueue]
        rfl
      · rfl
  | launch =>
      simp only [step, launch]
      split
      · split <;> rfl
      · rfl
  | select i ord sort =>
      simp only [step, select]
      split
      · rename_i e hi
        cases selectEndpoint (s.registry.takeSnapshot ord sort).2 e <;> rfl
      · rfl
  | send i =>
      simp only [step, send, call]
      split <;> rfl
  | fail i now =>
      simp only [step, fail, call]
      split <;> rfl
  | ack i =>
      simp only [step, ack, call]
      split <;> rfl
  | miss i now =>
      simp only [step, miss, call]
      split <;> rfl

/-- No event separates an entry from its key. -/
theorem keyed_step (cfg : TrackerConfig) {s : System} (h : s.tracker.Keyed) (ev : Event) :
    (s.step cfg ev).tracker.Keyed := by
  rw [tracker_step]
  cases s.call ev with
  | none => exact h
  | some c => exact h.step c

/-- Arrivals are passed on as they are. -/
theorem call_eq_observe {s : System} {ev : Event} {a : Arrival}
    (h : s.call ev = some (.observe a)) : ev = .observe a := by
  cases ev with
  | observe a' => rw [Call.observe.inj (Option.some.inj h)]
  | receive | send | fail | ack | miss =>
      simp only [call] at h
      split at h <;> cases h
  | _ => cases h

/-! ### The pipeline -/

section Pipeline

variable {s : System} {i : ℕ} {x : Sender}

/-- A sender's position in the pipeline. -/
theorem flights_getElem (hi : s.senders[i]? = some x) : s.flights[i]? = some x := by
  have hlt : i < s.senders.length := (List.getElem?_eq_some_iff.mp hi).1
  rw [flights, List.getElem?_append_left hlt, hi]

/-- A sender that returns leaves the pipeline; the tracker may change as long as its queue
does not. -/
theorem flights_finish (hi : s.senders[i]? = some x) (t : Tracker) (r : Registry)
    (hqueue : t.nackQueue = s.tracker.nackQueue) :
    ({ s with tracker := t, registry := r }.finish i).flights = s.flights.eraseIdx i := by
  have hlt : i < s.senders.length := (List.getElem?_eq_some_iff.mp hi).1
  rw [flights, flights, List.eraseIdx_append_of_lt_length hlt, ← hqueue]
  rfl

/-- A sender that moves on keeps its place. -/
theorem flights_setPhase (hi : s.senders[i]? = some x) (phase : Phase) (t : Tracker)
    (r : Registry) (hqueue : t.nackQueue = s.tracker.nackQueue) :
    ({ s with tracker := t, registry := r }.setPhase i x phase).flights =
      s.flights.set i { x with phase := phase } := by
  have hlt : i < s.senders.length := (List.getElem?_eq_some_iff.mp hi).1
  rw [flights, flights, List.set_append_left _ _ hlt, ← hqueue]
  rfl

/-- Receiving moves the oldest queued copy one place on. -/
theorem flights_receive (s : System) : s.receive.flights = s.flights := by
  rw [receive]
  split
  · rename_i c rest hheld hqueue
    rw [flights, flights, hheld, hqueue]
    rfl
  · rfl

/-- Launching moves the held copy one place on. -/
theorem flights_launch (s : System) : s.launch.flights = s.flights := by
  rw [launch]
  split
  · rename_i c hheld
    split
    · rw [flights, flights, hheld, List.append_assoc]
      rfl
    · rfl
  · rfl

/-- What a sweep enqueues joins the end of the pipeline. -/
theorem flights_sweep {t : Tracker} {new : List GapEntry}
    (hqueue : t.nackQueue = s.tracker.nackQueue ++ new) :
    { s with tracker := t }.flights = s.flights ++ new.map (⟨·, .starting⟩) := by
  simp only [flights, hqueue, List.map_append, List.append_assoc]

/-- Arrivals and retransmits leave the pipeline alone. -/
theorem flights_observe (cfg : TrackerConfig) (s : System) (a : Arrival) :
    { s with tracker := s.tracker.observe cfg a }.flights = s.flights := by
  rw [flights, Tracker.observe_nackQueue]
  rfl

/-- Filling a gap leaves the copies on the way alone. -/
theorem flights_fill (s : System) (hk k : UInt64) :
    { s with tracker := s.tracker.fill hk k }.flights = s.flights := by
  rw [flights, Tracker.fill_nackQueue]
  rfl

/-- Receiving and launching leave the gaps alone. -/
theorem gap_receive (s : System) : s.receive.tracker.gap = s.tracker.gap := by
  rw [receive]
  split <;> rfl

/-- Launching a copy leaves the gaps alone. -/
theorem gap_launch (s : System) : s.launch.tracker.gap = s.tracker.gap := by
  rw [launch]
  split
  · split <;> rfl
  · rfl

end Pipeline

/-- A sender works on a copy. -/
theorem mem_copies_of_sender {s : System} {i : ℕ} {x : Sender} (hi : s.senders[i]? = some x) :
    x.entry ∈ s.copies :=
  List.mem_map_of_mem (List.mem_of_getElem? (flights_getElem hi))

/-- Only copies on the way are cancelled. -/
theorem call_eq_cancelGap {s : System} {ev : Event} {e : GapEntry}
    (h : s.call ev = some (.cancelGap e)) : e ∈ s.copies := by
  cases ev with
  | ack i =>
      simp only [call] at h
      split at h
      · rename_i e' _ _ hi
        obtain rfl := Call.cancelGap.inj (Option.some.inj h)
        exact mem_copies_of_sender hi
      · cases h
  | receive | send | fail | miss =>
      simp only [call] at h
      split at h <;> cases h
  | _ => cases h

/-! ### What an event can do -/

/-- **The effect of an event** on the gaps and the pipeline. -/
inductive Motion (cfg : TrackerConfig) (s : System) : Event → System → Prop
  /-- Nothing happens to either. -/
  | rest {ev : Event} {s' : System} (hgap : s'.tracker.gap = s.tracker.gap)
      (hfl : s'.flights = s.flights) (hsends : s.sends ev = none) : Motion cfg s ev s'
  /-- A frame arrives. -/
  | observed (a : Arrival) :
      Motion cfg s (.observe a) { s with tracker := s.tracker.observe cfg a }
  /-- A retransmit arrives out of band. -/
  | filled (h m : UInt64) : Motion cfg s (.fill h m) { s with tracker := s.tracker.fill h m }
  /-- The sweeper runs. -/
  | swept (now : Time) (ord : Tracker.SweepOrder) :
      Motion cfg s (.sweep now ord) { s with tracker := s.tracker.sweepOnce cfg now ord }
  /-- A sender has chosen its endpoint. -/
  | selected {i : ℕ} {ord : RangeOrder UInt32} {sort : SliceSort EndpointEntry.less}
      {e : GapEntry} {endpoint : EndpointEntry} {s' : System}
      (hi : s.flights[i]? = some ⟨e, .starting⟩)
      (hsel : selectEndpoint (s.registry.takeSnapshot ord sort).2 e = some endpoint)
      (hgap : s'.tracker.gap = s.tracker.gap)
      (hfl : s'.flights = s.flights.set i
        ⟨e, .selected endpoint (s.registry.takeSnapshot ord sort).2.length⟩) :
      Motion cfg s (.select i ord sort) s'
  /-- A sender finds no endpoint. -/
  | dropped {i : ℕ} {ord : RangeOrder UInt32} {sort : SliceSort EndpointEntry.less}
      {e : GapEntry} {s' : System} (hi : s.flights[i]? = some ⟨e, .starting⟩)
      (hsel : selectEndpoint (s.registry.takeSnapshot ord sort).2 e = none)
      (hgap : s'.tracker.gap = s.tracker.gap) (hfl : s'.flights = s.flights.eraseIdx i) :
      Motion cfg s (.select i ord sort) s'
  /-- A datagram goes out. -/
  | sent {i : ℕ} {e : GapEntry} {endpoint : EndpointEntry} {n : ℕ} {s' : System}
      (hi : s.flights[i]? = some ⟨e, .selected endpoint n⟩)
      (hsends : s.sends (.send i) = some (endpoint, Nack.ofGap e))
      (hgap : s'.tracker.gap = s.tracker.gap)
      (hfl : s'.flights = s.flights.set i ⟨e, .awaiting endpoint n⟩) :
      Motion cfg s (.send i) s'
  /-- An attempt fails. -/
  | failed {i : ℕ} {now : Time} {x : Sender} {s' : System} (hi : s.senders[i]? = some x)
      (hgap : s'.tracker.gap = (s.tracker.advanceEndpoint cfg now x.entry false 0).gap)
      (hfl : s'.flights = s.flights.eraseIdx i) : Motion cfg s (.fail i now) s'
  /-- An attempt is answered by an ACK. -/
  | acked {i : ℕ} {e : GapEntry} {endpoint : EndpointEntry} {n : ℕ} {s' : System}
      (hi : s.senders[i]? = some ⟨e, .awaiting endpoint n⟩)
      (hgap : s'.tracker.gap = (s.tracker.cancelGap e).gap)
      (hfl : s'.flights = s.flights.eraseIdx i) : Motion cfg s (.ack i) s'
  /-- An attempt is answered by a MISS. -/
  | missed {i : ℕ} {now : Time} {e : GapEntry} {endpoint : EndpointEntry} {n : ℕ}
      {s' : System} (hi : s.senders[i]? = some ⟨e, .awaiting endpoint n⟩)
      (hgap : s'.tracker.gap = (s.tracker.advanceEndpoint cfg now e true n).gap)
      (hfl : s'.flights = s.flights.eraseIdx i) : Motion cfg s (.miss i now) s'

section Motion

variable {cfg : TrackerConfig} {s : System}

/-- A sender selects an endpoint, or ends because there is none. -/
theorem select_motion (i : ℕ) (ord : RangeOrder UInt32) (sort : SliceSort EndpointEntry.less) :
    Motion cfg s (.select i ord sort) (s.select i ord sort) := by
  rw [select]
  split
  · rename_i e hi
    have hfl := flights_getElem hi
    cases hsel : selectEndpoint (s.registry.takeSnapshot ord sort).2 e with
    | none =>
        simp only [hsel]
        exact .dropped hfl hsel rfl (flights_finish hi _ _ rfl)
    | some endpoint =>
        simp only [hsel]
        exact .selected hfl hsel rfl (flights_setPhase hi _ _ _ rfl)
  · exact .rest rfl rfl rfl

/-- A sender sends its NACK. -/
theorem send_motion (i : ℕ) : Motion cfg s (.send i) (s.send i) := by
  rw [send]
  split
  · rename_i e endpoint n hi
    refine .sent (flights_getElem hi) ?_ rfl (flights_setPhase hi _ _ _ rfl)
    simp only [sends, hi]
  · rename_i hno
    refine .rest rfl rfl ?_
    simp only [sends]

/-- A send fails. -/
theorem fail_motion (i : ℕ) (now : Time) : Motion cfg s (.fail i now) (s.fail cfg i now) := by
  rw [fail]
  split
  · rename_i e _ _ hi
    exact .failed hi rfl (flights_finish hi _ _ (by simp))
  · rename_i e _ _ hi
    exact .failed hi rfl (flights_finish hi _ _ (by simp))
  · exact .rest rfl rfl rfl

/-- A response acknowledges the NACK. -/
theorem ack_motion (i : ℕ) : Motion cfg s (.ack i) (s.ack i) := by
  rw [ack]
  split
  · rename_i e _ _ hi
    exact .acked hi rfl (flights_finish hi _ _ (by simp))
  · exact .rest rfl rfl rfl

/-- A response says that the frame is not there. -/
theorem miss_motion (i : ℕ) (now : Time) : Motion cfg s (.miss i now) (s.miss cfg i now) := by
  rw [miss]
  split
  · rename_i e _ n hi
    exact .missed hi rfl (flights_finish hi _ _ (by simp))
  · exact .rest rfl rfl rfl

/-- Every event is one of the motions. -/
theorem step_motion (cfg : TrackerConfig) (s : System) (ev : Event) :
    Motion cfg s ev (s.step cfg ev) := by
  cases ev with
  | observe a => exact .observed a
  | fill h m => exact .filled h m
  | sweep now ord => exact .swept now ord
  | receive => exact .rest (gap_receive s) (flights_receive s) rfl
  | launch => exact .rest (gap_launch s) (flights_launch s) rfl
  | select i ord sort => exact select_motion i ord sort
  | send i => exact send_motion i
  | fail i now => exact fail_motion i now
  | ack i => exact ack_motion i
  | miss i now => exact miss_motion i now
  | upsert now a => exact .rest rfl rfl rfl
  | evict now ord => exact .rest rfl rfl rfl

/-- **Where copies come from**: a copy on the way was so before, or the sweeper has just
taken it from a live and due entry. -/
theorem mem_copies_step (hkey : s.tracker.Keyed) {ev : Event} {c : GapEntry}
    (hc : c ∈ (s.step cfg ev).copies) :
    c ∈ s.copies ∨ ∃ now ord e, ev = .sweep now ord ∧
      s.tracker.gap c.hashKey c.seqNum = some e ∧ Tracker.Stamped cfg now e c := by
  obtain ⟨x, hx, rfl⟩ := List.mem_map.mp hc
  have hmove := step_motion cfg s ev
  generalize s.step cfg ev = s' at hx hmove
  -- a flight that was there before
  have hold : ∀ y ∈ s.flights, y.entry = x.entry → x.entry ∈ s.copies :=
    fun y hy hxy => hxy ▸ List.mem_map_of_mem hy
  cases hmove with
  | rest _ hfl _ => exact Or.inl (hold x (hfl ▸ hx) rfl)
  | observed a => exact Or.inl (hold x (flights_observe cfg s a ▸ hx) rfl)
  | filled h m => exact Or.inl (hold x (flights_fill s h m ▸ hx) rfl)
  | swept now ord =>
      obtain ⟨new, hqueue, -, hnew⟩ := Tracker.sweepOnce_nackQueue cfg hkey now ord
      rw [flights_sweep hqueue] at hx
      rcases List.mem_append.mp hx with hx | hx
      · exact Or.inl (hold x hx rfl)
      · obtain ⟨c, hc', rfl⟩ := List.mem_map.mp hx
        obtain ⟨e, he, -, hst⟩ := hnew c hc'
        exact Or.inr ⟨now, ord, e, rfl, he, hst⟩
  | selected hi _ _ hfl | sent hi _ _ hfl =>
      rw [hfl] at hx
      rcases List.mem_or_eq_of_mem_set hx with hx | rfl
      · exact Or.inl (hold x hx rfl)
      · exact Or.inl (hold _ (List.mem_of_getElem? hi) rfl)
  | dropped _ _ _ hfl | failed _ _ hfl | acked _ _ hfl | missed _ _ hfl =>
      rw [hfl] at hx
      exact Or.inl (hold x (List.mem_of_mem_eraseIdx hx) rfl)

end Motion

end System

end ShardListener
