import ShardListener.Announce
import ShardListener.Beacon
import ShardListener.Reports
import ShardListener.Requests
import ShardListener.Suppression

/-!
# The Process

What `main.go` starts, as one state machine: a number of workers, each with senders, duplicate
set and reassembly buffer of its own; the filter with its group registry, the gap tracker and
the endpoint registry, which all share; the two discovery listeners; the goroutines of the
tracker. An event is what one goroutine does between two points where others can interfere, and
a list of events is any schedule of all of them.

A worker handles a datagram in two steps. The first one reaches from the receive call to the
senders; from outside it reads the filter, once. Then the frame is reported to the tracker, under
the tracker's lock, and in the meantime other workers may report theirs (`Lane.waiting`). A
worker does not take the next datagram before it has reported the last one. The counters of the
discovery listeners are left out; `AnnounceListener.receive` has those of the first.

## Main results

* `Process.step_advances`, `Process.run_advances`: a worker among others does what it would do
  alone.
* `Process.waiting_step`, `Process.waiting_after`: a worker has one arrival at most to report.
* `Process.nacks_after`: the tracker follows a schedule of the arrivals that are reported.
* `Process.workers_isolated`: both, for the process that `main.go` starts.
-/

namespace ShardListener

/-! ### Workers -/

/-- What a worker does not share. `waiting` has the arrivals it has still to report. -/
structure Lane where
  dedupSet : Option DedupSet
  reassemBuf : Option Reassembly.Buffer
  outlet : Outlet
  waiting : List Arrival

namespace Lane

/-- The worker of a lane, up to the tracker. -/
def worker (filt : Filter) (l : Lane) : Worker :=
  .assemble ⟨filt, l.dedupSet, l.reassemBuf⟩ ⟨l.outlet, none⟩

/-- The lane of a worker. -/
def ofWorker (w : Worker) (waiting : List Arrival) : Lane :=
  ⟨w.dedupSet, w.reassemBuf, w.downstream.outlet, waiting⟩

/-- The worker does an operation, up to the tracker. -/
def work (cfg : WorkerConfig) (filt : Filter) (op : Worker.Op) (l : Lane) : Lane :=
  ofWorker ((l.worker filt).step cfg op).1 (l.waiting ++ (l.worker filt).arrivals cfg [op])

/-- The worker reports the next arrival. -/
def report (l : Lane) : Lane := { l with waiting := l.waiting.tail }

end Lane

/-! ### The state machine -/

/-- What is fixed once the process has started. A discovery listener may be disabled. -/
structure ProcessConfig where
  worker : WorkerConfig
  announce : Option AnnounceListener
  beaconEnabled : Bool

/-- The process. -/
structure Process where
  nacks : System
  filt : Filter
  lanes : List Lane

/-- The events that the goroutines of the tracker cause. -/
def Event.internal : Event → Bool
  | .observe _ | .fill _ _ | .upsert _ _ | .evict _ _ => false
  | _ => true

namespace Process

/-- What a goroutine does next: worker `i` or the ticker of its buffer, one of the discovery
listeners or its ticker, one of the goroutines of the tracker. -/
inductive Event
  | datagram (i : ℕ) (raw : Bytes) (env : Env)
  | observe (i : ℕ)
  | tick (i : ℕ) (env : Env)
  | announcement (now : Time) (ip raw : Bytes)
  | evictGroups (now : Time) (ord : RangeOrder GroupID) (ords : GroupID → RangeOrder Bytes32)
  | beacon (now : Time) (raw : Bytes)
  | evictEndpoints (now : Time) (ord : RangeOrder UInt32)
  | nack (ev : { ev : ShardListener.Event // ev.internal = true })

/-- What an event amounts to, if it is enabled. -/
inductive Action
  | datagram (i : ℕ) (raw : Bytes) (env : Env)
  | tick (i : ℕ) (env : Env)
  | observe (i : ℕ) (a : Arrival)
  | groups (op : GroupOp)
  | nacks (ev : ShardListener.Event)

/-- What the process does to its surroundings. -/
inductive Output
  | effect (i : ℕ) (e : Effect)
  | nack (endpoint : EndpointEntry) (nack : Nack)
  deriving DecidableEq

variable (cfg : ProcessConfig)

/-- The action of an event. -/
def action (p : Process) : Event → Option Action
  | .datagram i raw env =>
      p.lanes[i]?.bind fun l => if l.waiting = [] then some (.datagram i raw env) else none
  | .observe i => p.lanes[i]?.bind fun l => l.waiting.head?.map (.observe i)
  | .tick i env => some (.tick i env)
  | .announcement now ip raw => cfg.announce.bind fun l => (l.receive now ip raw).2.map .groups
  | .evictGroups now ord ords => cfg.announce.map fun _ => .groups (.evict now ord ords)
  | .beacon now raw =>
      if cfg.beaconEnabled then (Advert.ofBeacon raw).map fun a => .nacks (.upsert now a) else none
  | .evictEndpoints now ord => if cfg.beaconEnabled then some (.nacks (.evict now ord)) else none
  | .nack ev => some (.nacks ev.1)

/-- Worker `i` does an operation, up to the tracker. -/
def work (p : Process) (i : ℕ) (op : Worker.Op) : Process × List Output :=
  ({ p with lanes := p.lanes.modify i (Lane.work cfg.worker p.filt op) },
    p.lanes[i]?.elim [] fun l => ((l.worker p.filt).step cfg.worker op).2.map (.effect i))

/-- The effect of an action. -/
def act (p : Process) : Action → Process × List Output
  | .datagram i raw env => p.work cfg i (.datagram raw env)
  | .tick i env => p.work cfg i (.tick env)
  | .observe i a =>
      ({ p with
        nacks := p.nacks.step cfg.worker.tracker (.observe a)
        lanes := p.lanes.modify i Lane.report }, [])
  | .groups op =>
      ({ p with filt := { p.filt with groupReg := p.filt.groupReg.map fun r => r.step op } }, [])
  | .nacks ev =>
      ({ p with nacks := p.nacks.step cfg.worker.tracker ev },
        (p.nacks.sends ev).toList.map fun out => .nack out.1 out.2)

/-- One step. -/
def step (p : Process) (ev : Event) : Process × List Output :=
  (p.action cfg ev).elim (p, []) (p.act cfg)

/-- The process after a schedule. -/
def after (p : Process) (es : List Event) : Process := Machine.run (Machine.next (step cfg)) p es

/-- What it has done to its surroundings. -/
def outputs (p : Process) (es : List Event) : List Output := Machine.outputs (step cfg) p es

/-- The actions of a schedule. -/
def actions (p : Process) (es : List Event) : List Action :=
  Machine.logged (Machine.next (step cfg)) (fun p ev => (p.action cfg ev).toList) p es

/-! ### Views of a schedule -/

/-- What an action is to worker `i`. -/
def Action.op? (i : ℕ) : Action → Option Worker.Op
  | .datagram j raw env => if j = i then some (.datagram raw env) else none
  | .tick j env => if j = i then some (.tick env) else none
  | .groups op => some (.groups op)
  | _ => none

/-- The arrival an action reports, with the worker. -/
def Action.report? : Action → Option (ℕ × Arrival)
  | .observe i a => some (i, a)
  | _ => none

/-- The arrival an action reports for worker `i`. -/
def Action.reported? (i : ℕ) : Action → Option Arrival
  | .observe j a => if j = i then some a else none
  | _ => none

/-- What an action is to the tracker and the endpoint registry. -/
def Action.event? : Action → Option ShardListener.Event
  | .observe _ a => some (.observe a)
  | .nacks ev => some ev
  | _ => none

/-- The effect of worker `i` in an output. -/
def Output.effect? (i : ℕ) : Output → Option Effect
  | .effect j e => if j = i then some e else none
  | _ => none

end Process

/-! ### A worker among others -/

namespace Lane

variable {cfg : WorkerConfig} {filt : Filter} {l : Lane}

/-- A lane made from a worker without a tracker is that worker. -/
theorem worker_ofWorker {w : Worker} (htracker : w.tracker = none) (ws : List Arrival) :
    (ofWorker w ws).worker w.filt = w := by
  obtain ⟨_, _, _, _, _, tracker, _, _⟩ := w
  cases tracker with
  | none => rfl
  | some t => cases htracker

/-- The worker of a lane after an operation that leaves the filter alone. -/
theorem worker_work {op : Worker.Op} (hfilt : ((l.worker filt).step cfg op).1.filt = filt) :
    (l.work cfg filt op).worker filt = ((l.worker filt).step cfg op).1 := by
  have hw := worker_ofWorker (Worker.step_tracker cfg (w := l.worker filt) rfl op)
    (l.waiting ++ (l.worker filt).arrivals cfg [op])
  rw [hfilt] at hw
  exact hw

/-- The change of the shared filter is one of the worker's. -/
theorem worker_groups (op : GroupOp) :
    l.worker { filt with groupReg := filt.groupReg.map fun r => r.step op } =
      ((l.worker filt).step cfg (.groups op)).1 := rfl

/-- **A worker among others** comes from lane `l` to lane `l'` as it would alone, by the
operations `ops`: it makes their effects, and it has reported the arrivals they make, but for
those that wait. -/
structure Advances (cfg : WorkerConfig) (filt : Filter) (l : Lane) (ops : List Worker.Op)
    (effects : List Effect) (reported : List Arrival) (filt' : Filter) (l' : Lane) : Prop where
  worker : l'.worker filt' = (l.worker filt).after cfg ops
  effects : effects = Machine.outputs (Worker.step cfg) (l.worker filt) ops
  waiting : l.waiting ++ (l.worker filt).arrivals cfg ops = reported ++ l'.waiting

/-- A lane to which nothing happens. -/
theorem Advances.refl (cfg : WorkerConfig) (filt : Filter) (l : Lane) :
    Advances cfg filt l [] [] [] filt l :=
  ⟨rfl, rfl, List.append_nil _⟩

/-- A lane advances in one go as it does in two. -/
theorem Advances.trans {filt' filt'' : Filter} {l' l'' : Lane} {ops ops' : List Worker.Op}
    {effects effects' : List Effect} {reported reported' : List Arrival}
    (h : Advances cfg filt l ops effects reported filt' l')
    (h' : Advances cfg filt' l' ops' effects' reported' filt'' l'') :
    Advances cfg filt l (ops ++ ops') (effects ++ effects') (reported ++ reported') filt'' l'' where
  worker := by
    rw [h'.worker, h.worker]
    exact (Machine.run_append _ _ _ _).symm
  effects := by
    rw [h.effects, h'.effects, Machine.outputs_append, h.worker]
    rfl
  waiting := by
    rw [Worker.arrivals_append, ← h.worker, ← List.append_assoc, h.waiting, List.append_assoc,
      h'.waiting, List.append_assoc]

end Lane

namespace Process

variable {cfg : ProcessConfig} {p : Process} {i : ℕ} {l : Lane}

/-- The lanes after worker `j` has done something. -/
theorem work_advances (cfg : ProcessConfig) (hl : p.lanes[i]? = some l) (j : ℕ) {op : Worker.Op}
    (hfilt : ((l.worker p.filt).step cfg.worker op).1.filt = p.filt) :
    ∃ l', (p.work cfg j op).1.lanes[i]? = some l' ∧
      l.Advances cfg.worker p.filt (if j = i then [op] else [])
        ((p.work cfg j op).2.filterMap (Output.effect? i)) [] p.filt l' := by
  rw [work, List.getElem?_modify, hl]
  by_cases hji : j = i
  · subst hji
    rw [if_pos rfl]
    refine ⟨l.work cfg.worker p.filt op, by simp, Lane.worker_work hfilt, ?_, rfl⟩
    simp [hl, Output.effect?, List.filterMap_map, Function.comp_def, Machine.outputs]
  · refine ⟨l, by simp [hji], ?_⟩
    have hnone : (p.lanes[j]?.elim [] fun l =>
        ((l.worker p.filt).step cfg.worker op).2.map (Output.effect j)).filterMap
          (Output.effect? i) = [] := by
      cases p.lanes[j]? with
      | none => rfl
      | some l' => simp [Output.effect?, hji]
    rw [hnone, if_neg hji]
    exact .refl _ _ _

/-- A worker reports the first arrival that waits. -/
theorem waiting_of_observe (hl : p.lanes[i]? = some l) {ev : Event} {a : Arrival}
    (ha : p.action cfg ev = some (.observe i a)) : l.waiting = a :: l.waiting.tail := by
  cases ev with
  | observe j =>
      simp only [action, Option.bind_eq_some_iff, Option.map_eq_some_iff] at ha
      obtain ⟨l', hl', a', ha', heq⟩ := ha
      cases heq
      obtain rfl := Option.some.inj (hl.symm.trans hl')
      exact (List.cons_head?_tail ha').symm
  | datagram j raw env =>
      simp only [action, Option.bind_eq_some_iff] at ha
      obtain ⟨l', -, ha⟩ := ha
      split at ha <;> cases ha
  | tick | evictGroups | evictEndpoints | nack | announcement | beacon =>
      simp [action, Option.bind_eq_some_iff] at ha

/-- **The step lemma**: whatever happens, worker `i` does what it would do alone. -/
theorem step_advances (cfg : ProcessConfig) (hl : p.lanes[i]? = some l) (ev : Event) :
    ∃ l', (p.step cfg ev).1.lanes[i]? = some l' ∧
      l.Advances cfg.worker p.filt ((p.action cfg ev).toList.filterMap (Action.op? i))
        ((p.step cfg ev).2.filterMap (Output.effect? i))
        ((p.action cfg ev).toList.filterMap (Action.reported? i)) (p.step cfg ev).1.filt l' := by
  rw [step]
  cases ha : p.action cfg ev with
  | none => exact ⟨l, hl, .refl _ _ _⟩
  | some a =>
      cases a with
      | datagram j raw env =>
          have hops : [Action.datagram j raw env].filterMap (Action.op? i) =
              if j = i then [.datagram raw env] else [] := by
            by_cases hji : j = i <;> simp [Action.op?, hji]
          obtain ⟨l', hl', hadv⟩ := work_advances cfg hl j
            (Worker.step_datagram_filt (w := l.worker p.filt) raw env)
          rw [← hops] at hadv
          exact ⟨l', hl', hadv⟩
      | tick j env =>
          have hops : [Action.tick j env].filterMap (Action.op? i) =
              if j = i then [.tick env] else [] := by
            by_cases hji : j = i <;> simp [Action.op?, hji]
          obtain ⟨l', hl', hadv⟩ := work_advances cfg hl j
            (Worker.step_tick_filt (w := l.worker p.filt) env)
          rw [← hops] at hadv
          exact ⟨l', hl', hadv⟩
      | observe j a =>
          have hlanes : ((p.act cfg (.observe j a)).1.lanes)[i]? =
              if j = i then some l.report else some l := by
            rw [act, List.getElem?_modify, hl]
            split <;> rfl
          by_cases hji : j = i
          · subst hji
            rw [if_pos rfl] at hlanes
            have hreported : [Action.observe j a].filterMap (Action.reported? j) = [a] := by
              simp [Action.reported?]
            refine ⟨l.report, hlanes, rfl, rfl, ?_⟩
            rw [Option.toList_some, hreported]
            exact (List.append_nil _).trans (waiting_of_observe hl ha)
          · rw [if_neg hji] at hlanes
            have hreported : [Action.observe j a].filterMap (Action.reported? i) = [] := by
              simp [Action.reported?, hji]
            refine ⟨l, hlanes, ?_⟩
            rw [Option.toList_some, hreported]
            exact .refl _ _ _
      | groups op => exact ⟨l, hl, Lane.worker_groups op, rfl, List.append_nil _⟩
      | nacks ev =>
          have heffects : (p.act cfg (.nacks ev)).2.filterMap (Output.effect? i) = [] := by
            simp [act, Output.effect?]
          refine ⟨l, hl, ?_⟩
          rw [Option.elim_some, heffects]
          exact .refl _ _ _

/-- **The run lemma**: so over every schedule. -/
theorem run_advances (cfg : ProcessConfig) (hl : p.lanes[i]? = some l) (es : List Event) :
    ∃ l', (p.after cfg es).lanes[i]? = some l' ∧
      l.Advances cfg.worker p.filt ((p.actions cfg es).filterMap (Action.op? i))
        ((p.outputs cfg es).filterMap (Output.effect? i))
        ((p.actions cfg es).filterMap (Action.reported? i)) (p.after cfg es).filt l' := by
  induction es generalizing p l with
  | nil => exact ⟨l, hl, .refl _ _ _⟩
  | cons ev es ih =>
      obtain ⟨l', hl', hadv⟩ := step_advances cfg hl ev
      obtain ⟨l'', hl'', hadv'⟩ := ih hl'
      refine ⟨l'', hl'', ?_⟩
      rw [outputs, Machine.outputs, actions, Machine.logged_cons, List.filterMap_append,
        List.filterMap_append, List.filterMap_append]
      exact hadv.trans hadv'

/-- A worker does not take a datagram before it has reported the last one. -/
theorem waiting_of_datagram (hl : p.lanes[i]? = some l) {ev : Event} {raw : Bytes} {env : Env}
    (ha : p.action cfg ev = some (.datagram i raw env)) : l.waiting = [] := by
  cases ev with
  | datagram j raw' env' =>
      simp only [action, Option.bind_eq_some_iff, Option.ite_none_right_eq_some] at ha
      obtain ⟨l', hl', hidle, heq⟩ := ha
      cases heq
      obtain rfl := Option.some.inj (hl.symm.trans hl')
      exact hidle
  | observe | tick | evictGroups | evictEndpoints | nack | announcement | beacon =>
      simp [action, Option.bind_eq_some_iff] at ha

/-- What waits and what an event adds to it is one arrival at most. -/
theorem length_arrivals_le (hl : p.lanes[i]? = some l) (hwait : l.waiting.length ≤ 1) (ev : Event) :
    l.waiting.length + ((l.worker p.filt).arrivals cfg.worker
      ((p.action cfg ev).toList.filterMap (Action.op? i))).length ≤ 1 := by
  cases ha : p.action cfg ev with
  | none => exact hwait
  | some a =>
      rw [Option.toList_some, List.filterMap_cons]
      cases hop : a.op? i with
      | none => exact hwait
      | some op =>
          cases a with
          | datagram j raw env =>
              obtain ⟨rfl, ⟨⟩⟩ := Option.ite_none_right_eq_some.mp hop
              rw [waiting_of_datagram hl ha, List.length_nil, Nat.zero_add]
              exact Worker.length_arrivals_datagram raw env
          | tick j env =>
              obtain ⟨rfl, ⟨⟩⟩ := Option.ite_none_right_eq_some.mp hop
              exact (congrArg _ (congrArg _ (Worker.arrivals_tick env))).trans_le hwait
          | groups =>
              cases hop
              exact hwait
          | observe | nacks => cases hop

/-- **The step lemma**: a worker has one arrival at most to report. -/
theorem waiting_step (hl : p.lanes[i]? = some l) (hwait : l.waiting.length ≤ 1) (ev : Event)
    {l' : Lane} (hl' : (p.step cfg ev).1.lanes[i]? = some l') : l'.waiting.length ≤ 1 := by
  obtain ⟨l'', hl'', hadv⟩ := step_advances cfg hl ev
  obtain rfl := Option.some.inj (hl'.symm.trans hl'')
  have hlength := congrArg List.length hadv.waiting
  rw [List.length_append, List.length_append] at hlength
  have hle := @length_arrivals_le cfg p i l hl hwait ev
  omega

/-- **The run lemma.** -/
theorem waiting_after (hl : p.lanes[i]? = some l) (hwait : l.waiting.length ≤ 1) (es : List Event)
    {l' : Lane} (hl' : (p.after cfg es).lanes[i]? = some l') : l'.waiting.length ≤ 1 := by
  induction es generalizing p l with
  | nil =>
      obtain rfl := Option.some.inj (hl.symm.trans hl')
      exact hwait
  | cons ev es ih =>
      obtain ⟨l₁, hl₁, -⟩ := step_advances cfg hl ev
      exact ih hl₁ (waiting_step hl hwait ev hl₁) hl'

/-- Of a worker's operations none is a tracker call of somebody else. -/
theorem ne_track_of_op? {a : Action} {op : Worker.Op} (h : a.op? i = some op) (c : Call) :
    op ≠ .track c := by
  rintro rfl
  cases a with
  | datagram | tick =>
      rw [Action.op?] at h
      split at h <;> cases h
  | observe | groups | nacks => cases h

/-! ### The tracker -/

/-- What the tracker and the endpoint registry make of a schedule. -/
def schedule (cfg : ProcessConfig) (p : Process) (es : List Event) : List ShardListener.Event :=
  (p.actions cfg es).filterMap Action.event?

/-- The tracker and its senders run over the events that concern them. -/
theorem nacks_step (p : Process) (ev : Event) :
    (p.step cfg ev).1.nacks = Machine.run (System.step cfg.worker.tracker) p.nacks
      ((p.action cfg ev).toList.filterMap Action.event?) := by
  rw [step]
  cases p.action cfg ev with
  | none => rfl
  | some a => cases a <;> rfl

/-- The tracker and the endpoint registry follow the schedule. -/
theorem nacks_after (cfg : ProcessConfig) (p : Process) (es : List Event) :
    (p.after cfg es).nacks =
      Machine.run (System.step cfg.worker.tracker) p.nacks (p.schedule cfg es) := by
  rw [schedule, actions, Machine.filterMap_logged]
  exact Machine.run_logged Process.nacks nacks_step p es

/-- The arrivals that are reported, each with the worker that does. -/
def reports (cfg : ProcessConfig) (p : Process) (es : List Event) : List (ℕ × Arrival) :=
  (p.actions cfg es).filterMap Action.report?

/-- The reports of one worker are the actions in which it reports. -/
theorem filter_reports (cfg : ProcessConfig) (p : Process) (es : List Event) (i : ℕ) :
    ((p.reports cfg es).filter fun r => r.1 = i).map Prod.snd =
      (p.actions cfg es).filterMap (Action.reported? i) := by
  rw [reports]
  induction p.actions cfg es with
  | nil => rfl
  | cons a as ih =>
      cases a with
      | observe j a =>
          by_cases hji : j = i <;> simp [Action.report?, Action.reported?, hji, ih]
      | _ => exact ih

/-- Beside the goroutines of the tracker the beacon listener makes calls of the registry. -/
theorem eq_of_action_nacks {ev : Event} {ev' : ShardListener.Event}
    (ha : p.action cfg ev = some (.nacks ev')) :
    (∃ now a, ev' = .upsert now a) ∨ (∃ now ord, ev' = .evict now ord) ∨
      ∃ hint, ev = .nack ⟨ev', hint⟩ := by
  cases ev with
  | beacon now raw =>
      simp only [action, Option.ite_none_right_eq_some, Option.map_eq_some_iff] at ha
      obtain ⟨-, a, -, heq⟩ := ha
      cases heq
      exact .inl ⟨now, a, rfl⟩
  | evictEndpoints now ord =>
      obtain ⟨-, heq⟩ := Option.ite_none_right_eq_some.mp ha
      cases heq
      exact .inr (.inl ⟨now, ord, rfl⟩)
  | nack ev =>
      cases ha
      exact .inr (.inr ⟨ev.2, rfl⟩)
  | datagram i raw env =>
      simp only [action, Option.bind_eq_some_iff] at ha
      obtain ⟨l, -, ha⟩ := ha
      split at ha <;> cases ha
  | observe | tick | announcement | evictGroups =>
      simp [action, Option.bind_eq_some_iff] at ha

/-- Only workers report arrivals. -/
theorem arrival?_of_nacks {ev : Event} {ev' : ShardListener.Event}
    (ha : p.action cfg ev = some (.nacks ev')) : ev'.arrival? = none := by
  rcases eq_of_action_nacks ha with ⟨now, a, rfl⟩ | ⟨now, ord, rfl⟩ | ⟨hint, -⟩
  · rfl
  · rfl
  · cases ev' with
    | observe => cases hint
    | _ => rfl

/-- The arrivals in the schedule of the tracker are the reports of the workers. -/
theorem arrivalsOf_schedule (cfg : ProcessConfig) (p : Process) (es : List Event) :
    arrivalsOf (p.schedule cfg es) = (p.reports cfg es).map Prod.snd := by
  induction es generalizing p with
  | nil => rfl
  | cons ev es ih =>
      have hev : ((p.action cfg ev).toList.filterMap Action.event?).filterMap
            ShardListener.Event.arrival? =
          ((p.action cfg ev).toList.filterMap Action.report?).map Prod.snd := by
        cases ha : p.action cfg ev with
        | none => rfl
        | some a =>
            cases a with
            | nacks ev' => simp [Action.event?, Action.report?, arrival?_of_nacks ha]
            | _ => rfl
      rw [schedule, reports, actions, Machine.logged_cons, List.filterMap_append,
        List.filterMap_append, arrivalsOf, List.filterMap_append, List.map_append, hev]
      exact congrArg _ (ih _)

/-! ### What `main.go` starts -/

end Process

/-- What `run` reads of the configuration, beside what `Load` checks, and the packages it
calls. -/
structure Setup where
  config : Configuration
  codec : Codec
  tracker : TrackerConfig
  announceSize : ℕ
  decodeAnnouncement : Bytes → Option Announcement
  subtreeGroupDefaultTTL : Duration
  stripHeader : Bool
  verifyPayloadHash : Bool
  egressDedupCap : ℤ
  egressDedupTTL : Duration
  beaconEnabled : Bool

/-- `NewMCast`: the fixed bytes of the group addresses. -/
def MCastSender.new (s : MCastSettings) (stripHeader : Bool) : MCastSender where
  addrTemplate := ByteBuffer.bigEndian 2 s.mcPrefix.toNat ++ List.replicate 10 0x00 ++
    ByteBuffer.bigEndian 2 s.groupID.toNat
  egressPort := s.port
  stripHeader := stripHeader

namespace Setup

/-- What stays fixed. -/
def processConfig (s : Setup) : ProcessConfig where
  worker :=
    { codec := s.codec
      tracker := s.tracker
      reassembly := Reassembly.Config.new Reassembly.defaultMaxSlots Reassembly.defaultTTL
        s.verifyPayloadHash true true true
      verifyPayloadHash := s.verifyPayloadHash }
  announce :=
    if s.config.subtreeGroups = [] then none
    else some (.ofConfig s.config s.subtreeGroupDefaultTTL s.announceSize s.decodeAnnouncement)
  beaconEnabled := s.beaconEnabled

/-- The filter. There is a group registry if groups are configured. -/
def filter (s : Setup) : Filter :=
  .new s.config.shardInclude s.config.subtreeInclude s.config.subtreeExclude
    (if s.config.subtreeGroups = [] then none
      else some (.new s.config.subtreeGroups s.subtreeGroupDefaultTTL))

/-- The endpoint registry, with the static endpoints. -/
def registry (s : Setup) : Registry :=
  if s.config.retryEndpoints = [] then .new else Registry.new.seed s.config.retryEndpoints

/-- A worker before its first datagram. -/
def lane (s : Setup) : Lane where
  dedupSet := if 0 < s.egressDedupCap then some (.new s.egressDedupCap s.egressDedupTTL) else none
  reassemBuf := some .new
  outlet :=
    { egr := ⟨s.config.egressProto, s.stripHeader, false⟩
      mcastEgr := s.config.mcEgress.map fun m => .new m s.stripHeader
      headerEgr := s.config.headerEgressProto.map fun proto => ⟨proto, false, false⟩
      headerMCastEgr := s.config.headerMCEgress.map fun m => .new m false }
  waiting := []

/-- The process that `run` starts. -/
def start (s : Setup) : Process where
  nacks := .start s.registry
  filt := s.filter
  lanes := List.replicate s.config.numWorkers.toNat s.lane

/-- All workers start alike. -/
theorem getElem?_lanes_start (s : Setup) {i : ℕ} (hi : i < s.config.numWorkers.toNat) :
    s.start.lanes[i]? = some s.lane := by
  rw [start, List.getElem?_replicate, if_pos hi]

end Setup

namespace Process

/-- **The workers are isolated.** Take any schedule of the goroutines of the process, and let
`ops` be what it has of worker `i` and of the shared group registry. State and effects of the
worker are those of a single worker that is given `ops`. The tracker and the endpoint registry
are as after some schedule of their own; the arrivals in it are those the workers have reported.
All tracker calls that the single worker makes are reports of arrivals, and worker `i` has made
each of them once and in order, but for one at most that still waits. -/
theorem workers_isolated (s : Setup) (es : List Event) {i : ℕ}
    (hi : i < s.config.numWorkers.toNat) :
    let cfg := s.processConfig
    let p := s.start.after cfg es
    let w := s.lane.worker s.filter
    let ops := (s.start.actions cfg es).filterMap (Action.op? i)
    let reports := s.start.reports cfg es
    (∃ l, p.lanes[i]? = some l ∧ l.waiting.length ≤ 1 ∧
      l.worker p.filt = w.after cfg.worker ops ∧
      w.calls cfg.worker ops =
        ((reports.filter fun r => r.1 = i).map Prod.snd ++ l.waiting).map Call.observe) ∧
    (s.start.outputs cfg es).filterMap (Output.effect? i) =
      Machine.outputs (Worker.step cfg.worker) w ops ∧
    ∃ schedule, p.nacks = System.after s.tracker s.registry schedule ∧
      arrivalsOf schedule = reports.map Prod.snd := by
  intro cfg p w ops reports
  have hlane := s.getElem?_lanes_start hi
  obtain ⟨l, hl', hadv⟩ := run_advances cfg hlane es
  refine ⟨⟨l, hl', waiting_after hlane (Nat.zero_le 1) es hl', hadv.worker, ?_⟩, hadv.effects,
    s.start.schedule cfg es, nacks_after cfg s.start es, arrivalsOf_schedule cfg s.start es⟩
  have hops : ∀ op ∈ ops, ∀ c, op ≠ .track c := by
    intro op hop
    obtain ⟨a, -, ha⟩ := List.mem_filterMap.mp hop
    exact ne_track_of_op? ha
  rw [Worker.calls_eq_arrivals w hops, filter_reports, ← hadv.waiting]
  rfl

end Process

/-- Two workers, beacons enabled, no static endpoints. -/
def Setup.pair : Setup where
  config := { Configuration.withShards [] with numWorkers := 2 }
  codec := Codec.wire
  tracker := ⟨second, second, 1, 5 * second, 0, 0, by decide⟩
  announceSize := 0
  decodeAnnouncement := fun _ => none
  subtreeGroupDefaultTTL := second
  stripHeader := false
  verifyPayloadHash := false
  egressDedupCap := 0
  egressDedupTTL := 0
  beaconEnabled := true

namespace Process

/-- Frame `n` of a flow. -/
def frameRaw (n : UInt8) : Bytes := testRaw (testFrame 1 n.toUInt64 n)

/-- Neither worker has reported its last frame, the second one has reported the frame before. -/
theorem workers_isolated_pair :
    let s := Setup.pair
    let cfg := s.processConfig
    let es := [Event.datagram 0 (frameRaw 1) (Env.test 0), .datagram 1 (frameRaw 2) (Env.test 0),
      .observe 1, .datagram 1 (frameRaw 3) (Env.test 1)]
    let p := s.start.after cfg es
    let w := s.lane.worker s.filter
    let ops := (s.start.actions cfg es).filterMap (Action.op? 1)
    let reports := s.start.reports cfg es
    ((∃ l, p.lanes[1]? = some l ∧ l.waiting.length ≤ 1 ∧
        l.worker p.filt = w.after cfg.worker ops ∧
        w.calls cfg.worker ops =
          ((reports.filter fun r => r.1 = 1).map Prod.snd ++ l.waiting).map Call.observe) ∧
      (s.start.outputs cfg es).filterMap (Output.effect? 1) =
        Machine.outputs (Worker.step cfg.worker) w ops ∧
      ∃ schedule, p.nacks = System.after s.tracker s.registry schedule ∧
        arrivalsOf schedule = reports.map Prod.snd) ∧
    reports.map (fun r => (r.1, r.2.seqNum)) = [(1, 2)] ∧
    p.lanes.map (fun l => l.waiting.map Arrival.seqNum) = [[1], [3]] :=
  ⟨workers_isolated Setup.pair _ (by decide), by decide +kernel, by decide +kernel⟩

end Process

end ShardListener
