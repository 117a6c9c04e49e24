import ShardListener.Outstanding
import ShardListener.Process

/-!
# The NACKs of the Process

Every NACK that the process sends, whatever its goroutines do in between: what it asks for was
skipped in what the workers have reported, and whom it asks is an endpoint that the beacons or
the configuration had named when its sender made the choice.

The first follows from the results about the tracker alone (`System.skips_of_sends`), as the
tracker follows a schedule of its own (`Process.nacks_after`). For the second a sender is followed
from the event in which it chooses to the one in which it sends (`Process.follow`).

## Main results

* `Process.nacks_ask_for_skipped`: what is asked for.
* `Process.selected_of_step`, `Process.chose_after`: where a sender has its endpoint from.
* `Process.nacks_go_to_live`: who is asked.
-/

namespace ShardListener.Process

variable {cfg : ProcessConfig} {p : Process} {ev : Event} {endpoint : EndpointEntry} {nack : Nack}

/-- A NACK goes out when a sender writes it. -/
theorem sends_of_mem_step (h : .nack endpoint nack ∈ (p.step cfg ev).2) :
    ∃ i, ev = .nack ⟨.send i, rfl⟩ ∧ p.nacks.sends (.send i) = some (endpoint, nack) := by
  rw [step] at h
  cases ha : p.action cfg ev with
  | none =>
      rw [ha] at h
      exact absurd h List.not_mem_nil
  | some a =>
      rw [ha, Option.elim_some] at h
      have hwork : ∀ i op, .nack endpoint nack ∉ (p.work cfg i op).2 := by
        intro i op
        rw [work]
        cases p.lanes[i]? <;> simp
      cases a with
      | datagram i raw env => exact absurd h (hwork _ _)
      | tick i env => exact absurd h (hwork _ _)
      | observe i a => exact absurd h List.not_mem_nil
      | groups op => exact absurd h List.not_mem_nil
      | nacks ev' =>
          obtain ⟨out, hout, heq⟩ := List.mem_map.mp h
          cases heq
          have hsends := Option.mem_toList.mp hout
          cases ev' with
          | send i =>
              rcases eq_of_action_nacks ha with ⟨_, _, heq⟩ | ⟨_, _, heq⟩ | ⟨hint, rfl⟩
              · cases heq
              · cases heq
              · exact ⟨i, rfl, hsends⟩
          | _ => cases hsends

/-- **What a NACK asks for was skipped.** It asks for one number of a flow. Among the arrivals
that the workers have reported, some frame of the flow had a lower number, a later one a higher
number, and none between them a number above the first; the NACK has the subtree of the second. -/
theorem nacks_ask_for_skipped (s : Setup) (es : List Event) (ev : Event)
    {endpoint : EndpointEntry} {nack : Nack}
    (h : .nack endpoint nack ∈
      ((s.start.after s.processConfig es).step s.processConfig ev).2) :
    nack.msgType = msgTypeNACK ∧ nack.endSeq = nack.startSeq ∧
    ∃ as₁ b as₂ a as₃,
      (s.start.reports s.processConfig es).map Prod.snd = as₁ ++ b :: (as₂ ++ a :: as₃) ∧
      b.hashKey = nack.hashKey ∧ a.hashKey = nack.hashKey ∧
      b.seqNum < nack.startSeq ∧ nack.startSeq < a.seqNum ∧ nack.subtreeID = a.subtreeID ∧
      ∀ c ∈ as₂, c.hashKey = nack.hashKey → c.seqNum ≤ b.seqNum := by
  obtain ⟨i, -, hsends⟩ := sends_of_mem_step h
  rw [nacks_after] at hsends
  obtain ⟨e, rfl, hskips⟩ := System.skips_of_sends hsends
  obtain ⟨as₁, b, as₂, a, as₃, has, hb, ha, -, hlo, hhi, -, hsubtree, hbetween⟩ := hskips
  rw [arrivalsOf_schedule] at has
  exact ⟨rfl, rfl, as₁, b, as₂, a, as₃, has, hb, ha, hlo, hhi, hsubtree, hbetween⟩

/-- An endpoint announces itself. One worker receives frame 1 of a flow and another one frame 3,
both report, and the tracker takes up the gap. -/
def gapAcrossWorkers : List Event :=
  [.beacon 0 (((System.advertOf 1 0 0).encode (List.replicate advertSize 0)).getD []),
   .datagram 0 (frameRaw 1) (Env.test 0), .datagram 1 (frameRaw 3) (Env.test 0),
   .observe 0, .observe 1,
   .nack ⟨.sweep second System.storedOrder, rfl⟩, .nack ⟨.receive, rfl⟩, .nack ⟨.launch, rfl⟩,
   .nack ⟨.select 0 (.stored _) EndpointEntry.sort, rfl⟩]

/-- Its NACK for frame 2. -/
theorem gapAcrossWorkers_nack :
    .nack ((System.advertOf 1 0 0).entry 0) ⟨msgTypeNACK, 1, 2, 2, Bytes32.ofByte 0⟩ ∈
      ((Setup.pair.start.after Setup.pair.processConfig gapAcrossWorkers).step
        Setup.pair.processConfig (.nack ⟨.send 0, rfl⟩)).2 := by
  decide +kernel

/-- Frame 2 was skipped. -/
theorem nacks_ask_for_skipped_pair :
    let reports := Setup.pair.start.reports Setup.pair.processConfig gapAcrossWorkers
    ∃ as₁ b as₂ a as₃, reports.map Prod.snd = as₁ ++ b :: (as₂ ++ a :: as₃) ∧
      b.hashKey = 1 ∧ a.hashKey = 1 ∧ b.seqNum < 2 ∧ 2 < a.seqNum ∧
      Bytes32.ofByte 0 = a.subtreeID ∧ ∀ c ∈ as₂, c.hashKey = 1 → c.seqNum ≤ b.seqNum :=
  (nacks_ask_for_skipped _ _ _ gapAcrossWorkers_nack).2.2

/-! ### Whom a NACK asks -/

/-- What an event is to the endpoint registry. -/
def beaconOps (cfg : ProcessConfig) (p : Process) : Event → List BeaconListener.Op
  | .beacon now raw => if cfg.beaconEnabled then [.datagram now raw] else []
  | .evictEndpoints now ord => if cfg.beaconEnabled then [.tick now ord] else []
  | .nack ⟨.select i ord sort, _⟩ =>
      match p.nacks.senders[i]? with
      | some ⟨_, .starting⟩ => [.snapshot ord sort]
      | _ => []
  | _ => []

/-- What a schedule is to the endpoint registry. -/
def beacons (cfg : ProcessConfig) (p : Process) (es : List Event) : List BeaconListener.Op :=
  Machine.logged (Machine.next (step cfg)) (beaconOps cfg) p es

/-- Workers and announcements make no calls of the endpoint registry. -/
theorem registryOps_of_not_nacks {a : Option Action} (ha : ∀ ev, a ≠ some (.nacks ev)) :
    Machine.logged (System.step cfg.worker.tracker) System.registryOps p.nacks
      (a.toList.filterMap Action.event?) = [] := by
  cases a with
  | none => rfl
  | some a =>
      cases a with
      | nacks ev => exact absurd rfl (ha ev)
      | _ => rfl

/-- The registry calls of an event. -/
theorem registryOps_action (cfg : ProcessConfig) (p : Process) (ev : Event) :
    (p.beaconOps cfg ev).filterMap BeaconListener.Op.call =
      Machine.logged (System.step cfg.worker.tracker) System.registryOps p.nacks
        ((p.action cfg ev).toList.filterMap Action.event?) := by
  cases ev with
  | beacon now raw =>
      rw [beaconOps, action]
      cases cfg.beaconEnabled with
      | false => rfl
      | true => cases ha : Advert.ofBeacon raw <;> simp [BeaconListener.Op.call, ha] <;> rfl
  | evictEndpoints now ord =>
      rw [beaconOps, action]
      cases cfg.beaconEnabled <;> rfl
  | nack ev =>
      obtain ⟨ev, hev⟩ := ev
      cases ev with
      | observe | fill | upsert | evict => cases hev
      | select i ord sort =>
          have hlog : Machine.logged (System.step cfg.worker.tracker) System.registryOps p.nacks
              [.select i ord sort] = p.nacks.registryOps (.select i ord sort) :=
            List.append_nil _
          refine Eq.trans ?_ hlog.symm
          rw [beaconOps, System.registryOps]
          cases p.nacks.senders[i]? with
          | none => rfl
          | some x =>
              obtain ⟨e, phase⟩ := x
              cases phase <;> rfl
      | _ => rfl
  | datagram i raw env =>
      refine (registryOps_of_not_nacks fun ev' ha => ?_).symm
      simp only [action, Option.bind_eq_some_iff] at ha
      obtain ⟨l, -, ha⟩ := ha
      split at ha <;> cases ha
  | observe | tick | announcement | evictGroups =>
      refine (registryOps_of_not_nacks fun ev' ha => ?_).symm
      simp [action, Option.bind_eq_some_iff] at ha

/-- The registry calls of a schedule. -/
theorem registryCalls_schedule (cfg : ProcessConfig) (p : Process) (es : List Event) :
    (p.beacons cfg es).filterMap BeaconListener.Op.call =
      Machine.logged (System.step cfg.worker.tracker) System.registryOps p.nacks
        (p.schedule cfg es) := by
  rw [beacons, schedule, actions, Machine.filterMap_logged, Machine.filterMap_logged]
  exact Machine.outputs_logged Process.nacks nacks_step (registryOps_action cfg) p es

/-- The registry that `nack.New` starts with. -/
theorem registry_eq (s : Setup) :
    s.registry = Registry.after (BeaconListener.calls s.config.retryEndpoints []) := by
  rw [Setup.registry, BeaconListener.calls]
  split <;> rfl

/-- The registry after a schedule. -/
theorem registry_after (s : Setup) (es : List Event) :
    (s.start.after s.processConfig es).nacks.registry =
      Registry.after (BeaconListener.calls s.config.retryEndpoints
        (s.start.beacons s.processConfig es)) := by
  have hstart : s.start.nacks =
      System.start (Registry.after (BeaconListener.calls s.config.retryEndpoints [])) := by
    rw [← registry_eq]
    rfl
  have hcalls := registryCalls_schedule s.processConfig s.start es
  rw [hstart] at hcalls
  rw [nacks_after, BeaconListener.calls_eq_append, hcalls, hstart]
  exact System.registry_after _ _ _

/-- Where the sender at `j` is after an event, unless it returns. -/
def position (cfg : ProcessConfig) (p : Process) (ev : Event) (j : ℕ) : Option ℕ :=
  match p.action cfg ev with
  | some (.nacks ev') => p.nacks.position ev' j
  | _ => some j

/-- Where the sender at `j` is after a schedule, unless it returns. -/
def follow (cfg : ProcessConfig) (p : Process) : List Event → ℕ → Option ℕ
  | [], j => some j
  | ev :: es, j => (p.position cfg ev j).bind ((p.step cfg ev).1.follow cfg es)

/-- A sender is followed event by event. -/
theorem follow_snoc (cfg : ProcessConfig) (p : Process) (es : List Event) (ev : Event) (j : ℕ) :
    p.follow cfg (es ++ [ev]) j = (p.follow cfg es j).bind ((p.after cfg es).position cfg ev) := by
  induction es generalizing p j with
  | nil => exact Option.bind_fun_some (p.position cfg ev j)
  | cons ev' es ih =>
      rw [List.cons_append, follow, follow, Option.bind_assoc]
      exact Option.bind_congr fun k _ => ih _ k

/-- The sender at `i` has chosen the endpoint for the gap `e` along the schedule: it was then the
one at `j`, and took the endpoint out of its snapshot of the registry. -/
def Chose (cfg : ProcessConfig) (p : Process) (es : List Event) (i : ℕ) (e : GapEntry)
    (endpoint : EndpointEntry) : Prop :=
  ∃ es₁ j ord sort es₂, es = es₁ ++ .nack ⟨.select j ord sort, rfl⟩ :: es₂ ∧
    (p.after cfg es₁).nacks.senders[j]? = some ⟨e, .starting⟩ ∧
    selectEndpoint ((p.after cfg es₁).nacks.registry.takeSnapshot ord sort).2 e = some endpoint ∧
    (p.after cfg (es₁ ++ [.nack ⟨.select j ord sort, rfl⟩])).follow cfg es₂ j = some i

/-- The choice of a sender is not affected by what comes later. -/
theorem Chose.snoc {es : List Event} {i j : ℕ} {e : GapEntry} (h : Chose cfg p es j e endpoint)
    (hpos : (p.after cfg es).position cfg ev j = some i) :
    Chose cfg p (es ++ [ev]) i e endpoint := by
  obtain ⟨es₁, k, ord, sort, es₂, rfl, hk, hsel, hfollow⟩ := h
  refine ⟨es₁, k, ord, sort, es₂ ++ [ev], by simp, hk, hsel, ?_⟩
  have hafter : p.after cfg (es₁ ++ .nack ⟨.select k ord sort, rfl⟩ :: es₂) =
      (p.after cfg (es₁ ++ [.nack ⟨.select k ord sort, rfl⟩])).after cfg es₂ := by
    rw [List.append_cons]
    exact Machine.run_append _ _ _ _
  rw [follow_snoc, hfollow, Option.bind_some, ← hafter, hpos]

/-- **The step lemma**: a sender with an endpoint had it before, or chooses it in this event. -/
theorem selected_of_step {i n : ℕ} {e : GapEntry}
    (h : (p.step cfg ev).1.nacks.senders[i]? = some ⟨e, .selected endpoint n⟩) :
    (∃ j, p.nacks.senders[j]? = some ⟨e, .selected endpoint n⟩ ∧
        p.position cfg ev j = some i) ∨
      ∃ ord sort, ev = .nack ⟨.select i ord sort, rfl⟩ ∧
        p.nacks.senders[i]? = some ⟨e, .starting⟩ ∧
        selectEndpoint (p.nacks.registry.takeSnapshot ord sort).2 e = some endpoint := by
  rw [nacks_step] at h
  cases ha : p.action cfg ev with
  | none =>
      rw [ha] at h
      exact .inl ⟨i, h, by rw [position, ha]⟩
  | some a =>
      rw [ha] at h
      cases a with
      | datagram | tick | observe | groups => exact .inl ⟨i, h, by rw [position, ha]⟩
      | nacks ev' =>
          rcases System.selected_step h with ⟨j, hj, hpos⟩ | ⟨ord, sort, rfl, hi, hsel⟩
          · exact .inl ⟨j, hj, by rw [position, ha]; exact hpos⟩
          · rcases eq_of_action_nacks ha with ⟨_, _, heq⟩ | ⟨_, _, heq⟩ | ⟨hint, rfl⟩
            · cases heq
            · cases heq
            · exact .inr ⟨ord, sort, rfl, hi, hsel⟩

/-- **The run lemma**: a sender with an endpoint has chosen it along the schedule. -/
theorem chose_after (hp : p.nacks.senders = []) (es : List Event) {i n : ℕ} {e : GapEntry}
    (h : (p.after cfg es).nacks.senders[i]? = some ⟨e, .selected endpoint n⟩) :
    Chose cfg p es i e endpoint := by
  induction es using List.reverseRecOn generalizing i with
  | nil =>
      rw [after, Machine.run_nil, hp] at h
      cases h
  | append_singleton es ev ih =>
      rw [after, Machine.run_snoc] at h
      rcases selected_of_step h with ⟨j, hj, hpos⟩ | ⟨ord, sort, rfl, hi, hsel⟩
      · exact (ih hj).snoc hpos
      · exact ⟨es, i, ord, sort, [], rfl, hi, hsel, rfl⟩

/-- **Whom a NACK asks.** It is written by a sender, and the endpoint is the one that this sender
has chosen before. When it did, the endpoint was live: its entry is that of the last ADVERT
datagram of its instance, one that is well formed and does not say that the endpoint is draining,
and it had not been evicted. It is a static endpoint only if none was live then. -/
theorem nacks_go_to_live (s : Setup) (es : List Event) (ev : Event)
    {endpoint : EndpointEntry} {nack : Nack}
    (h : .nack endpoint nack ∈
      ((s.start.after s.processConfig es).step s.processConfig ev).2) :
    let cfg := s.processConfig
    ∃ i, ev = .nack ⟨.send i, rfl⟩ ∧
    ∃ es₁ j ord sort es₂, es = es₁ ++ .nack ⟨.select j ord sort, rfl⟩ :: es₂ ∧
      (s.start.after cfg (es₁ ++ [.nack ⟨.select j ord sort, rfl⟩])).follow cfg es₂ j = some i ∧
      (∃ e, (s.start.after cfg es₁).nacks.senders[j]? = some ⟨e, .starting⟩ ∧
        nack = Nack.ofGap e ∧
        selectEndpoint ((s.start.after cfg es₁).nacks.registry.takeSnapshot ord sort).2 e =
          some endpoint) ∧
      let ops := s.start.beacons cfg es₁
      (BeaconListener.Live ops endpoint ∨
        (∀ e, ¬ BeaconListener.Live ops e) ∧
          endpoint ∈ Registry.seedsOf s.config.retryEndpoints) := by
  intro cfg
  obtain ⟨i, rfl, hsends⟩ := sends_of_mem_step h
  refine ⟨i, rfl, ?_⟩
  simp only [System.sends] at hsends
  split at hsends
  · rename_i e _ n hi
    obtain ⟨rfl, rfl⟩ := Prod.mk.inj (Option.some.inj hsends)
    obtain ⟨es₁, j, ord, sort, es₂, rfl, hj, hsel, hfollow⟩ := chose_after rfl es hi
    refine ⟨es₁, j, ord, sort, es₂, rfl, hfollow, ⟨e, hj, rfl, hsel⟩, ?_⟩
    have hmem := List.mem_of_getElem? hsel
    rwa [registry_after, BeaconListener.mem_takeSnapshot] at hmem
  · cases hsends

/-- The endpoint that announced itself is asked. -/
theorem nacks_go_to_live_pair :
    let s := Setup.pair
    let cfg := s.processConfig
    let endpoint := (System.advertOf 1 0 0).entry 0
    ∃ es₁ j ord sort es₂, gapAcrossWorkers = es₁ ++ .nack ⟨.select j ord sort, rfl⟩ :: es₂ ∧
      (s.start.after cfg (es₁ ++ [.nack ⟨.select j ord sort, rfl⟩])).follow cfg es₂ j = some 0 ∧
      (∃ e, (s.start.after cfg es₁).nacks.senders[j]? = some ⟨e, .starting⟩ ∧
        ⟨msgTypeNACK, 1, 2, 2, Bytes32.ofByte 0⟩ = Nack.ofGap e ∧
        selectEndpoint ((s.start.after cfg es₁).nacks.registry.takeSnapshot ord sort).2 e =
          some endpoint) ∧
      (BeaconListener.Live (s.start.beacons cfg es₁) endpoint ∨
        (∀ e, ¬ BeaconListener.Live (s.start.beacons cfg es₁) e) ∧
          endpoint ∈ Registry.seedsOf s.config.retryEndpoints) := by
  obtain ⟨i, hi, hchose⟩ := nacks_go_to_live _ _ _ gapAcrossWorkers_nack
  cases hi
  exact hchose

end ShardListener.Process
