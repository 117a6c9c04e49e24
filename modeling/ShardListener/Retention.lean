import ShardListener.Recovery
import ShardListener.Sweep

/-!
# What the Tracker Remembers

A flow is forgotten by the sweeper alone, when it has no gap left and no frame of it has been
reported for `flowTTL`; a gap is given up after `GapTTL`. So the tracker holds on to nothing
older than that, however the goroutines are scheduled, and it holds on to everything younger: a
loss cannot pass unnoticed as long as the flow goes on in time.

Every clock reading is taken by the caller of `Observe`, and the readings of different workers
need not be ordered. None of the results needs them to be.

## Main results

* `Tracker.step_samePosition`: what a call that reports nothing does to the position of a flow.
* `Process.tracker_recent`: after a sweep, what is left is recent.
* `Process.losses_detected`: what is recent is left, and the next loss is seen.
-/

namespace ShardListener

/-- The flow is where it was. -/
structure FlowState.SamePosition (fs fs' : FlowState) : Prop where
  lastSeqNum : fs'.lastSeqNum = fs.lastSeqNum
  lastSeen : fs'.lastSeen = fs.lastSeen

/-- A flow that is not touched keeps its position. -/
theorem FlowState.SamePosition.refl (fs : FlowState) : fs.SamePosition fs := ⟨rfl, rfl⟩

/-- Steps that keep the position may follow each other. -/
theorem FlowState.SamePosition.trans {fs fs' fs'' : FlowState} (h : fs.SamePosition fs')
    (h' : fs'.SamePosition fs'') : fs.SamePosition fs'' :=
  ⟨h'.lastSeqNum.trans h.lastSeqNum, h'.lastSeen.trans h.lastSeen⟩

/-- Every branch of `Observe` notes when it ran. -/
theorem FlowState.observe_lastSeen (cfg : TrackerConfig) (a : Arrival) (fs : FlowState)
    (r : Recorder) : (fs.observe cfg a r).1.lastSeen = a.now := by
  rw [observe, autoFill]
  split_ifs <;> (rw [track]; split_ifs <;> rfl)

namespace Tracker

variable {cfg : TrackerConfig} {t : Tracker} {h : UInt64} {fs : FlowState}

/-! ### One call -/

/-- Rewriting the gaps of a flow leaves every flow where it is. -/
theorem insert_samePosition {hashKey : UInt64} {fs₀ : FlowState}
    (hf : t.flows.lookup hashKey = some fs₀) (pending : AssocMap UInt64 GapEntry)
    (hfs : t.flows.lookup h = some fs) :
    ∃ fs', (t.flows.insert hashKey { fs₀ with pending := pending }).lookup h = some fs' ∧
      fs.SamePosition fs' := by
  by_cases heq : h = hashKey
  · subst heq
    obtain rfl := Option.some.inj (hf.symm.trans hfs)
    exact ⟨_, AList.lookup_insert _, rfl, rfl⟩
  · rw [AList.lookup_insert_ne heq]
    exact ⟨fs, hfs, .refl fs⟩

/-- Closing a gap keeps the position of every flow. -/
theorem closeGap_samePosition (hashKey seqNum : UInt64) (label : FlowState → FlowLabel)
    (hfs : t.flows.lookup h = some fs) :
    ∃ fs', (t.closeGap hashKey seqNum label).flows.lookup h = some fs' ∧ fs.SamePosition fs' := by
  rw [closeGap]
  cases hf : t.flows.lookup hashKey with
  | none => exact ⟨fs, hfs, .refl fs⟩
  | some fs₀ =>
      simp only
      split
      · exact insert_samePosition hf _ hfs
      · exact ⟨fs, hfs, .refl fs⟩

/-- Moving on to the next endpoint keeps the position of every flow. -/
theorem advanceEndpoint_samePosition (now : Time) (e : GapEntry) (immediate : Bool) (n : ℕ)
    (hfs : t.flows.lookup h = some fs) :
    ∃ fs', (t.advanceEndpoint cfg now e immediate n).flows.lookup h = some fs' ∧
      fs.SamePosition fs' := by
  rw [advanceEndpoint]
  cases hf : t.flows.lookup e.hashKey with
  | none => exact ⟨fs, hfs, .refl fs⟩
  | some fs₀ =>
      cases hp : fs₀.pending.lookup e.seqNum with
      | none =>
          simp only [hp]
          exact ⟨fs, hfs, .refl fs⟩
      | some entry =>
          simp only [hp]
          exact insert_samePosition hf _ hfs

/-- The sweeper forgets a flow that has no live gap and has been idle for too long, and leaves
the others where they are. -/
theorem sweepOnce_samePosition (now : Time) (ord : SweepOrder)
    (hfs : t.flows.lookup h = some fs) :
    (∃ fs', (t.sweepOnce cfg now ord).flows.lookup h = some fs' ∧ fs.SamePosition fs' ∧
        ((∃ m e, fs.pending.lookup m = some e ∧ Live cfg now e) ∨
          now - fs.lastSeen ≤ flowTTL cfg)) ∨
      (t.sweepOnce cfg now ord).flows.lookup h = none ∧ flowTTL cfg < now - fs.lastSeen := by
  obtain ⟨copied, hswept⟩ := sweepFlows_spec cfg t now ord
  have hflow := hswept.sweptFlow hfs
  cases hout : (t.sweepOnce cfg now ord).flows.lookup h with
  | none => exact .inr ⟨rfl, (hflow.gone.mp hout).2⟩
  | some fs' =>
      have hkept := hflow.kept fs' hout
      refine .inl ⟨fs', rfl, ?_, ?_⟩
      · rw [hkept]
        exact ⟨rfl, rfl⟩
      · have hnot := mt hflow.gone.mpr (by rw [hout]; exact Option.some_ne_none _)
        by_contra hno
        rw [not_or, not_exists, not_le] at hno
        refine hnot ⟨fun m e he hlive => ?_, hno.2⟩
        exact hno.1 m ⟨e, he, hlive⟩

/-- **What a call that reports nothing does to the position of a flow**: nothing, unless it is
the sweep that forgets the flow. -/
theorem step_samePosition (c : Call) (hc : ∀ a, c = .observe a → a.hashKey ≠ h)
    (hfs : t.flows.lookup h = some fs) :
    (∃ fs', (t.step cfg c).flows.lookup h = some fs' ∧ fs.SamePosition fs') ∨
      ∃ now ord, c = .sweepOnce now ord ∧ (t.step cfg c).flows.lookup h = none ∧
        flowTTL cfg < now - fs.lastSeen := by
  cases c with
  | observe a =>
      rw [step, lookup_observe_of_ne (hc a rfl).symm]
      exact .inl ⟨fs, hfs, .refl fs⟩
  | fill hashKey seqNum =>
      rw [step, fill]
      split
      · exact .inl ⟨fs, hfs, .refl fs⟩
      · exact .inl (closeGap_samePosition _ _ _ hfs)
  | cancelGap e => exact .inl (closeGap_samePosition _ _ _ hfs)
  | advanceEndpoint now e immediate n => exact .inl (advanceEndpoint_samePosition _ _ _ _ hfs)
  | sweepOnce now ord =>
      rcases sweepOnce_samePosition now ord hfs with ⟨fs', hfs', hsame, -⟩ | ⟨hnone, hidle⟩
      · exact .inl ⟨fs', hfs', hsame⟩
      · exact .inr ⟨now, ord, rfl, hnone, hidle⟩
  | dequeue => exact .inl ⟨fs, hfs, .refl fs⟩
  | nackDispatched groupIdx => exact .inl ⟨fs, hfs, .refl fs⟩

/-! ### Where times come from -/

/-- The times in the tracker are those of arrivals: when a flow was seen, and when a gap was
registered. -/
structure Seen (cfg : TrackerConfig) (as : List Arrival) (t : Tracker) : Prop where
  flows : ∀ h fs, t.flows.lookup h = some fs → ∃ a ∈ as, a.hashKey = h ∧ fs.lastSeen = a.now
  gaps : ∀ h m e, t.gap h m = some e → ∃ a ∈ as, a.hashKey = h ∧ e.deadline = a.now + cfg.gapTTL

/-- A new tracker has seen nothing. -/
theorem Seen.new (cfg : TrackerConfig) : Seen cfg [] new where
  flows := fun _ _ h => absurd h.symm (Option.some_ne_none _)
  gaps := fun _ _ _ h => absurd h.symm (Option.some_ne_none _)

/-- An arrival is seen. -/
theorem Seen.observe {as : List Arrival} (hs : Seen cfg as t) (a : Arrival) :
    Seen cfg (as ++ [a]) (t.observe cfg a) where
  flows := by
    intro h fs hfs
    by_cases hz : a.seqNum = 0
    · rw [Tracker.observe, if_pos hz] at hfs
      obtain ⟨b, hb, hbh⟩ := hs.flows h fs hfs
      exact ⟨b, List.mem_append_left _ hb, hbh⟩
    by_cases hh : h = a.hashKey
    · subst hh
      rw [lookup_observe hz, Option.some_inj] at hfs
      subst hfs
      exact ⟨a, by simp, rfl, FlowState.observe_lastSeen _ _ _ _⟩
    · rw [lookup_observe_of_ne hh] at hfs
      obtain ⟨b, hb, hbh⟩ := hs.flows h fs hfs
      exact ⟨b, List.mem_append_left _ hb, hbh⟩
  gaps := by
    intro h m e he
    rcases gap_observe he with he | ⟨-, rfl, rfl, -⟩
    · obtain ⟨b, hb, hbh⟩ := hs.gaps h m e he
      exact ⟨b, List.mem_append_left _ hb, hbh⟩
    · exact ⟨a, by simp, rfl, rfl⟩

/-- **The step lemma.** -/
theorem Seen.step {as : List Arrival} (hs : Seen cfg as t) (c : Call) :
    Seen cfg (as ++ c.arrival?.toList) (t.step cfg c) := by
  cases hc : c.arrival? with
  | some a =>
      cases c with
      | observe a' =>
          obtain rfl := Option.some.inj hc
          exact hs.observe a'
      | _ => cases hc
  | none =>
      have hno : ∀ a, c ≠ .observe a := by
        rintro a rfl
        cases hc
      have hthins := fun h => @step_thins cfg t c h fun a ha => absurd ha (hno a)
      rw [Option.toList_none, List.append_nil]
      refine ⟨?_, ?_⟩
      · intro h fs' hfs'
        obtain ⟨fs, hfs, -⟩ := hthins h fs' hfs'
        obtain ⟨a, ha, hah, hseen⟩ := hs.flows h fs hfs
        refine ⟨a, ha, hah, ?_⟩
        rcases @step_samePosition cfg t h fs c (fun a ha => absurd ha (hno a)) hfs with
          ⟨fs'', hfs'', hsame⟩ | ⟨-, -, -, hnone, -⟩
        · obtain rfl := Option.some.inj (hfs'.symm.trans hfs'')
          rw [hsame.lastSeen, hseen]
        · rw [hnone] at hfs'
          cases hfs'
      · intro h m e' he'
        obtain ⟨fs', hfs', hm'⟩ := gap_eq_some.mp he'
        obtain ⟨fs, hfs, -, -, hpending⟩ := hthins h fs' hfs'
        obtain ⟨e, he, hsame⟩ := hpending m e' hm'
        rw [hsame.deadline]
        exact hs.gaps h m e (gap_eq_some.mpr ⟨fs, hfs, he⟩)

/-- **What a sweep leaves is recent.** -/
theorem Seen.sweepOnce {as : List Arrival} (hs : Seen cfg as t) (now : Time) (ord : SweepOrder) :
    (∀ h fs, (t.sweepOnce cfg now ord).flows.lookup h = some fs →
      ∃ a ∈ as, a.hashKey = h ∧ now ≤ a.now + max cfg.gapTTL (flowTTL cfg)) ∧
    ∀ h m e, (t.sweepOnce cfg now ord).gap h m = some e →
      (e.retries : ℤ) < cfg.maxRetries ∧ ∃ a ∈ as, a.hashKey = h ∧ now ≤ a.now + cfg.gapTTL := by
  have hlive : ∀ h m e, t.gap h m = some e → Live cfg now e →
      ∃ a ∈ as, a.hashKey = h ∧ now ≤ a.now + cfg.gapTTL := by
    intro h m e he hl
    obtain ⟨a, ha, hah, hdeadline⟩ := hs.gaps h m e he
    exact ⟨a, ha, hah, hdeadline ▸ hl.1⟩
  refine ⟨?_, ?_⟩
  · intro h fs' hfs'
    obtain ⟨fs, hfs, -⟩ := sweepOnce_thins now ord h fs' hfs'
    rcases sweepOnce_samePosition now ord hfs with ⟨-, -, -, ⟨m, e, he, hl⟩ | hidle⟩ | ⟨hnone, -⟩
    · obtain ⟨a, ha, hah, hle⟩ := hlive h m e (gap_eq_some.mpr ⟨fs, hfs, he⟩) hl
      exact ⟨a, ha, hah, hle.trans (by gcongr; exact le_max_left _ _)⟩
    · obtain ⟨a, ha, hah, hseen⟩ := hs.flows h fs hfs
      rw [hseen, sub_le_iff_le_add'] at hidle
      exact ⟨a, ha, hah, hidle.trans (by gcongr; exact le_max_right _ _)⟩
    · rw [hnone] at hfs'
      cases hfs'
  · intro h m e' he'
    obtain ⟨copied, hswept⟩ := sweepFlows_spec cfg t now ord
    rw [hswept.gap fun hk hnone => lookup_sweepOnce_of_none ord hnone,
      Option.bind_eq_some_iff] at he'
    obtain ⟨e, he, hentry⟩ := he'
    have hl : Live cfg now e := by
      by_contra hdead
      rw [sweptEntry_eq_none.mpr hdead] at hentry
      cases hentry
    rw [eq_of_sweptEntry hentry]
    exact ⟨hl.2, hlive h m e he hl⟩

end Tracker

/-! ### Schedules -/

namespace System

variable {cfg : TrackerConfig}

/-- A call reports the arrival of its event. -/
theorem call_arrival? (s : System) (ev : Event) :
    ((s.call ev).bind Call.arrival?) = ev.arrival? := by
  cases ev with
  | receive | send | fail | ack | miss =>
      simp only [call]
      split <;> rfl
  | _ => rfl

/-- **The run lemma**: the tracker has seen the arrivals of the schedule. -/
theorem seen_after (cfg : TrackerConfig) (r : Registry) (es : List Event) :
    Tracker.Seen cfg (arrivalsOf es) (after cfg r es).tracker := by
  refine Machine.run_history (s := start r) (R := fun es (s : System) =>
    Tracker.Seen cfg (arrivalsOf es) s.tracker) (.new cfg) ?_ es
  intro es ev ih
  have hsnoc : arrivalsOf (es ++ [ev]) =
      arrivalsOf es ++ (((after cfg r es).call ev).bind Call.arrival?).toList := by
    rw [call_arrival?]
    cases ev <;> simp [arrivalsOf, Event.arrival?]
  change Tracker.Seen cfg _ ((after cfg r es).step cfg ev).tracker
  rw [hsnoc, tracker_step]
  cases (after cfg r es).call ev with
  | none => rwa [Option.bind_none, Option.toList_none, List.append_nil]
  | some c => exact ih.step c

/-- Sweeps are passed on as they are. -/
theorem call_eq_sweepOnce {s : System} {ev : Event} {now : Time} {ord : Tracker.SweepOrder}
    (h : s.call ev = some (.sweepOnce now ord)) : ev = .sweep now ord := by
  cases ev with
  | sweep now' ord' =>
      cases h
      rfl
  | receive | send | fail | ack | miss =>
      simp only [call] at h
      split at h <;> cases h
  | _ => cases h

/-- An arrival of a schedule is one of a longer schedule. -/
theorem mem_arrivalsOf_cons {a : Arrival} {ev : Event} {es : List Event}
    (ha : a ∈ arrivalsOf es) : a ∈ arrivalsOf (ev :: es) := by
  obtain ⟨ev', hev', ha'⟩ := List.mem_filterMap.mp ha
  exact List.mem_filterMap.mpr ⟨ev', List.mem_cons_of_mem _ hev', ha'⟩

/-- A flow stays where it is as long as none of its frames is reported and no sweep comes too
late for it. -/
theorem samePosition_run (cfg : TrackerConfig) {s : System} {h : UInt64} {fs : FlowState}
    (hfs : s.tracker.flows.lookup h = some fs) {es : List Event}
    (hquiet : ∀ a ∈ arrivalsOf es, a.hashKey ≠ h)
    (hsweeps : ∀ now ord, .sweep now ord ∈ es → now - fs.lastSeen ≤ Tracker.flowTTL cfg) :
    ∃ fs', (Machine.run (step cfg) s es).tracker.flows.lookup h = some fs' ∧
      fs.SamePosition fs' := by
  induction es generalizing s fs with
  | nil => exact ⟨fs, hfs, .refl fs⟩
  | cons ev es ih =>
      have hstep : ∃ fs', (s.step cfg ev).tracker.flows.lookup h = some fs' ∧
          fs.SamePosition fs' := by
        rw [tracker_step]
        cases hcall : s.call ev with
        | none => exact ⟨fs, hfs, .refl fs⟩
        | some c =>
            have hc : ∀ a, c = .observe a → a.hashKey ≠ h := by
              rintro a rfl
              obtain rfl := call_eq_observe hcall
              exact hquiet a List.mem_cons_self
            rcases @Tracker.step_samePosition cfg s.tracker h fs c hc hfs with
              hkept | ⟨now, ord, rfl, -, hidle⟩
            · exact hkept
            · obtain rfl := call_eq_sweepOnce hcall
              exact absurd (hsweeps now ord List.mem_cons_self) (not_le.mpr hidle)
      obtain ⟨fs', hfs', hsame⟩ := hstep
      obtain ⟨fs'', hfs'', hsame'⟩ := ih hfs' (fun a ha => hquiet a (mem_arrivalsOf_cons ha))
        (fun now ord hmem => by
          rw [hsame.lastSeen]
          exact hsweeps now ord (List.mem_cons_of_mem _ hmem))
      exact ⟨fs'', hfs'', hsame.trans hsame'⟩

end System

/-- An arrival that jumps registers what it jumps over. -/
theorem Tracker.gap_of_skipped {cfg : TrackerConfig} {t : Tracker} {a : Arrival} {fs : FlowState}
    (hfs : t.flows.lookup a.hashKey = some fs) (hlast : fs.lastSeqNum ≠ 0) {m : UInt64}
    (hlo : fs.lastSeqNum < m) (hhi : m < a.seqNum) :
    ∃ e, (t.observe cfg a).gap a.hashKey m = some e := by
  have hlt : fs.lastSeqNum < a.seqNum := UInt64.lt_trans hlo hhi
  have hz : a.seqNum ≠ 0 := by
    intro hz
    rw [hz] at hlt
    exact absurd hlt UInt64.not_lt_zero
  have hlook := @lookup_observe cfg t a hz
  rw [hfs, Option.getD_some] at hlook
  have hmem : m ∈ (fs.observe cfg a t.recorder).1.pending := by
    rw [FlowState.observe_new hlast hlt]
    exact (mem_foldl_registerGap _ _ _).mpr (.inl ((mem_missingSeqs hlt).mpr ⟨hlo, hhi⟩))
  obtain ⟨e, he⟩ := AList.mem_iff_lookup.mp hmem
  exact ⟨e, gap_eq_some.mpr ⟨_, hlook, he⟩⟩

/-! ### The process -/

namespace Process

variable {cfg : ProcessConfig}

/-- An action of a goroutine of the tracker is that of its event. -/
theorem eq_of_action {p : Process} {e : Event} {a : Action} {ev : ShardListener.Event}
    (hint : ev.internal = true) (ha : p.action cfg e = some a) (hev : a.event? = some ev) :
    e = .nack ⟨ev, hint⟩ := by
  cases a with
  | datagram | tick | groups => cases hev
  | observe i a =>
      cases hev
      cases hint
  | nacks ev' =>
      obtain rfl := Option.some.inj hev
      rcases eq_of_action_nacks ha with ⟨now, a, rfl⟩ | ⟨now, ord, rfl⟩ | ⟨_, heq⟩
      · cases hint
      · cases hint
      · exact heq

/-- What the schedule of the tracker has from its own goroutines is in the schedule of the
process. -/
theorem mem_of_mem_schedule {p : Process} {es : List Event} {ev : ShardListener.Event}
    (hint : ev.internal = true) (hev : ev ∈ p.schedule cfg es) : .nack ⟨ev, hint⟩ ∈ es := by
  induction es generalizing p with
  | nil => exact absurd hev List.not_mem_nil
  | cons e es ih =>
      rw [schedule, actions, Machine.logged_cons, List.filterMap_append, List.mem_append] at hev
      rcases hev with hev | hev
      · obtain ⟨a, ha, hev⟩ := List.mem_filterMap.mp hev
        obtain rfl := eq_of_action hint (Option.mem_toList.mp ha) hev
        exact List.mem_cons_self
      · exact List.mem_cons_of_mem _ (ih hev)

/-- **What the tracker remembers is recent.** Whatever the process has done, after a sweep at
`now` every flow that is left has had a frame reported within the larger of `GapTTL` and the idle
time of flows, every gap one within `GapTTL`, and no gap has used up its retries. If nothing so
recent has been reported, the tracker is empty. -/
theorem tracker_recent (s : Setup) (es : List Event) (now : Time) (ord : Tracker.SweepOrder) :
    let cfg := s.processConfig
    let reports := s.start.reports cfg es
    let ttl := max s.tracker.gapTTL (Tracker.flowTTL s.tracker)
    let t := ((s.start.after cfg es).step cfg (.nack ⟨.sweep now ord, rfl⟩)).1.nacks.tracker
    (∀ h fs, t.flows.lookup h = some fs → ∃ r ∈ reports, r.2.hashKey = h ∧ now ≤ r.2.now + ttl) ∧
    (∀ h m e, t.gap h m = some e → (e.retries : ℤ) < s.tracker.maxRetries ∧
      ∃ r ∈ reports, r.2.hashKey = h ∧ now ≤ r.2.now + s.tracker.gapTTL) ∧
    ((∀ r ∈ reports, r.2.now + ttl < now) → t.activeFlows = 0 ∧ t.pendingGaps = 0) := by
  intro cfg reports ttl t
  have hseen := System.seen_after s.tracker s.registry (s.start.schedule cfg es)
  rw [arrivalsOf_schedule] at hseen
  have ht : t = (System.after s.tracker s.registry (s.start.schedule cfg es)).tracker.sweepOnce
      s.tracker now ord := by
    have hnacks := nacks_after cfg s.start es
    exact congrArg (fun n : System => n.tracker.sweepOnce s.tracker now ord) hnacks
  obtain ⟨hflows, hgaps⟩ := hseen.sweepOnce now ord
  rw [← ht] at hflows hgaps
  have hreport : ∀ {h : UInt64} {d : Duration},
      (∃ a ∈ reports.map Prod.snd, a.hashKey = h ∧ now ≤ a.now + d) →
        ∃ r ∈ reports, r.2.hashKey = h ∧ now ≤ r.2.now + d := by
    rintro h d ⟨a, ha, hah, hle⟩
    obtain ⟨r, hr, rfl⟩ := List.mem_map.mp ha
    exact ⟨r, hr, hah, hle⟩
  refine ⟨fun h fs hfs => hreport (hflows h fs hfs),
    fun h m e he => ⟨(hgaps h m e he).1, hreport (hgaps h m e he).2⟩, ?_⟩
  intro hold
  have hnone : ∀ h, t.flows.lookup h = none := by
    intro h
    refine Option.eq_none_iff_forall_ne_some.mpr fun fs hfs => ?_
    obtain ⟨r, hr, -, hle⟩ := hreport (hflows h fs hfs)
    exact absurd (hold r hr) (not_lt.mpr hle)
  have hsize := AList.size_eq_zero_iff.mpr hnone
  refine ⟨hsize, ?_⟩
  rw [Tracker.pendingGaps, AList.weight, List.length_eq_zero_iff.mp hsize]
  rfl

/-- Frame 1 is reported, and five seconds after it a sweep leaves nothing more recent. -/
theorem tracker_recent_pair :
    let cfg := Setup.pair.processConfig
    let es := [Event.datagram 0 (frameRaw 1) (Env.test 0), .observe 0]
    let t := ((Setup.pair.start.after cfg es).step cfg
      (.nack ⟨.sweep (6 * second) System.storedOrder, rfl⟩)).1.nacks.tracker
    t.activeFlows = 0 ∧ t.pendingGaps = 0 :=
  (tracker_recent Setup.pair _ _ _).2.2 (by decide +kernel)

/-- **No loss passes unnoticed.** Take any state of the process in which a flow is tracked. As
long as no frame of the flow is reported, and no sweep runs later than the idle time of flows
after the last one was, whatever else happens: the next frame of the flow that a worker reports
makes every number pending that it jumps over. -/
theorem losses_detected (s : Setup) (es es' : List Event) (ev : Event) {i : ℕ} {a : Arrival}
    {fs : FlowState} {m : UInt64} :
    let cfg := s.processConfig
    let p := s.start.after cfg es
    p.nacks.tracker.flows.lookup a.hashKey = some fs →
    (∀ r ∈ p.reports cfg es', r.2.hashKey ≠ a.hashKey) →
    (∀ now ord, .nack ⟨.sweep now ord, rfl⟩ ∈ es' →
      now - fs.lastSeen ≤ Tracker.flowTTL s.tracker) →
    (p.after cfg es').action cfg ev = some (.observe i a) →
    fs.lastSeqNum < m → m < a.seqNum →
    ∃ e, ((p.after cfg es').step cfg ev).1.nacks.tracker.gap a.hashKey m = some e := by
  intro cfg p hfs hquiet hsweeps hact hlo hhi
  -- the flow is at the number of some frame, and unstamped frames have no flow
  have hlast : fs.lastSeqNum ≠ 0 := by
    have hnacks := nacks_after cfg s.start es
    rw [hnacks] at hfs
    obtain ⟨_, _, _, _, _, _, hne, _⟩ :=
      (System.traced_after s.tracker s.registry (s.start.schedule cfg es)).flows _ _ hfs
    exact hne
  have hquiet' : ∀ b ∈ arrivalsOf (p.schedule cfg es'), b.hashKey ≠ a.hashKey := by
    intro b hb
    rw [arrivalsOf_schedule] at hb
    obtain ⟨r, hr, rfl⟩ := List.mem_map.mp hb
    exact hquiet r hr
  obtain ⟨fs', hfs', hsame⟩ := System.samePosition_run s.tracker hfs hquiet'
    fun now ord hmem => hsweeps now ord (mem_of_mem_schedule rfl hmem)
  have hnacks : (p.after cfg es').nacks =
      Machine.run (System.step s.tracker) p.nacks (p.schedule cfg es') := nacks_after cfg p es'
  rw [← hnacks] at hfs'
  rw [step, hact]
  exact Tracker.gap_of_skipped hfs' (hsame.lastSeqNum ▸ hlast) (hsame.lastSeqNum ▸ hlo) hhi

set_option maxRecDepth 4000 in
/-- Frame 1 is reported by one worker, frame 3 by another. -/
theorem losses_detected_pair :
    let cfg := Setup.pair.processConfig
    let p := Setup.pair.start.after cfg [.datagram 0 (frameRaw 1) (Env.test 0), .observe 0]
    let es' := [Event.datagram 1 (frameRaw 3) (Env.test second),
      .nack ⟨.sweep second System.storedOrder, rfl⟩]
    ∃ e, ((p.after cfg es').step cfg (.observe 1)).1.nacks.tracker.gap 1 2 = some e := by
  intro cfg p es'
  refine @losses_detected Setup.pair _ es' (.observe 1) 1
    ⟨0, Bytes32.ofByte 0, 1, 3, second, fun _ => 0⟩
    ⟨1, 0, Bytes32.ofByte 0, .brc124, ∅, 0⟩ 2 rfl (by decide +kernel) ?_ rfl (by decide) (by decide)
  intro now ord hmem
  simp only [es', List.mem_cons, reduceCtorEq, Event.nack.injEq, List.not_mem_nil, or_false,
    false_or] at hmem
  obtain ⟨rfl, -⟩ := ShardListener.Event.sweep.inj (Subtype.mk.inj hmem)
  decide

end Process

end ShardListener
