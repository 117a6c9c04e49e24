import ShardListener.Sweep

/-!
# Independent Flows

The flows of a tracker share one bounded queue. A sweep fills it in an order the program does
not choose, so whether a due gap is copied depends on the other flows, and with it the time
stamped on the gap. This is the only thing that depends on them: nothing else reads
`nextAttempt`, so a flow without the times of its next attempts (`FlowView`) follows a machine of
its own.

That machine (`FlowView.step`) takes the calls for the flow and the times of the sweeps
(`Call.onFlow`). It is an abstract model: the gaps are a function of the sequence number, and
there is neither queue nor order.

## Main results

* `Tracker.flowView_step`: a call does to the view of a flow what it means to that flow.
* `Tracker.flows_independent`: the other calls can be left out and moved.
-/

namespace ShardListener

/-! ### One flow on its own -/

/-- An entry without the time of its next attempt. -/
def GapEntry.unscheduled (e : GapEntry) : GapEntry := { e with nextAttempt := 0 }

/-- What is seen of a flow: everything but the times of the next attempts. -/
@[ext] structure FlowView where
  lastSeqNum : UInt64
  groupIdx : UInt32
  subtreeID : Bytes32
  flowType : FlowLabel
  lastSeen : Time
  gaps : UInt64 → Option GapEntry

/-- A call for one flow, or a sweep. -/
inductive FlowCall
  | observe (a : Arrival)
  | fill (seqNum : UInt64)
  | cancelGap (seqNum : UInt64)
  | advanceEndpoint (seqNum : UInt64)
  | sweepOnce (now : Time)

namespace FlowView

/-- A flow whose first frame is arriving. -/
def fresh (a : Arrival) : FlowView where
  lastSeqNum := 0
  groupIdx := a.groupIdx
  subtreeID := a.subtreeID
  flowType := flowLabel a.groupIdx
  lastSeen := a.now
  gaps := fun _ => none

/-- A gap is closed. -/
def close (v : FlowView) (seqNum : UInt64) : FlowView :=
  { v with gaps := Function.update v.gaps seqNum none }

/-- An attempt for a gap failed. -/
def advance (v : FlowView) (seqNum : UInt64) : FlowView :=
  { v with
    gaps := Function.update v.gaps seqNum ((v.gaps seqNum).map fun e =>
      { e with retries := e.retries + 1, endpointIdx := e.endpointIdx + 1 }) }

/-- A frame arrived. -/
def observe (cfg : TrackerConfig) (a : Arrival) (v : FlowView) : FlowView :=
  let filled := { v.close a.seqNum with lastSeen := a.now }
  if v.lastSeqNum = 0 then { filled with lastSeqNum := a.seqNum }
  else if v.lastSeqNum < a.seqNum then
    { filled with
      lastSeqNum := a.seqNum
      gaps := fun m =>
        if (v.lastSeqNum < m ∧ m < a.seqNum) ∧ filled.gaps m = none then
          some (GapEntry.fresh cfg a m).unscheduled
        else filled.gaps m }
  else if a.seqNum ≤ cfg.resetThreshold ∧ cfg.resetThreshold < v.lastSeqNum then
    { filled with lastSeqNum := a.seqNum, gaps := fun _ => none }
  else filled

/-- The gaps that are neither overdue nor out of retries. -/
def live (cfg : TrackerConfig) (now : Time) (v : FlowView) : FlowView :=
  { v with gaps := fun m => (v.gaps m).filter fun e => Tracker.Live cfg now e }

/-- The flow has no gap. -/
def Gapless (v : FlowView) : Prop := ∀ m, v.gaps m = none

open Classical in
/-- The dead gaps are given up, and the flow itself when nothing is left and it was idle. -/
noncomputable def sweep (cfg : TrackerConfig) (now : Time) (v : FlowView) : Option FlowView :=
  if (v.live cfg now).Gapless ∧ Tracker.flowTTL cfg < now - v.lastSeen then none
  else some (v.live cfg now)

/-- One step of a flow on its own. -/
noncomputable def step (cfg : TrackerConfig) (v : Option FlowView) : FlowCall → Option FlowView
  | .observe a => if a.seqNum = 0 then v else some ((v.getD (fresh a)).observe cfg a)
  | .fill seqNum => if seqNum = 0 then v else v.map fun v => v.close seqNum
  | .cancelGap seqNum => v.map fun v => v.close seqNum
  | .advanceEndpoint seqNum => v.map fun v => v.advance seqNum
  | .sweepOnce now => v.bind fun v => v.sweep cfg now

end FlowView

/-- What a call means to the flow `h`. -/
def Call.onFlow (h : UInt64) : Call → Option FlowCall
  | .observe a => if h = a.hashKey then some (.observe a) else none
  | .fill hashKey seqNum => if h = hashKey then some (.fill seqNum) else none
  | .cancelGap e => if h = e.hashKey then some (.cancelGap e.seqNum) else none
  | .advanceEndpoint _ e _ _ => if h = e.hashKey then some (.advanceEndpoint e.seqNum) else none
  | .sweepOnce now _ => some (.sweepOnce now)
  | .dequeue => none
  | .nackDispatched _ => none

/-- The flow a call is for. -/
def Call.flow : Call → Option UInt64
  | .observe a => some a.hashKey
  | .fill hashKey _ => some hashKey
  | .cancelGap e => some e.hashKey
  | .advanceEndpoint _ e _ _ => some e.hashKey
  | _ => none

/-! ### Views of the state -/

namespace FlowState

variable {cfg : TrackerConfig} {fs : FlowState}

/-- The view of a flow. -/
def view (fs : FlowState) : FlowView where
  lastSeqNum := fs.lastSeqNum
  groupIdx := fs.groupIdx
  subtreeID := fs.subtreeID
  flowType := fs.flowType
  lastSeen := fs.lastSeen
  gaps := fun m => (fs.pending.lookup m).map GapEntry.unscheduled

/-- Closing a gap, in the view. -/
theorem view_erase (fs : FlowState) (s : UInt64) :
    { fs with pending := fs.pending.erase s }.view = fs.view.close s := by
  refine FlowView.ext rfl rfl rfl rfl rfl (funext fun m => ?_)
  simp only [view, FlowView.close, AList.lookup_erase_ite, Function.update_apply]
  split <;> rfl

/-- **A frame arrives**, in the view. -/
theorem view_observe (a : Arrival) (r : Recorder) :
    (fs.observe cfg a r).1.view = fs.view.observe cfg a := by
  have hfilled : { fs with lastSeen := a.now, pending := fs.pending.erase a.seqNum }.view =
      { fs.view.close a.seqNum with lastSeen := a.now } := by
    rw [← view_erase]
    rfl
  rw [FlowView.observe, ← hfilled]
  by_cases h₀ : fs.lastSeqNum = 0
  · rw [observe_first h₀, if_pos (show fs.view.lastSeqNum = 0 from h₀)]
    rfl
  · rw [if_neg (show fs.view.lastSeqNum ≠ 0 from h₀)]
    by_cases hlt : fs.lastSeqNum < a.seqNum
    · rw [observe_new h₀ hlt, if_pos (show fs.view.lastSeqNum < a.seqNum from hlt)]
      refine FlowView.ext rfl rfl rfl rfl rfl (funext fun m => ?_)
      simp only [view, lookup_foldl_registerGap, mem_missingSeqs hlt, Option.map_eq_none_iff,
        AList.lookup_eq_none]
      split <;> rfl
    · have hle : a.seqNum ≤ fs.lastSeqNum := by grind
      rw [if_neg (show ¬ fs.view.lastSeqNum < a.seqNum from hlt)]
      by_cases hreset : a.seqNum ≤ cfg.resetThreshold ∧ cfg.resetThreshold < fs.lastSeqNum
      · rw [observe_restart h₀ hreset.1 hreset.2,
          if_pos (show _ ∧ cfg.resetThreshold < fs.view.lastSeqNum from hreset)]
        rfl
      · rw [observe_old h₀ hle hreset,
          if_neg (show ¬ (_ ∧ cfg.resetThreshold < fs.view.lastSeqNum) from hreset)]

end FlowState

namespace Tracker

variable {cfg : TrackerConfig} {t : Tracker} {h : UInt64}

/-- What is seen of the flow `h`; `none` when it does not exist. -/
def flowView (t : Tracker) (h : UInt64) : Option FlowView := (t.flows.lookup h).map FlowState.view

theorem flowView_of_lookup {fs : FlowState} (hfs : t.flows.lookup h = some fs) :
    t.flowView h = some fs.view := by
  rw [flowView, hfs, Option.map_some]

theorem flowView_of_lookup_none (hfs : t.flows.lookup h = none) : t.flowView h = none := by
  rw [flowView, hfs, Option.map_none]

/-- `Observe`, in the view. -/
theorem flowView_observe (a : Arrival) :
    (t.observe cfg a).flowView h =
      if h = a.hashKey then FlowView.step cfg (t.flowView h) (.observe a) else t.flowView h := by
  rw [FlowView.step]
  by_cases heq : h = a.hashKey
  · subst heq
    rw [if_pos rfl]
    by_cases hs : a.seqNum = 0
    · rw [if_pos hs, observe, if_pos hs]
    · rw [if_neg hs, flowView_of_lookup (lookup_observe hs), FlowState.view_observe]
      cases hfs : t.flows.lookup a.hashKey with
      | none => rw [flowView_of_lookup_none hfs]; rfl
      | some fs => rw [flowView_of_lookup hfs]; rfl
  · rw [if_neg heq, flowView, lookup_observe_of_ne heq, flowView]

/-- Closing a gap that is not there changes nothing, in the view. -/
theorem flowView_closeGap (hashKey s : UInt64) (label : FlowState → FlowLabel) :
    (t.closeGap hashKey s label).flowView h =
      if h = hashKey then (t.flowView h).map (fun v => v.close s) else t.flowView h := by
  rw [closeGap]
  by_cases heq : h = hashKey
  · subst heq
    rw [if_pos rfl]
    cases hfs : t.flows.lookup h with
    | none => rw [flowView_of_lookup_none hfs, Option.map_none]
    | some fs =>
        rw [flowView_of_lookup hfs, Option.map_some, ← FlowState.view_erase]
        dsimp only
        by_cases hmem : s ∈ fs.pending
        · rw [if_pos hmem, flowView, AList.lookup_insert, Option.map_some]
        · have herase : fs.pending.erase s = fs.pending :=
            AList.ext (List.kerase_of_notMem_keys hmem)
          rw [if_neg hmem, herase, flowView_of_lookup hfs]
  · rw [if_neg heq]
    split
    · rfl
    · split
      · rw [flowView, AList.lookup_insert_ne heq, flowView]
      · rfl

/-- A failed attempt, in the view: neither the time nor the endpoints show. -/
theorem flowView_advanceEndpoint (now : Time) (e : GapEntry) (immediate : Bool) (n : ℕ) :
    (t.advanceEndpoint cfg now e immediate n).flowView h =
      if h = e.hashKey then (t.flowView h).map (fun v => v.advance e.seqNum)
      else t.flowView h := by
  rw [advanceEndpoint]
  by_cases heq : h = e.hashKey
  · rw [if_pos heq, ← heq]
    cases hfs : t.flows.lookup h with
    | none => rw [flowView_of_lookup_none hfs, Option.map_none]
    | some fs =>
        rw [flowView_of_lookup hfs, Option.map_some]
        cases hentry : fs.pending.lookup e.seqNum with
        | none =>
            simp only [hentry]
            rw [flowView_of_lookup hfs]
            refine congrArg some (FlowView.ext rfl rfl rfl rfl rfl ?_)
            simp [FlowView.advance, FlowState.view, hentry]
        | some entry =>
            simp only [hentry]
            rw [flowView, AList.lookup_insert, Option.map_some]
            refine congrArg some (FlowView.ext rfl rfl rfl rfl rfl (funext fun m => ?_))
            simp only [FlowView.advance, FlowState.view, AList.lookup_insert_ite,
              Function.update_apply, hentry]
            split <;> rfl
  · rw [if_neg heq]
    split
    · rfl
    · split
      · rfl
      · rw [flowView, AList.lookup_insert_ne heq, flowView]

/-- Whether an entry was copied does not show. -/
theorem unscheduled_sweptEntry (now : Time) (copied : Bool) (e : GapEntry) :
    (sweptEntry cfg now copied e).map GapEntry.unscheduled =
      (some e.unscheduled).filter fun e => Live cfg now e := by
  have hsame : Live cfg now e.unscheduled ↔ Live cfg now e := Iff.rfl
  by_cases hlive : Live cfg now e
  · have hkeep : ((some e.unscheduled).filter fun e => Live cfg now e) = some e.unscheduled := by
      simp [Option.filter, hsame, hlive]
    rw [hkeep, sweptEntry, if_pos hlive]
    split <;> rfl
  · simp [Option.filter, hsame, hlive, sweptEntry_eq_none.mpr hlive]

/-- What a sweep leaves of a flow, in the view. -/
theorem SweptFlow.view {now : Time} {copied : UInt64 → Bool} {fs : FlowState}
    {out : Option FlowState} (hswept : SweptFlow cfg now copied fs out) :
    out.map FlowState.view = fs.view.sweep cfg now := by
  have hgaps : ∀ m, (out.bind fun fs' => fs'.pending.lookup m).map GapEntry.unscheduled =
      (fs.view.live cfg now).gaps m := by
    intro m
    rw [hswept.gaps]
    dsimp only [FlowView.live, FlowState.view]
    cases fs.pending.lookup m with
    | none => rfl
    | some e => exact unscheduled_sweptEntry now (copied m) e
  have hdead : (∀ m e, fs.pending.lookup m = some e → ¬ Live cfg now e) ↔
      (fs.view.live cfg now).Gapless := by
    refine forall_congr' fun m => ?_
    rw [← hgaps, hswept.gaps, Option.map_eq_none_iff, Option.bind_eq_none_iff]
    exact forall_congr' fun e => imp_congr Iff.rfl sweptEntry_eq_none.symm
  have hgone : out = none ↔ (fs.view.live cfg now).Gapless ∧
      flowTTL cfg < now - fs.view.lastSeen := by
    rw [hswept.gone, hdead]
    rfl
  rw [FlowView.sweep]
  cases out with
  | none => rw [if_pos (hgone.mp rfl), Option.map_none]
  | some fs' =>
      rw [if_neg (mt hgone.mpr (Option.some_ne_none fs')), Option.map_some, hswept.kept fs' rfl]
      exact congrArg some (FlowView.ext rfl rfl rfl rfl rfl (funext hgaps))

/-- **A sweep**, in the view: neither the queue nor the orders show. -/
theorem flowView_sweepOnce (now : Time) (ord : SweepOrder) :
    (t.sweepOnce cfg now ord).flowView h = (t.flowView h).bind fun v => v.sweep cfg now := by
  cases hfs : t.flows.lookup h with
  | none =>
      rw [flowView_of_lookup_none hfs, flowView_of_lookup_none (lookup_sweepOnce_of_none ord hfs),
        Option.bind_none]
  | some fs =>
      obtain ⟨copied, hspec⟩ := sweepFlows_spec cfg t now ord
      rw [flowView_of_lookup hfs, Option.bind_some]
      exact (hspec.sweptFlow hfs).view

/-! ### The calls for one flow -/

/-- **A call does to the view of a flow what it means to that flow.** -/
theorem flowView_step (cfg : TrackerConfig) (h : UInt64) :
    Machine.Projects (Tracker.step cfg) (FlowView.step cfg) (fun t => t.flowView h)
      (Call.onFlow h) := by
  intro t c
  change (t.step cfg c).flowView h =
    (c.onFlow h).elim (t.flowView h) (FlowView.step cfg (t.flowView h))
  cases c with
  | observe a =>
      rw [Call.onFlow, step, flowView_observe]
      split <;> rfl
  | fill hashKey s =>
      rw [Call.onFlow, step, fill]
      by_cases hs : s = 0
      · rw [if_pos hs]
        split
        · rw [Option.elim_some, FlowView.step, if_pos hs]
        · rfl
      · rw [if_neg hs, flowView_closeGap]
        split
        · rw [Option.elim_some, FlowView.step, if_neg hs]
        · rfl
  | cancelGap e =>
      rw [Call.onFlow, step, cancelGap, flowView_closeGap]
      split <;> rfl
  | advanceEndpoint now e immediate n =>
      rw [Call.onFlow, step, flowView_advanceEndpoint]
      split <;> rfl
  | sweepOnce now ord => exact flowView_sweepOnce now ord
  | dequeue => rfl
  | nackDispatched groupIdx => rfl

/-- A call for another flow means nothing to the flow `h`. -/
theorem onFlow_eq_none {c : Call} {k : UInt64} (hc : c.flow = some k) (hne : h ≠ k) :
    c.onFlow h = none := by
  cases c with
  | observe a => exact if_neg (Option.some.inj hc ▸ hne)
  | fill hashKey s => exact if_neg (Option.some.inj hc ▸ hne)
  | cancelGap e => exact if_neg (Option.some.inj hc ▸ hne)
  | advanceEndpoint now e immediate n => exact if_neg (Option.some.inj hc ▸ hne)
  | sweepOnce now ord => cases hc
  | dequeue => cases hc
  | nackDispatched groupIdx => cases hc

/-- **Flows are independent.** What is seen of a flow after some calls, from any state,

* is what it would be after the calls for that flow and the sweeps alone;
* is the same after any two runs with the same calls for that flow and sweeps at the same times,
  from states that show the same of it: other calls, the orders of the maps and the contents of
  the queue do not matter;
* does not change when neighbouring calls for different flows change places. -/
theorem flows_independent (cfg : TrackerConfig) (h : UInt64) :
    (∀ t calls, (Machine.run (Tracker.step cfg) t calls).flowView h =
      (Machine.run (Tracker.step cfg) t
        (calls.filter fun c => (c.onFlow h).isSome)).flowView h) ∧
    (∀ t t' : Tracker, ∀ calls calls', t.flowView h = t'.flowView h →
      calls.filterMap (Call.onFlow h) = calls'.filterMap (Call.onFlow h) →
      (Machine.run (Tracker.step cfg) t calls).flowView h =
        (Machine.run (Tracker.step cfg) t' calls').flowView h) ∧
    (∀ t before c c' after k k', Call.flow c = some k → Call.flow c' = some k' → k ≠ k' →
      (Machine.run (Tracker.step cfg) t (before ++ c :: c' :: after)).flowView h =
        (Machine.run (Tracker.step cfg) t (before ++ c' :: c :: after)).flowView h) := by
  have hproj := flowView_step cfg h
  refine ⟨?_, ?_, ?_⟩
  · intro t calls
    exact (hproj.run_filter t calls).symm
  · intro t t' calls calls' hview hcalls
    exact hproj.run_congr hview hcalls
  · intro t before c c' after k k' hc hc' hne
    refine hproj.run_swap t before after ?_
    -- the flow that is looked at is not both
    by_cases hk : h = k
    · exact .inr (onFlow_eq_none hc' (hk ▸ hne))
    · exact .inl (onFlow_eq_none hc hk)

end Tracker

end ShardListener
