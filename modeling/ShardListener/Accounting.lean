import Mathlib.Tactic.Ring
import ShardListener.Dispatch

/-!
# Gap Accounting

The metrics of the tracker as a double-entry ledger. Every gap is detected once and leaves
once, suppressed or unrecovered, so `ledger` (detected less suppressed less unrecovered)
and the number of pending gaps move together in every call. The ledger is kept for an
arbitrary set of flow labels: all of them give the balance of the whole tracker, one of
them the balance of that label.

## Main results

* `ledger_observe`, `ledger_sweepFlow`: what one flow contributes.
* `Balanced.step`: a call keeps the balance, provided a response is counted under the
  label of its flow.
* `gap_accounting`: the balance of every reachable state, in total and by label.
-/

namespace ShardListener

/-! ### The ledger -/

/-- The sum of a counter over the labels in `S`. -/
def labelled (S : FlowLabel → Bool) (c : FlowLabel → ℕ) : ℕ :=
  (if S .brc124 then c .brc124 else 0) + (if S .brc131 then c .brc131 else 0) +
    (if S .brc132 then c .brc132 else 0)

/-- One under a label in `S`, zero under another. -/
def unitOf (S : FlowLabel → Bool) (l : FlowLabel) : ℕ := if S l then 1 else 0

/-- Gaps detected less gaps closed, over the labels in `S`. -/
def ledger (S : FlowLabel → Bool) (r : Recorder) : ℤ :=
  labelled S r.gapsDetected - labelled S r.gapsSuppressed - labelled S r.gapsUnrecovered

/-- The pending gaps of a flow, if its label is in `S`. -/
def share (S : FlowLabel → Bool) (fs : FlowState) : ℕ := unitOf S fs.flowType * fs.pending.size

/-- One more of a label. -/
theorem labelled_bump (S : FlowLabel → Bool) (c : FlowLabel → ℕ) (l : FlowLabel) :
    labelled S (bump c l) = labelled S c + unitOf S l := by
  cases l <;> simp only [labelled, bump, unitOf, reduceCtorEq, if_true, if_false] <;>
    split_ifs <;> omega

section Ledger

variable {S : FlowLabel → Bool}

/-- A gap that is detected is entered. -/
@[simp] theorem ledger_gapDetected (r : Recorder) (l : FlowLabel) :
    ledger S (r.gapDetected l) = ledger S r + unitOf S l := by
  simp only [ledger, Recorder.gapDetected, labelled_bump]
  omega

/-- A gap that is suppressed is crossed out. -/
@[simp] theorem ledger_gapSuppressed (r : Recorder) (l : FlowLabel) :
    ledger S (r.gapSuppressed l) = ledger S r - unitOf S l := by
  simp only [ledger, Recorder.gapSuppressed, labelled_bump]
  omega

/-- A gap that is given up is crossed out. -/
@[simp] theorem ledger_gapUnrecovered (r : Recorder) (l : FlowLabel) :
    ledger S (r.gapUnrecovered l) = ledger S r - unitOf S l := by
  simp only [ledger, Recorder.gapUnrecovered, labelled_bump]
  omega

/-- A NACK is not entered. -/
@[simp] theorem ledger_nackDispatched (r : Recorder) (l : FlowLabel) :
    ledger S (r.nackDispatched l) = ledger S r := rfl

/-- Giving up `n` gaps at once. -/
theorem ledger_giveUp (r : Recorder) (l : FlowLabel) (n : ℕ) :
    ledger S ((fun r => r.gapUnrecovered l)^[n] r) = ledger S r - unitOf S l * n := by
  induction n with
  | zero => simp
  | succ n ih =>
      rw [Function.iterate_succ_apply', ledger_gapUnrecovered, ih]
      push_cast
      ring

/-! ### One flow -/

/-- The auto-fill closes what it counts. -/
theorem ledger_autoFill (fs : FlowState) (r : Recorder) (s : UInt64) :
    ledger S (fs.autoFill r s).2 + share S fs = ledger S r + share S (fs.autoFill r s).1 := by
  rw [FlowState.autoFill]
  split
  · rename_i hs
    obtain ⟨e, he⟩ := AList.mem_iff_lookup.mp hs
    have hsize := AList.size_erase_of_lookup he
    simp only [share, ledger_gapSuppressed, ← hsize]
    push_cast
    ring
  · rfl

/-- One iteration of the registration loop registers what it counts. -/
theorem ledger_registerGap (cfg : TrackerConfig) (a : Arrival) (l : FlowLabel)
    (acc : AssocMap UInt64 GapEntry × Recorder) (m : UInt64) :
    ledger S (registerGap cfg a l acc m).2 + unitOf S l * acc.1.size =
      ledger S acc.2 + unitOf S l * (registerGap cfg a l acc m).1.size := by
  rw [registerGap]
  split
  · rfl
  · rename_i hm
    have hsize := AList.size_insert_of_lookup_none (GapEntry.fresh cfg a m)
      (AList.lookup_eq_none.mpr hm)
    simp only [hsize, ledger_gapDetected]
    push_cast
    ring

/-- The registration loop registers what it counts. -/
theorem ledger_foldl_registerGap (cfg : TrackerConfig) (a : Arrival) (l : FlowLabel)
    (ms : List UInt64) (acc : AssocMap UInt64 GapEntry × Recorder) :
    ledger S (ms.foldl (registerGap cfg a l) acc).2 + unitOf S l * acc.1.size =
      ledger S acc.2 + unitOf S l * (ms.foldl (registerGap cfg a l) acc).1.size := by
  induction ms generalizing acc with
  | nil => rfl
  | cons m ms ih =>
      have hhead := ledger_registerGap (S := S) cfg a l acc m
      have htail := ih (registerGap cfg a l acc m)
      rw [List.foldl_cons]
      omega

/-- The tracking steps of `Observe` register and give up what they count. -/
theorem ledger_track (cfg : TrackerConfig) (a : Arrival) (fs : FlowState) (r : Recorder) :
    ledger S (fs.track cfg a r).2 + share S fs = ledger S r + share S (fs.track cfg a r).1 := by
  rw [FlowState.track]
  split_ifs with h₀ hle hre hc
  · rfl
  · -- a restart gives up the whole pending map
    simp only [share, ledger_giveUp, AList.size_empty]
    push_cast
    ring
  · rfl
  · rfl
  · have hfold := ledger_foldl_registerGap (S := S) cfg a fs.flowType
      (missingSeqs fs.lastSeqNum a.seqNum) (fs.pending, r)
    simp only [share]
    push_cast
    exact hfold

/-- **`Observe` balances**: the ledger and the flow's pending map move together. -/
theorem ledger_observe (cfg : TrackerConfig) (a : Arrival) (fs : FlowState) (r : Recorder) :
    ledger S (fs.observe cfg a r).2 + share S fs =
      ledger S r + share S (fs.observe cfg a r).1 := by
  have hseen : share S { fs with lastSeen := a.now } = share S fs := rfl
  have hfill := ledger_autoFill (S := S) { fs with lastSeen := a.now } r a.seqNum
  have htrack := ledger_track (S := S) cfg a
    (({ fs with lastSeen := a.now }).autoFill r a.seqNum).1
    (({ fs with lastSeen := a.now }).autoFill r a.seqNum).2
  rw [FlowState.observe]
  omega

/-! ### Sweeping -/

/-- One iteration of the inner loop gives up what it counts. -/
theorem ledger_sweepGap (cfg : TrackerConfig) (now : Time) (l : FlowLabel)
    (acc : List GapEntry × Recorder) {k : UInt64} {e : GapEntry}
    {m : AssocMap UInt64 GapEntry} (he : m.lookup k = some e) :
    ledger S (Tracker.sweepGap cfg now l acc k e).1.2 + unitOf S l * m.size =
      ledger S acc.2 +
        unitOf S l * (m.put k (Tracker.sweepGap cfg now l acc k e).2).size := by
  have hcase := Tracker.sweepGap_case cfg now l acc k e
  generalize Tracker.sweepGap cfg now l acc k e = out at hcase
  cases hcase with
  | dropped _ =>
      have hsize := AList.size_erase_of_lookup he
      simp only [AList.put, ledger_gapUnrecovered, ← hsize]
      push_cast
      ring
  | enqueued _ _ _ | deferred _ _ _ | waiting _ _ =>
      simp only [AList.put, AList.size_insert_of_lookup _ he]

/-- The inner loop gives up what it counts. -/
theorem ledger_range_sweepGap (cfg : TrackerConfig) (now : Time) (l : FlowLabel)
    (ord : RangeOrder UInt64) (acc : List GapEntry × Recorder)
    (pending : AssocMap UInt64 GapEntry) :
    ledger S (pending.range ord (Tracker.sweepGap cfg now l) acc).1.2 +
        unitOf S l * pending.size =
      ledger S acc.2 +
        unitOf S l * (pending.range ord (Tracker.sweepGap cfg now l) acc).2.size := by
  obtain ⟨done, -, h⟩ := AList.range_invariant
    (P := fun (_ : List UInt64) (s : List GapEntry × Recorder) m =>
      ledger S s.2 + unitOf S l * pending.size = ledger S acc.2 + unitOf S l * m.size)
    (Tracker.sweepGap cfg now l) ord (s := acc) (m := pending) rfl (by
      intro done s m k e _ _ he ih
      have hstep := ledger_sweepGap (S := S) cfg now l s he
      omega)
  exact h

/-- **A sweep of one flow balances.** A flow that is dropped has nothing pending, so its
share of nothing is what is left of it. -/
theorem ledger_sweepFlow (cfg : TrackerConfig) (now : Time) (ord : Tracker.SweepOrder)
    (acc : List GapEntry × Recorder) (hk : UInt64) (fs : FlowState) :
    ledger S (Tracker.sweepFlow cfg now ord acc hk fs).1.2 + share S fs =
      ledger S acc.2 +
        (((Tracker.sweepFlow cfg now ord acc hk fs).2.map (share S)).getD 0 : ℕ) := by
  have hrange := ledger_range_sweepGap (S := S) cfg now fs.flowType (ord.gaps hk) acc fs.pending
  rw [Tracker.sweepFlow]
  split
  · rename_i hdrop
    rw [hdrop.1] at hrange
    simp only [share, Option.map_none, Option.getD_none]
    push_cast
    simpa using hrange
  · simp only [share, Option.map_some, Option.getD_some]
    push_cast
    exact hrange

end Ledger

/-! ### The whole tracker -/

namespace Tracker

/-- The pending gaps of the flows with a label in `S`. -/
def pendingIn (S : FlowLabel → Bool) (t : Tracker) : ℕ := t.flows.weight (share S)

/-- The books agree with the pending maps. -/
def Balanced (S : FlowLabel → Bool) (t : Tracker) : Prop := ledger S t.recorder = t.pendingIn S

variable {S : FlowLabel → Bool} {cfg : TrackerConfig} {t : Tracker}

/-- A new tracker has nothing on its books. -/
theorem Balanced.new (S : FlowLabel → Bool) : Balanced S Tracker.new := by
  have hzero : labelled S (fun _ => 0) = 0 := by
    simp only [labelled, ite_self]
  show (labelled S (fun _ => 0) : ℤ) - labelled S (fun _ => 0) - labelled S (fun _ => 0) = (0 : ℕ)
  rw [hzero]
  rfl

/-- Rewriting one flow and the recorder keeps the balance when the flow's share moves with
the ledger. -/
theorem Balanced.insert (h : Balanced S t) {hk : UInt64} {fs : FlowState} {r : Recorder}
    (q : List GapEntry)
    (hmove : ledger S r + t.flows.weightAt (share S) hk = ledger S t.recorder + share S fs) :
    Balanced S ⟨t.flows.insert hk fs, q, r⟩ := by
  have hweight := AList.weight_insert (share S) t.flows hk fs
  have hbal : ledger S t.recorder = t.flows.weight (share S) := h
  show ledger S r = ((t.flows.insert hk fs).weight (share S) : ℕ)
  omega

/-- An arrival enters the gaps that it opens and crosses out the one that it closes. -/
theorem Balanced.observe (h : Balanced S t) (a : Arrival) : Balanced S (t.observe cfg a) := by
  rw [Tracker.observe]
  split
  · exact h
  · refine h.insert _ ?_
    have hledger := ledger_observe (S := S) cfg a
      ((t.flows.lookup a.hashKey).getD (.fresh a)) t.recorder
    -- a flow that does not exist yet has the share of a fresh one
    have hshare : t.flows.weightAt (share S) a.hashKey =
        share S ((t.flows.lookup a.hashKey).getD (.fresh a)) := by
      cases hf : t.flows.lookup a.hashKey with
      | none =>
          rw [AList.weightAt_of_lookup_none hf, Option.getD_none]
          rfl
      | some fs => rw [AList.weightAt_of_lookup hf, Option.getD_some]
    rw [hshare]
    exact hledger

/-- Closing a gap balances when it is counted under a label that `S` treats like the
flow's own. -/
theorem Balanced.closeGap (h : Balanced S t) {hk s : UInt64} {label : FlowState → FlowLabel}
    (hlabel : ∀ fs, t.flows.lookup hk = some fs → s ∈ fs.pending →
      S (label fs) = S fs.flowType) : Balanced S (t.closeGap hk s label) := by
  rw [Tracker.closeGap]
  cases hf : t.flows.lookup hk with
  | none => exact h
  | some fs =>
      simp only
      split
      · rename_i hs
        obtain ⟨e, he⟩ := AList.mem_iff_lookup.mp hs
        have hsize := AList.size_erase_of_lookup he
        refine h.insert _ ?_
        rw [AList.weightAt_of_lookup hf, ledger_gapSuppressed]
        simp only [share, ← hsize, unitOf, hlabel fs hf hs]
        push_cast
        ring
      · exact h

/-- A gap that has run out of retries is crossed out. -/
theorem Balanced.advanceEndpoint (h : Balanced S t) (now : Time) (c : GapEntry)
    (immediate : Bool) (n : ℕ) : Balanced S (t.advanceEndpoint cfg now c immediate n) := by
  rw [Tracker.advanceEndpoint]
  cases hf : t.flows.lookup c.hashKey with
  | none => exact h
  | some fs =>
      cases hp : fs.pending.lookup c.seqNum with
      | none =>
          simp only [hp]
          exact h
      | some e =>
          simp only [hp]
          refine h.insert _ ?_
          rw [AList.weightAt_of_lookup hf]
          simp only [share, AList.size_insert_of_lookup _ hp]

/-- The sweep crosses out the gaps that it gives up. -/
theorem Balanced.sweepOnce (h : Balanced S t) (now : Time) (ord : SweepOrder) :
    Balanced S (t.sweepOnce cfg now ord) := by
  obtain ⟨done, -, hrun⟩ := AList.range_invariant
    (P := fun (_ : List UInt64) (s : List GapEntry × Recorder) m =>
      ledger S s.2 = AList.weight (share S) m)
    (sweepFlow cfg now ord) ord.flows (s := (t.nackQueue, t.recorder)) (m := t.flows) h (by
      intro done s m k fs _ _ hfs ih
      have hflow := ledger_sweepFlow (S := S) cfg now ord s k fs
      have hput := AList.weight_put (share S) m k (sweepFlow cfg now ord s k fs).2
      rw [AList.weightAt_of_lookup hfs] at hput
      omega)
  exact hrun

/-- A call counts a response under the label of its flow, as far as `S` can tell. -/
def CountsInLabel (S : FlowLabel → Bool) (t : Tracker) : Call → Prop
  | .cancelGap e => ∀ fs, t.flows.lookup e.hashKey = some fs → e.seqNum ∈ fs.pending →
      S (flowLabel e.groupIdx) = S fs.flowType
  | _ => True

/-- **The step lemma.** -/
theorem Balanced.step (h : Balanced S t) {c : Call} (hc : CountsInLabel S t c) :
    Balanced S (t.step cfg c) := by
  cases c with
  | observe a => exact h.observe a
  | fill hashKey seqNum =>
      rw [Tracker.step, fill]
      split
      · exact h
      · exact h.closeGap fun _ _ _ => rfl
  | cancelGap e => exact h.closeGap hc
  | advanceEndpoint now e immediate n => exact h.advanceEndpoint now e immediate n
  | sweepOnce now ord => exact h.sweepOnce now ord
  | dequeue => exact h
  | nackDispatched groupIdx => exact h

/-! ### Flows that keep their group -/

/-- Every flow and every pending gap carries the group index that `g` assigns to the
flow. -/
structure Grouped (g : UInt64 → UInt32) (t : Tracker) : Prop where
  flowType : ∀ h fs, t.flows.lookup h = some fs → fs.flowType = flowLabel (g h)
  groupIdx : ∀ h m e, t.gap h m = some e → e.groupIdx = g h

/-- Arrivals that carry the group index of their flow keep it. -/
theorem Grouped.step {g : UInt64 → UInt32} (ht : Grouped g t) {c : Call}
    (hc : ∀ a, c = .observe a → a.groupIdx = g a.hashKey) : Grouped g (t.step cfg c) := by
  -- flows that are only thinned out keep label and group
  have hthin : ∀ h, Thins (t.flows.lookup h) ((t.step cfg c).flows.lookup h) →
      (∀ fs, (t.step cfg c).flows.lookup h = some fs → fs.flowType = flowLabel (g h)) ∧
      ∀ m e, (t.step cfg c).gap h m = some e → e.groupIdx = g h := by
    intro h hthins
    constructor
    · intro fs' hfs'
      obtain ⟨fs, hfs, -, hft, -⟩ := hthins fs' hfs'
      rw [hft, ht.flowType h fs hfs]
    · intro m e' he'
      obtain ⟨fs', hfs', hp'⟩ := gap_eq_some.mp he'
      obtain ⟨fs, hfs, -, -, hsub⟩ := hthins fs' hfs'
      obtain ⟨e, he, hsame⟩ := hsub m e' hp'
      rw [hsame.groupIdx, ht.groupIdx h m e (gap_eq_some.mpr ⟨fs, hfs, he⟩)]
  by_cases hobs : ∃ a, c = .observe a ∧ a.seqNum ≠ 0
  · obtain ⟨a, rfl, hs⟩ := hobs
    have hg := hc a rfl
    constructor
    · intro h fs' hfs'
      by_cases hh : h = a.hashKey
      · subst hh
        rw [Tracker.step, lookup_observe hs, Option.some.injEq] at hfs'
        rw [← hfs', FlowState.observe_flowType]
        cases hf : t.flows.lookup a.hashKey with
        | none =>
            rw [Option.getD_none, ← hg]
            rfl
        | some fs => exact ht.flowType _ fs hf
      · exact (hthin h (step_thins _ h fun a' ha' => by
          obtain rfl := Call.observe.inj ha'
          exact Or.inl (Ne.symm hh))).1 fs' hfs'
    · intro h m e he
      rcases gap_observe he with he | ⟨-, rfl, rfl, -⟩
      · exact ht.groupIdx h m e he
      · exact hg
  · have hz : ∀ h a, c = .observe a → a.hashKey ≠ h ∨ a.seqNum = 0 := by
      intro h a ha
      exact Or.inr (not_not.mp fun hs => hobs ⟨a, ha, hs⟩)
    exact ⟨fun h => (hthin h (step_thins c h (hz h))).1,
      fun h => (hthin h (step_thins c h (hz h))).2⟩

end Tracker

/-! ### The balance of every reachable state -/

namespace System

/-- Copies on the way know the group of their flow, and the books of every label agree. -/
structure Accounted (g : UInt64 → UInt32) (s : System) : Prop where
  keyed : s.tracker.Keyed
  grouped : s.tracker.Grouped g
  copies : ∀ c ∈ s.copies, c.groupIdx = g c.hashKey
  balanced : ∀ S, s.tracker.Balanced S

/-- The books are empty at the start. -/
theorem Accounted.start (g : UInt64 → UInt32) (r : Registry) : Accounted g (start r) where
  keyed := fun _ _ _ h => nomatch h
  grouped := ⟨fun _ _ h => (nomatch h), fun _ _ _ h => nomatch h⟩
  copies := fun _ h => nomatch h
  balanced := Tracker.Balanced.new

/-- **The step lemma**: every event keeps the books. -/
theorem Accounted.step {cfg : TrackerConfig} {g : UInt64 → UInt32} {s : System} {ev : Event}
    (h : Accounted g s) (hev : ∀ a, ev = .observe a → a.groupIdx = g a.hashKey) :
    Accounted g (s.step cfg ev) := by
  have hcopies : ∀ c ∈ (s.step cfg ev).copies, c.groupIdx = g c.hashKey := by
    intro c hc
    rcases mem_copies_step h.keyed hc with hc | ⟨now, ord, e, -, he, -, -, rfl⟩
    · exact h.copies c hc
    · exact h.grouped.groupIdx _ _ e he
  have ht := tracker_step cfg s ev
  cases hcall : s.call ev with
  | none =>
      rw [hcall, Option.elim_none] at ht
      exact ⟨keyed_step cfg h.keyed ev, ht ▸ h.grouped, hcopies, ht ▸ h.balanced⟩
  | some c =>
      rw [hcall, Option.elim_some] at ht
      refine ⟨keyed_step cfg h.keyed ev, ht ▸ h.grouped.step ?_, hcopies, ?_⟩
      · rintro a rfl
        exact hev a (call_eq_observe hcall)
      · intro S
        rw [ht]
        refine (h.balanced S).step ?_
        cases c with
        | cancelGap e =>
            intro fs hfs _
            rw [h.grouped.flowType _ fs hfs, h.copies e (call_eq_cancelGap hcall)]
        | _ => trivial

/-- The run lemma: a schedule whose arrivals keep to the group of their flow. -/
theorem accounted_after (cfg : TrackerConfig) (g : UInt64 → UInt32) (r : Registry)
    {es : List Event} (hes : ∀ a, .observe a ∈ es → a.groupIdx = g a.hashKey) :
    Accounted g (after cfg r es) := by
  have hrun : ∀ (es : List Event) (s : System), Accounted g s →
      (∀ a, .observe a ∈ es → a.groupIdx = g a.hashKey) →
      Accounted g (Machine.run (step cfg) s es) := by
    intro es
    induction es with
    | nil => exact fun s hs _ => hs
    | cons ev es ih =>
        intro s hs hes
        refine ih _ (hs.step fun a ha => hes a ?_) fun a ha => hes a (List.mem_cons_of_mem _ ha)
        rw [← ha]
        exact List.mem_cons_self
  exact hrun es _ (.start g r) hes

end System

namespace Tracker

/-- The sum of a counter over all labels. -/
def total (c : FlowLabel → ℕ) : ℕ := c .brc124 + c .brc131 + c .brc132

/-- The pending gaps of the flows labelled `l`. -/
def pendingGapsOf (l : FlowLabel) (t : Tracker) : ℕ :=
  t.flows.weight fun fs => if fs.flowType = l then fs.pending.size else 0

/-- **The run lemma**, over all labels. -/
theorem balanced_after (cfg : TrackerConfig) (calls : List Call) :
    Balanced (fun _ => true) (Tracker.after cfg calls) :=
  Machine.run_invariant (P := Balanced fun _ => true) (.new _)
    (fun _ c h => h.step (by cases c <;> simp [CountsInLabel])) calls

/-- The balance over all labels, in the words of the source. -/
theorem Balanced.total {t : Tracker} (h : Balanced (fun _ => true) t) :
    total t.recorder.gapsDetected = total t.recorder.gapsSuppressed +
      total t.recorder.gapsUnrecovered + t.pendingGaps := by
  have hshare : share (fun _ => true) = fun fs => fs.pending.size := by
    funext fs
    simp [share, unitOf]
  rw [Balanced, pendingIn, hshare] at h
  simp only [ledger, labelled, if_true] at h
  simp only [Tracker.total, pendingGaps]
  omega

/-- The balance of one label. -/
theorem Balanced.label {t : Tracker} {l : FlowLabel} (h : Balanced (fun l' => l' = l) t) :
    t.recorder.gapsDetected l = t.recorder.gapsSuppressed l +
      t.recorder.gapsUnrecovered l + t.pendingGapsOf l := by
  have hshare : share (fun l' => l' = l) =
      fun fs => if fs.flowType = l then fs.pending.size else 0 := by
    funext fs
    simp [share, unitOf]
  rw [Balanced, pendingIn, hshare] at h
  rw [pendingGapsOf]
  cases l <;> simp [ledger, labelled] at h <;> omega

/-- A response for a gap that is closed changes nothing. -/
theorem late_response {t : Tracker} {e : GapEntry} (h : t.gap e.hashKey e.seqNum = none) :
    t.cancelGap e = t ∧
      ∀ (cfg : TrackerConfig) (now : Time) (immediate : Bool) (n : ℕ),
        t.advanceEndpoint cfg now e immediate n = t := by
  cases hf : t.flows.lookup e.hashKey with
  | none => exact ⟨by simp only [cancelGap, closeGap, hf], fun _ _ _ _ => by
      simp only [advanceEndpoint, hf]⟩
  | some fs =>
      rw [gap_of_lookup hf] at h
      have hnot : e.seqNum ∉ fs.pending := AList.lookup_eq_none.mp h
      refine ⟨?_, fun _ _ _ _ => ?_⟩
      · simp only [cancelGap, closeGap, hf, hnot, if_false]
      · simp only [advanceEndpoint, hf, h]

/-- A flow that a sweep drops had no gap that was still alive. -/
theorem dropped_flow {cfg : TrackerConfig} {t : Tracker} {now : Time} {ord : SweepOrder}
    {h m : UInt64} {e : GapEntry} (he : t.gap h m = some e)
    (hdrop : (t.sweepOnce cfg now ord).flows.lookup h = none) : ¬ Live cfg now e :=
  (gap_sweepOnce_eq_none_iff he).mp (gap_of_lookup_none hdrop)

/-- **Gap accounting is conserved.** After any calls on a new tracker the gaps detected are
those suppressed, those unrecovered and those still pending; a response that comes too late
leaves everything as it is, and a flow is dropped only when all its gaps have been given
up. In every schedule whose arrivals carry one group index for each flow, the books
balance for each label. -/
theorem gap_accounting (cfg : TrackerConfig) :
    (∀ calls, total (Tracker.after cfg calls).recorder.gapsDetected =
      total (Tracker.after cfg calls).recorder.gapsSuppressed +
        total (Tracker.after cfg calls).recorder.gapsUnrecovered +
        (Tracker.after cfg calls).pendingGaps) ∧
    (∀ calls e, (Tracker.after cfg calls).gap e.hashKey e.seqNum = none →
      (Tracker.after cfg calls).cancelGap e = Tracker.after cfg calls ∧
        ∀ now immediate n, (Tracker.after cfg calls).advanceEndpoint cfg now e immediate n =
          Tracker.after cfg calls) ∧
    (∀ calls now ord h m e, (Tracker.after cfg calls).gap h m = some e →
      ((Tracker.after cfg calls).sweepOnce cfg now ord).flows.lookup h = none →
      ¬ Live cfg now e) ∧
    ∀ (r : Registry) (es : List Event) (g : UInt64 → UInt32),
      (∀ a, Event.observe a ∈ es → a.groupIdx = g a.hashKey) → ∀ l,
      (System.after cfg r es).tracker.recorder.gapsDetected l =
        (System.after cfg r es).tracker.recorder.gapsSuppressed l +
          (System.after cfg r es).tracker.recorder.gapsUnrecovered l +
          (System.after cfg r es).tracker.pendingGapsOf l := by
  refine ⟨fun calls => (balanced_after cfg calls).total, ?_, ?_, ?_⟩
  · intro calls e he
    exact ⟨(late_response he).1, (late_response he).2 cfg⟩
  · intro calls now ord h m e he hdrop
    exact dropped_flow he hdrop
  · intro r es g hes l
    exact ((System.accounted_after cfg g r hes).balanced _).label

/-- Two of three missing frames of a block control flow come back, one of them out of
order: the label's books show three detected, two suppressed, one pending. -/
theorem gap_accounting_control_flow :
    (System.after testConfig Registry.new
      [.observe { arrivalAt 7 1 0 with groupIdx := ctrlGroupControl },
       .observe { arrivalAt 7 5 1 with groupIdx := ctrlGroupControl },
       .fill 7 3,
       .observe { arrivalAt 7 2 2 with groupIdx := ctrlGroupControl }]
      ).tracker.recorder.gapsDetected .brc131 = 2 + 0 + 1 :=
  (gap_accounting testConfig).2.2.2 Registry.new _ (fun _ => ctrlGroupControl)
    (by simp) .brc131

end Tracker

end ShardListener
