import ShardListener.Flow

/-!
# The Tracker as One Map of Gaps

Retry bookkeeping does not care about flows: it sees gaps by `(hashKey, seqNum)`. This
module states each mutator as its effect on `Tracker.gap`, and what a sweep puts into the
queue.

## Main results

* `gap_closeGap`, `gap_advanceEndpoint`, `gap_observe`, `gap_sweepOnce`: one equation or
  case split for each mutator.
* `sweepOnce_nackQueue`: a sweep appends stamped copies of surviving entries, at most one
  for each gap, in some order.
-/

namespace ShardListener

/-- The key of a gap. -/
def GapEntry.key (e : GapEntry) : UInt64 × UInt64 := (e.hashKey, e.seqNum)

namespace Tracker

variable {cfg : TrackerConfig} {t : Tracker}

/-- Reading a gap through its flow. -/
theorem gap_of_lookup {h m : UInt64} {fs : FlowState} (hfs : t.flows.lookup h = some fs) :
    t.gap h m = fs.pending.lookup m := by
  rw [gap, hfs, Option.bind_some]

/-- A flow that is not known has no gaps. -/
theorem gap_of_lookup_none {h m : UInt64} (hfs : t.flows.lookup h = none) :
    t.gap h m = none := by
  rw [gap, hfs, Option.bind_none]

/-- A pending gap has a flow. -/
theorem gap_eq_some {h m : UInt64} {e : GapEntry} :
    t.gap h m = some e ↔
      ∃ fs, t.flows.lookup h = some fs ∧ fs.pending.lookup m = some e := by
  rw [gap, Option.bind_eq_some_iff]

/-! ### Closing and advancing -/

/-- Closing a gap removes that gap and no other. -/
theorem gap_closeGap (hk s : UInt64) (label : FlowState → FlowLabel) (h m : UInt64) :
    (t.closeGap hk s label).gap h m = if h = hk ∧ m = s then none else t.gap h m := by
  rw [closeGap]
  cases hf : t.flows.lookup hk with
  | none =>
      by_cases hkey : h = hk ∧ m = s
      · obtain ⟨rfl, rfl⟩ := hkey
        rw [if_pos ⟨rfl, rfl⟩]
        exact gap_of_lookup_none hf
      · rw [if_neg hkey]
  | some fs =>
      by_cases hs : s ∈ fs.pending
      · simp only [hs, if_true]
        by_cases hh : h = hk
        · subst hh
          rw [gap_of_lookup (AList.lookup_insert _), gap_of_lookup hf, AList.lookup_erase_ite]
          by_cases hm : m = s <;> simp [hm]
        · rw [gap, AList.lookup_insert_ne hh, if_neg (fun hkey => hh hkey.1)]
          rfl
      · simp only [hs, if_false]
        by_cases hkey : h = hk ∧ m = s
        · obtain ⟨rfl, rfl⟩ := hkey
          rw [if_pos ⟨rfl, rfl⟩, gap_of_lookup hf]
          exact AList.lookup_eq_none.mpr hs
        · rw [if_neg hkey]

/-- A failed attempt rewrites the retry state of its gap, if that is still pending. -/
theorem gap_advanceEndpoint (now : Time) (c : GapEntry) (immediate : Bool) (n : ℕ)
    (h m : UInt64) :
    (t.advanceEndpoint cfg now c immediate n).gap h m =
      if h = c.hashKey ∧ m = c.seqNum then
        (t.gap h m).map (advanceEntry cfg now immediate n)
      else t.gap h m := by
  rw [advanceEndpoint]
  cases hf : t.flows.lookup c.hashKey with
  | none =>
      by_cases hkey : h = c.hashKey ∧ m = c.seqNum
      · obtain ⟨rfl, rfl⟩ := hkey
        simp only [and_self, if_true]
        rw [gap_of_lookup_none hf, Option.map_none]
      · rw [if_neg hkey]
  | some fs =>
      cases hp : fs.pending.lookup c.seqNum with
      | none =>
          simp only [hp]
          by_cases hkey : h = c.hashKey ∧ m = c.seqNum
          · obtain ⟨rfl, rfl⟩ := hkey
            simp only [and_self, if_true]
            rw [gap_of_lookup hf, hp, Option.map_none]
          · rw [if_neg hkey]
      | some entry =>
          simp only [hp]
          by_cases hh : h = c.hashKey
          · subst hh
            rw [gap_of_lookup (AList.lookup_insert _), gap_of_lookup hf,
              AList.lookup_insert_ite]
            by_cases hm : m = c.seqNum
            · subst hm
              simp [hp]
            · simp [hm]
          · rw [gap, AList.lookup_insert_ne hh, if_neg (fun hkey => hh hkey.1)]
            rfl

/-- `Fill` takes gaps away and adds none. -/
theorem gap_of_fill {hk s h m : UInt64} {e : GapEntry} (he : (t.fill hk s).gap h m = some e) :
    t.gap h m = some e := by
  rw [fill] at he
  split at he
  · exact he
  · rw [gap_closeGap] at he
    split at he
    · cases he
    · exact he

/-- Closing a gap does not touch the queue. -/
@[simp] theorem closeGap_nackQueue (hk s : UInt64) (label : FlowState → FlowLabel) :
    (t.closeGap hk s label).nackQueue = t.nackQueue := by
  rw [closeGap]
  split
  · rfl
  · split <;> rfl

/-- Filling a gap leaves the queue alone. -/
@[simp] theorem fill_nackQueue (hk s : UInt64) : (t.fill hk s).nackQueue = t.nackQueue := by
  rw [fill]
  split
  · rfl
  · exact closeGap_nackQueue _ _ _

/-- Cancelling a gap leaves the queue alone. -/
@[simp] theorem cancelGap_nackQueue (c : GapEntry) : (t.cancelGap c).nackQueue = t.nackQueue :=
  closeGap_nackQueue _ _ _

/-- Moving on to the next endpoint leaves the queue alone. -/
@[simp] theorem advanceEndpoint_nackQueue (now : Time) (c : GapEntry) (immediate : Bool)
    (n : ℕ) : (t.advanceEndpoint cfg now c immediate n).nackQueue = t.nackQueue := by
  rw [advanceEndpoint]
  split
  · rfl
  · split <;> rfl

/-- An arrival leaves the queue alone: gaps are queued by the sweep. -/
@[simp] theorem observe_nackQueue (a : Arrival) :
    (t.observe cfg a).nackQueue = t.nackQueue := by
  rw [observe]
  split <;> rfl

/-! ### Observing -/

/-- After `Observe`, a pending gap was pending before, unchanged, or has just been
registered: its flow existed, the arriving number jumped over it, and it was not
pending. -/
theorem gap_observe {a : Arrival} {h m : UInt64} {e : GapEntry}
    (he : (t.observe cfg a).gap h m = some e) :
    t.gap h m = some e ∨
      (t.gap h m = none ∧ h = a.hashKey ∧ e = GapEntry.fresh cfg a m ∧
        ∃ fs, t.flows.lookup h = some fs ∧ fs.lastSeqNum < m ∧ m < a.seqNum) := by
  by_cases hs : a.seqNum = 0
  · rw [observe, if_pos hs] at he
    exact Or.inl he
  by_cases hh : h = a.hashKey
  · subst hh
    rw [gap_of_lookup (lookup_observe hs)] at he
    -- the entry comes from the flow's own map or from the registration loop
    cases hf : t.flows.lookup a.hashKey with
    | none =>
        rw [hf, Option.getD_none, FlowState.observe_first rfl] at he
        have hfresh : (FlowState.fresh a).pending.lookup m = some e :=
          AList.lookup_of_lookup_erase he
        cases hfresh
    | some fs =>
        rw [hf, Option.getD_some] at he
        rw [gap_of_lookup hf]
        by_cases h₀ : fs.lastSeqNum = 0
        · rw [FlowState.observe_first h₀] at he
          exact Or.inl (AList.lookup_of_lookup_erase he)
        by_cases hre : a.seqNum ≤ cfg.resetThreshold ∧ cfg.resetThreshold < fs.lastSeqNum
        · rw [FlowState.observe_restart h₀ hre.1 hre.2] at he
          cases he
        by_cases hle : a.seqNum ≤ fs.lastSeqNum
        · rw [FlowState.observe_old h₀ hle hre] at he
          exact Or.inl (AList.lookup_of_lookup_erase he)
        have hlt : fs.lastSeqNum < a.seqNum := by grind
        rw [FlowState.observe_new h₀ hlt] at he
        simp only [lookup_foldl_registerGap] at he
        split at he
        · rename_i hmem
          obtain ⟨hmiss, hnot⟩ := hmem
          obtain ⟨hlo, hhi⟩ := (mem_missingSeqs hlt).mp hmiss
          refine Or.inr ⟨?_, rfl, (Option.some.inj he).symm, fs, rfl, hlo, hhi⟩
          rw [← AList.lookup_erase_ne (by grind : m ≠ a.seqNum)]
          exact AList.lookup_eq_none.mpr hnot
        · exact Or.inl (AList.lookup_of_lookup_erase he)
  · rw [gap, lookup_observe_of_ne hh] at he
    exact Or.inl he

/-! ### Sweeping -/

/-- What a sweep does to one gap. -/
theorem gap_sweepOnce (cfg : TrackerConfig) (t : Tracker) (now : Time) (ord : SweepOrder)
    (h m : UInt64) : ∃ label acc, (t.sweepOnce cfg now ord).gap h m =
      (t.gap h m).bind fun e => (sweepGap cfg now label acc m e).2 := by
  obtain ⟨acc, hacc⟩ := AList.lookup_range (sweepFlow cfg now ord) ord.flows
    (t.nackQueue, t.recorder) t.flows h
  have hsweep : (t.sweepOnce cfg now ord).flows.lookup h =
      (t.flows.lookup h).bind fun fs => (sweepFlow cfg now ord acc h fs).2 := hacc
  cases hf : t.flows.lookup h with
  | none =>
      rw [hf, Option.bind_none] at hsweep
      exact ⟨.brc124, acc, by rw [gap_of_lookup_none hsweep, gap_of_lookup_none hf]; rfl⟩
  | some fs =>
      rw [hf, Option.bind_some] at hsweep
      obtain ⟨acc', hacc'⟩ := AList.lookup_range (sweepGap cfg now fs.flowType)
        (ord.gaps h) acc fs.pending m
      refine ⟨fs.flowType, acc', ?_⟩
      rw [gap_of_lookup hf, ← hacc']
      cases hfs' : (sweepFlow cfg now ord acc h fs).2 with
      | none =>
          rw [hfs'] at hsweep
          rw [gap_of_lookup_none hsweep, sweepFlow_none hfs']
      | some fs' =>
          rw [hfs'] at hsweep
          rw [gap_of_lookup hsweep, sweepFlow_some hfs']

/-- A sweep removes a gap exactly when it is overdue or out of retries. -/
theorem gap_sweepOnce_eq_none_iff {now : Time} {ord : SweepOrder} {h m : UInt64} {e : GapEntry}
    (he : t.gap h m = some e) :
    (t.sweepOnce cfg now ord).gap h m = none ↔ ¬ Live cfg now e := by
  obtain ⟨label, acc, hsweep⟩ := gap_sweepOnce cfg t now ord h m
  rw [hsweep, he, Option.bind_some]
  have hcase := sweepGap_case cfg now label acc m e
  generalize sweepGap cfg now label acc m e = out at hcase
  cases hcase with
  | dropped hdead => exact iff_of_true rfl hdead
  | enqueued hlive _ _ | deferred hlive _ _ | waiting hlive _ =>
      exact iff_of_false (Option.some_ne_none _) (not_not.mpr hlive)

/-- A copy that the sweeper took of the live, due entry `e`. -/
def Stamped (cfg : TrackerConfig) (now : Time) (e c : GapEntry) : Prop :=
  Live cfg now e ∧ e.nextAttempt < now ∧ c = { e with nextAttempt := stamp now }

/-- Every entry knows its own key. -/
def Keyed (t : Tracker) : Prop :=
  ∀ h m e, t.gap h m = some e → e.hashKey = h ∧ e.seqNum = m

/-- The invariant of the inner loop. The queue has grown by stamped copies of visited
entries, one for each gap at most, and the map still holds what was copied. -/
def CopiedGaps (cfg : TrackerConfig) (now : Time) (q : List GapEntry)
    (pending : AssocMap UInt64 GapEntry) (done : List UInt64) (acc : List GapEntry × Recorder)
    (m : AssocMap UInt64 GapEntry) : Prop :=
  ∃ new, acc.1 = q ++ new ∧ (new.map GapEntry.seqNum).Nodup ∧
    ∀ c ∈ new, c.seqNum ∈ done ∧ ∃ e, pending.lookup c.seqNum = some e ∧
      m.lookup c.seqNum = some c ∧ Stamped cfg now e c

/-- One gap of a flow is swept. -/
theorem copiedGaps_step {now : Time} {label : FlowLabel} {q : List GapEntry}
    {pending m : AssocMap UInt64 GapEntry} {done : List UInt64}
    {acc : List GapEntry × Recorder} {k : UInt64} {e : GapEntry} (hk : k ∉ done)
    (hseq : e.seqNum = k) (he : pending.lookup k = some e)
    (h : CopiedGaps cfg now q pending done acc m) :
    CopiedGaps cfg now q pending (k :: done) (sweepGap cfg now label acc k e).1
      (m.put k (sweepGap cfg now label acc k e).2) := by
  obtain ⟨new, hq, hnd, hnew⟩ := h
  -- the entries copied before are not touched by this iteration
  have hframe : ∀ o, ∀ c ∈ new, c.seqNum ∈ k :: done ∧ ∃ e,
      pending.lookup c.seqNum = some e ∧ (m.put k o).lookup c.seqNum = some c ∧
      Stamped cfg now e c := by
    intro o c hc
    obtain ⟨hdone, e', he', hc', hst⟩ := hnew c hc
    have hne : c.seqNum ≠ k := fun heq => hk (heq ▸ hdone)
    refine ⟨List.mem_cons_of_mem _ hdone, e', he', ?_, hst⟩
    rw [AList.lookup_put, if_neg hne, hc']
  have hcase := sweepGap_case cfg now label acc k e
  generalize sweepGap cfg now label acc k e = out at hcase
  cases hcase with
  | dropped _ => exact ⟨new, hq, hnd, hframe _⟩
  | deferred _ _ _ => exact ⟨new, hq, hnd, hframe _⟩
  | waiting _ _ => exact ⟨new, hq, hnd, hframe _⟩
  | enqueued hl hdue _ =>
      subst hseq
      refine ⟨new ++ [{ e with nextAttempt := stamp now }], ?_, ?_, ?_⟩
      · rw [hq, List.append_assoc]
      · rw [List.map_append, List.nodup_append]
        refine ⟨hnd, List.nodup_singleton _, ?_⟩
        intro x hx y hy
        obtain ⟨c, hc, rfl⟩ := List.mem_map.mp hx
        obtain rfl : y = e.seqNum := by simpa using hy
        exact fun heq => hk (heq ▸ (hnew c hc).1)
      · intro c hc
        rcases List.mem_append.mp hc with hc | hc
        · exact hframe _ c hc
        · obtain rfl := List.mem_singleton.mp hc
          refine ⟨List.mem_cons_self, e, he, ?_, hl, hdue, rfl⟩
          rw [AList.lookup_put, if_pos rfl]

/-- The queue after the gaps of one flow: stamped copies of entries that survived, one for
each gap at most. -/
theorem range_sweepGap_queue (cfg : TrackerConfig) (now : Time) (label : FlowLabel)
    (ord : RangeOrder UInt64) (acc : List GapEntry × Recorder) {pending : AssocMap UInt64 GapEntry}
    (hkey : ∀ m e, pending.lookup m = some e → e.seqNum = m) :
    ∃ new, (pending.range ord (sweepGap cfg now label) acc).1.1 = acc.1 ++ new ∧
      (new.map GapEntry.seqNum).Nodup ∧
      ∀ c ∈ new, ∃ e, pending.lookup c.seqNum = some e ∧
        (pending.range ord (sweepGap cfg now label) acc).2.lookup c.seqNum = some c ∧
        Stamped cfg now e c := by
  have hinit : CopiedGaps cfg now acc.1 pending [] acc pending := ⟨[], by simp⟩
  obtain ⟨done, -, new, hq, hnd, hnew⟩ :=
    AList.range_invariant (sweepGap cfg now label) ord hinit
      fun done s m k e hk he _ h => copiedGaps_step hk (hkey k e he) he h
  exact ⟨new, hq, hnd, fun c hc => (hnew c hc).2⟩

/-- The invariant of the outer loop, over the flows visited. -/
def CopiedFlows (cfg : TrackerConfig) (now : Time) (q : List GapEntry)
    (flows : AssocMap UInt64 FlowState) (done : List UInt64) (acc : List GapEntry × Recorder)
    (m : AssocMap UInt64 FlowState) : Prop :=
  ∃ new, acc.1 = q ++ new ∧ (new.map GapEntry.key).Nodup ∧
    ∀ c ∈ new, c.hashKey ∈ done ∧ ∃ fs fs' e, flows.lookup c.hashKey = some fs ∧
      m.lookup c.hashKey = some fs' ∧ fs.pending.lookup c.seqNum = some e ∧
      fs'.pending.lookup c.seqNum = some c ∧ Stamped cfg now e c

/-- One flow is swept. -/
theorem copiedFlows_step {now : Time} {ord : SweepOrder} {q : List GapEntry}
    {flows m : AssocMap UInt64 FlowState} {done : List UInt64}
    {acc : List GapEntry × Recorder} {k : UInt64} {fs : FlowState} (hk : k ∉ done)
    (hkey : ∀ m e, fs.pending.lookup m = some e → e.hashKey = k ∧ e.seqNum = m)
    (hfs : flows.lookup k = some fs) (h : CopiedFlows cfg now q flows done acc m) :
    CopiedFlows cfg now q flows (k :: done) (sweepFlow cfg now ord acc k fs).1
      (m.put k (sweepFlow cfg now ord acc k fs).2) := by
  obtain ⟨new, hq, hnd, hnew⟩ := h
  obtain ⟨more, hmore, hmnd, hmnew⟩ := range_sweepGap_queue cfg now fs.flowType (ord.gaps k)
    acc fun m e he => (hkey m e he).2
  -- the copies of this flow carry its key
  have hmkey : ∀ c ∈ more, c.hashKey = k := by
    intro c hc
    obtain ⟨e, he, -, -, -, rfl⟩ := hmnew c hc
    exact (hkey _ e he).1
  refine ⟨new ++ more, by rw [sweepFlow_fst, hmore, hq, List.append_assoc], ?_, ?_⟩
  · rw [List.map_append, List.nodup_append]
    refine ⟨hnd, ?_, ?_⟩
    · refine List.Nodup.of_map Prod.snd ?_
      rw [List.map_map]
      exact hmnd
    · intro x hx y hy hxy
      obtain ⟨c, hc, rfl⟩ := List.mem_map.mp hx
      obtain ⟨d, hd, rfl⟩ := List.mem_map.mp hy
      have hcd : c.hashKey = d.hashKey := congrArg Prod.fst hxy
      exact hk (hmkey d hd ▸ hcd ▸ (hnew c hc).1)
  · intro c hc
    rcases List.mem_append.mp hc with hc | hc
    · obtain ⟨hdone, fs₀, fs₁, e, h₀, h₁, he, hc', hst⟩ := hnew c hc
      have hne : c.hashKey ≠ k := fun heq => hk (heq ▸ hdone)
      refine ⟨List.mem_cons_of_mem _ hdone, fs₀, fs₁, e, h₀, ?_, he, hc', hst⟩
      rw [AList.lookup_put, if_neg hne, h₁]
    · obtain ⟨e, he, hc', hst⟩ := hmnew c hc
      rw [hmkey c hc]
      cases hout : (sweepFlow cfg now ord acc k fs).2 with
      | none =>
          -- a flow with a copied gap is not empty
          rw [sweepFlow_none hout] at hc'
          cases hc'
      | some fs' =>
          refine ⟨List.mem_cons_self, fs, fs', e, hfs, ?_, he, ?_, hst⟩
          · rw [AList.lookup_put, if_pos rfl]
          · rw [sweepFlow_some hout]
            exact hc'

/-- **What a sweep enqueues.** The queue grows by stamped copies of entries that survive
the sweep, at most one for each gap. -/
theorem sweepOnce_nackQueue (cfg : TrackerConfig) (hkey : Keyed t) (now : Time) (ord : SweepOrder) :
    ∃ new, (t.sweepOnce cfg now ord).nackQueue = t.nackQueue ++ new ∧
      (new.map GapEntry.key).Nodup ∧
      ∀ c ∈ new, ∃ e, t.gap c.hashKey c.seqNum = some e ∧
        (t.sweepOnce cfg now ord).gap c.hashKey c.seqNum = some c ∧ Stamped cfg now e c := by
  have hinit : CopiedFlows cfg now t.nackQueue t.flows [] (t.nackQueue, t.recorder) t.flows :=
    ⟨[], by simp⟩
  obtain ⟨done, -, new, hq, hnd, hnew⟩ :=
    AList.range_invariant (sweepFlow cfg now ord) ord.flows hinit
      fun done s m k fs hk hfs _ h => copiedFlows_step hk
        (fun m e he => hkey k m e (gap_eq_some.mpr ⟨fs, hfs, he⟩)) hfs h
  refine ⟨new, hq, hnd, ?_⟩
  intro c hc
  obtain ⟨-, fs, fs', e, hfs, hfs', he, hc', hst⟩ := hnew c hc
  exact ⟨e, gap_eq_some.mpr ⟨fs, hfs, he⟩, gap_eq_some.mpr ⟨fs', hfs', hc'⟩, hst⟩

/-! ### Entries know their keys -/

/-- No call separates an entry from its key. -/
theorem Keyed.step (h : Keyed t) (c : Call) : Keyed (t.step cfg c) := by
  intro hk m e he
  cases c with
  | observe a =>
      rcases gap_observe he with he | ⟨-, rfl, rfl, -⟩
      · exact h hk m e he
      · exact ⟨rfl, rfl⟩
  | fill hashKey seqNum => exact h hk m e (gap_of_fill he)
  | cancelGap c =>
      rw [Tracker.step, cancelGap, gap_closeGap] at he
      split at he
      · cases he
      · exact h hk m e he
  | advanceEndpoint now c immediate n =>
      rw [Tracker.step, gap_advanceEndpoint] at he
      split at he
      · obtain ⟨e₀, he₀, rfl⟩ := Option.map_eq_some_iff.mp he
        exact h hk m e₀ he₀
      · exact h hk m e he
  | sweepOnce now ord =>
      obtain ⟨label, acc, hsweep⟩ := gap_sweepOnce cfg t now ord hk m
      rw [Tracker.step, hsweep, Option.bind_eq_some_iff] at he
      obtain ⟨e₀, he₀, hout⟩ := he
      obtain ⟨-, hee⟩ := sweepGap_some hout
      rw [hee]
      exact h hk m e₀ he₀
  | dequeue => exact h hk m e he
  | nackDispatched groupIdx => exact h hk m e he

end Tracker

end ShardListener
