import Mathlib.Tactic.SplitIfs
import Mathlib.Data.List.Range
import ShardListener.Tracker

/-!
# What One Call Does to One Flow

The mutators of the tracker, read one flow at a time. `Observe` either moves the flow on
(four equations, one for each branch of the source) or, for another flow, leaves it
alone; every other call can only take pending gaps away and rewrite retry state.

## Main results

* `countUp_toNat`: the registration loop visits consecutive numbers, leaves through its
  own test and never wraps, whatever 64-bit values it starts from.
* `FlowState.observe_first`, `observe_restart`, `observe_old`, `observe_new`: the
  branches of `Observe`.
* `Thins`, `step_thins`: the frame condition of all other calls.
-/

namespace ShardListener

/-! ### The registration loop -/

/-- Below another value, a 64-bit increment does not wrap. -/
theorem toNat_succ_of_lt {a b : UInt64} (h : a < b) : (a + 1).toNat = a.toNat + 1 := by
  have hlt : a.toNat < b.toNat := UInt64.lt_iff_toNat_lt.mp h
  have hb : b.toNat < 2 ^ 64 := b.toNat_lt
  have hone : (1 : UInt64).toNat = 1 := rfl
  rw [UInt64.toNat_add, hone]
  omega

/-- **The loop counts without wrapping.** With enough fuel the loop variable takes the
values from its start up to the bound, each once and in order. -/
theorem countUp_toNat {fuel : ℕ} {m s : UInt64} (h : s.toNat ≤ m.toNat + fuel) :
    (countUp fuel m s).map UInt64.toNat = List.range' m.toNat (s.toNat - m.toNat) := by
  induction fuel generalizing m with
  | zero =>
      have hle : s.toNat - m.toNat = 0 := by omega
      rw [hle]
      rfl
  | succ fuel ih =>
      by_cases hlt : m < s
      · have hsucc := toNat_succ_of_lt hlt
        have hltn : m.toNat < s.toNat := UInt64.lt_iff_toNat_lt.mp hlt
        obtain ⟨d, hd⟩ : ∃ d, s.toNat - m.toNat = d + 1 := ⟨s.toNat - m.toNat - 1, by omega⟩
        have hd' : s.toNat - (m + 1).toNat = d := by omega
        rw [countUp, if_pos hlt, List.map_cons, ih (by omega), hd', hd, hsucc]
        rfl
      · have hle : s.toNat - m.toNat = 0 := by
          have := mt UInt64.lt_iff_toNat_lt.mpr hlt
          omega
        rw [countUp, if_neg hlt, hle]
        rfl

/-- The registration loop runs over exactly the numbers strictly between the two. -/
theorem missingSeqs_toNat {last s : UInt64} (h : last < s) :
    (missingSeqs last s).map UInt64.toNat =
      List.range' (last.toNat + 1) (s.toNat - (last.toNat + 1)) := by
  rw [missingSeqs, countUp_toNat (by omega), toNat_succ_of_lt h]

theorem mem_missingSeqs {last s m : UInt64} (h : last < s) :
    m ∈ missingSeqs last s ↔ last < m ∧ m < s := by
  have hiff : m ∈ missingSeqs last s ↔ m.toNat ∈ (missingSeqs last s).map UInt64.toNat :=
    (List.mem_map_of_injective (fun a b => UInt64.toNat_inj.mp)).symm
  have hlt : last.toNat < s.toNat := UInt64.lt_iff_toNat_lt.mp h
  rw [hiff, missingSeqs_toNat h, List.mem_range'_1, UInt64.lt_iff_toNat_lt,
    UInt64.lt_iff_toNat_lt]
  omega

/-- No number is visited twice. -/
theorem missingSeqs_nodup {last s : UInt64} (h : last < s) : (missingSeqs last s).Nodup := by
  refine List.Nodup.of_map UInt64.toNat ?_
  rw [missingSeqs_toNat h]
  exact List.nodup_range'

/-- The number of iterations. -/
theorem length_missingSeqs {last s : UInt64} (h : last < s) :
    (missingSeqs last s).length = s.toNat - (last.toNat + 1) := by
  have := congrArg List.length (missingSeqs_toNat h)
  rwa [List.length_map, List.length_range'] at this

/-- The contiguous case: nothing to register. -/
theorem missingSeqs_succ (last : UInt64) : missingSeqs last (last + 1) = [] := by
  rw [missingSeqs]
  cases (last + 1).toNat with
  | zero => rfl
  | succ n => rw [countUp, if_neg (by grind)]

section Register

variable {cfg : TrackerConfig} {a : Arrival} {label : FlowLabel}

/-- The pending map after the registration loop: the missing numbers that had no entry
get a fresh one, every other entry stays. -/
theorem lookup_foldl_registerGap (ms : List UInt64)
    (acc : AssocMap UInt64 GapEntry × Recorder) (k : UInt64) :
    (ms.foldl (registerGap cfg a label) acc).1.lookup k =
      if k ∈ ms ∧ k ∉ acc.1 then some (GapEntry.fresh cfg a k) else acc.1.lookup k := by
  induction ms generalizing acc with
  | nil => simp
  | cons m ms ih =>
      rw [List.foldl_cons, ih]
      by_cases hm : m ∈ acc.1
      · have hreg : registerGap cfg a label acc m = acc := if_pos hm
        have hmem : (k ∈ m :: ms ∧ k ∉ acc.1) ↔ (k ∈ ms ∧ k ∉ acc.1) := by
          constructor
          · rintro ⟨hk, hnot⟩
            rcases List.mem_cons.mp hk with rfl | hk
            · exact absurd hm hnot
            · exact ⟨hk, hnot⟩
          · rintro ⟨hk, hnot⟩
            exact ⟨List.mem_cons_of_mem _ hk, hnot⟩
        rw [hreg, if_congr hmem rfl rfl]
      · have hreg : (registerGap cfg a label acc m).1 =
            acc.1.insert m (GapEntry.fresh cfg a m) := by
          rw [registerGap, if_neg hm]
        rw [hreg, AList.lookup_insert_ite]
        by_cases hk : k = m
        · subst hk
          simp [hm]
        · simp [hk]

/-- The keys after the registration loop. -/
theorem mem_foldl_registerGap (ms : List UInt64)
    (acc : AssocMap UInt64 GapEntry × Recorder) (k : UInt64) :
    k ∈ (ms.foldl (registerGap cfg a label) acc).1 ↔ k ∈ ms ∨ k ∈ acc.1 := by
  rw [← AList.lookup_isSome, lookup_foldl_registerGap]
  by_cases hk : k ∈ acc.1
  · simp [hk, AList.lookup_isSome.mpr hk]
  · have hnone := AList.lookup_eq_none.mpr hk
    by_cases hm : k ∈ ms <;> simp [hk, hm, hnone]

end Register

/-! ### The branches of `Observe` -/

namespace FlowState

variable {cfg : TrackerConfig} {a : Arrival} {fs : FlowState} {r : Recorder}

/-- Deleting a gap that is not there changes nothing, so the auto-fill is a deletion. -/
theorem autoFill_fst (fs : FlowState) (r : Recorder) (s : UInt64) :
    (fs.autoFill r s).1 = { fs with pending := fs.pending.erase s } := by
  by_cases h : s ∈ fs.pending
  · rw [autoFill, if_pos h]
  · have herase : fs.pending.erase s = fs.pending :=
      AList.ext (List.kerase_of_notMem_keys h)
    rw [autoFill, if_neg h, herase]

/-- The flow the tracking steps start from. -/
theorem observe_eq_track (cfg : TrackerConfig) (a : Arrival) (fs : FlowState) (r : Recorder) :
    fs.observe cfg a r =
      ({ fs with lastSeen := a.now, pending := fs.pending.erase a.seqNum }).track cfg a
        (({ fs with lastSeen := a.now }).autoFill r a.seqNum).2 := by
  rw [observe, autoFill_fst]

/-- **First frame**: the sequence number becomes the last one. -/
theorem observe_first (h : fs.lastSeqNum = 0) :
    (fs.observe cfg a r).1 =
      { fs with
        lastSeen := a.now, pending := fs.pending.erase a.seqNum, lastSeqNum := a.seqNum } := by
  rw [observe_eq_track, track, if_pos h]

/-- **Restart**: pending gaps are dropped and the flow counts from the arriving number. -/
theorem observe_restart (h₀ : fs.lastSeqNum ≠ 0) (hs : a.seqNum ≤ cfg.resetThreshold)
    (ht : cfg.resetThreshold < fs.lastSeqNum) :
    (fs.observe cfg a r).1 =
      { fs with lastSeen := a.now, pending := ∅, lastSeqNum := a.seqNum } := by
  have hle : a.seqNum ≤ fs.lastSeqNum := by grind
  rw [observe_eq_track, track, if_neg h₀, if_pos hle, if_pos ⟨hs, ht⟩]

/-- **Duplicate or retransmit**: only the gap that is answered goes away. -/
theorem observe_old (h₀ : fs.lastSeqNum ≠ 0) (hle : a.seqNum ≤ fs.lastSeqNum)
    (hno : ¬ (a.seqNum ≤ cfg.resetThreshold ∧ cfg.resetThreshold < fs.lastSeqNum)) :
    (fs.observe cfg a r).1 =
      { fs with lastSeen := a.now, pending := fs.pending.erase a.seqNum } := by
  rw [observe_eq_track, track, if_neg h₀, if_pos hle, if_neg hno]

/-- **Progress**: the numbers skipped are registered. The contiguous case of the source is
the one with nothing to register. -/
theorem observe_new (h₀ : fs.lastSeqNum ≠ 0) (hlt : fs.lastSeqNum < a.seqNum) :
    fs.observe cfg a r =
      let out := (missingSeqs fs.lastSeqNum a.seqNum).foldl (registerGap cfg a fs.flowType)
        (fs.pending.erase a.seqNum, (({ fs with lastSeen := a.now }).autoFill r a.seqNum).2)
      ({ fs with lastSeen := a.now, pending := out.1, lastSeqNum := a.seqNum }, out.2) := by
  have hnle : ¬ a.seqNum ≤ fs.lastSeqNum := by grind
  rw [observe_eq_track, track, if_neg h₀, if_neg hnle]
  by_cases hc : a.seqNum = fs.lastSeqNum + 1
  · rw [if_pos hc, hc, missingSeqs_succ]
    rfl
  · rw [if_neg hc]

/-- `Observe` never changes what identifies the flow. -/
theorem observe_flowType : (fs.observe cfg a r).1.flowType = fs.flowType := by
  rw [observe_eq_track, track]
  split_ifs <;> rfl

end FlowState

/-! ### Calls that only thin a flow out -/

/-- Two entries stand for the same registration of a gap: they differ in retry state
only. -/
structure GapEntry.SameGap (e e' : GapEntry) : Prop where
  hashKey : e'.hashKey = e.hashKey
  seqNum : e'.seqNum = e.seqNum
  groupIdx : e'.groupIdx = e.groupIdx
  subtreeID : e'.subtreeID = e.subtreeID
  deadline : e'.deadline = e.deadline

theorem GapEntry.SameGap.refl (e : GapEntry) : e.SameGap e := ⟨rfl, rfl, rfl, rfl, rfl⟩

/-- What is left of a flow has the same position and label, and its gaps were pending
before. A flow that did not exist does not appear. -/
def Thins (before after : Option FlowState) : Prop :=
  ∀ fs', after = some fs' → ∃ fs, before = some fs ∧ fs'.lastSeqNum = fs.lastSeqNum ∧
    fs'.flowType = fs.flowType ∧
    ∀ m e', fs'.pending.lookup m = some e' → ∃ e, fs.pending.lookup m = some e ∧ e.SameGap e'

/-- A flow that is left alone. -/
theorem Thins.refl (o : Option FlowState) : Thins o o :=
  fun fs h => ⟨fs, h, rfl, rfl, fun _ e he => ⟨e, he, .refl e⟩⟩

namespace Tracker

variable {cfg : TrackerConfig} {t : Tracker}

/-- The flow of another key is not touched by `Observe`. -/
theorem lookup_observe_of_ne {a : Arrival} {h : UInt64} (hne : h ≠ a.hashKey) :
    (t.observe cfg a).flows.lookup h = t.flows.lookup h := by
  rw [observe]
  split
  · rfl
  · exact AList.lookup_insert_ne hne

/-- The observed flow. -/
theorem lookup_observe {a : Arrival} (hs : a.seqNum ≠ 0) :
    (t.observe cfg a).flows.lookup a.hashKey =
      some (((t.flows.lookup a.hashKey).getD (.fresh a)).observe cfg a t.recorder).1 := by
  rw [observe, if_neg hs]
  exact AList.lookup_insert _

/-- Closing a gap thins its flow out and leaves the others alone. -/
theorem closeGap_thins (hashKey seqNum : UInt64) (label : FlowState → FlowLabel)
    (h : UInt64) :
    Thins (t.flows.lookup h) ((t.closeGap hashKey seqNum label).flows.lookup h) := by
  rw [closeGap]
  cases hf : t.flows.lookup hashKey with
  | none => exact .refl _
  | some fs =>
      simp only
      split
      · by_cases heq : h = hashKey
        · subst heq
          rw [AList.lookup_insert, hf]
          intro fs' hfs'
          obtain rfl := Option.some.inj hfs'
          refine ⟨fs, rfl, rfl, rfl, ?_⟩
          intro m e' he'
          exact ⟨e', AList.lookup_of_lookup_erase he', .refl e'⟩
        · rw [AList.lookup_insert_ne heq]
          exact .refl _
      · exact .refl _

/-- A failed attempt rewrites the retry state of one gap. -/
theorem advanceEndpoint_thins (now : Time) (e : GapEntry) (immediate : Bool) (n : ℕ)
    (h : UInt64) :
    Thins (t.flows.lookup h) ((t.advanceEndpoint cfg now e immediate n).flows.lookup h) := by
  rw [advanceEndpoint]
  cases hf : t.flows.lookup e.hashKey with
  | none => exact .refl _
  | some fs =>
      cases hp : fs.pending.lookup e.seqNum with
      | none =>
          simp only [hp]
          exact .refl _
      | some entry =>
          simp only [hp]
          by_cases heq : h = e.hashKey
          · subst heq
            rw [AList.lookup_insert, hf]
            intro fs' hfs'
            obtain rfl := Option.some.inj hfs'
            refine ⟨fs, rfl, rfl, rfl, ?_⟩
            intro m e' he'
            simp only [AList.lookup_insert_ite] at he'
            split at he'
            · rename_i hm
              obtain rfl := Option.some.inj he'
              subst hm
              exact ⟨entry, hp, ⟨rfl, rfl, rfl, rfl, rfl⟩⟩
            · exact ⟨e', he', .refl e'⟩
          · rw [AList.lookup_insert_ne heq]
            exact .refl _

/-- An entry is neither overdue nor out of retries. -/
def Live (cfg : TrackerConfig) (now : Time) (e : GapEntry) : Prop :=
  now ≤ e.deadline ∧ (e.retries : ℤ) < cfg.maxRetries

instance (cfg : TrackerConfig) (now : Time) (e : GapEntry) : Decidable (Live cfg now e) :=
  inferInstanceAs (Decidable (_ ∧ _))

/-- The four things the sweeper does with an entry: give it up, copy it into the queue,
find the queue full, or leave it because it is not due. -/
inductive SweepGapCase (cfg : TrackerConfig) (now : Time) (label : FlowLabel)
    (acc : List GapEntry × Recorder) (e : GapEntry) :
    (List GapEntry × Recorder) × Option GapEntry → Prop
  | dropped : ¬ Live cfg now e →
      SweepGapCase cfg now label acc e ((acc.1, acc.2.gapUnrecovered label), none)
  | enqueued : Live cfg now e → e.nextAttempt < now → acc.1.length < nackQueueCap →
      SweepGapCase cfg now label acc e
        ((acc.1 ++ [{ e with nextAttempt := stamp now }], acc.2),
          some { e with nextAttempt := stamp now })
  | deferred : Live cfg now e → e.nextAttempt < now → nackQueueCap ≤ acc.1.length →
      SweepGapCase cfg now label acc e (acc, some { e with nextAttempt := now })
  | waiting : Live cfg now e → now ≤ e.nextAttempt →
      SweepGapCase cfg now label acc e (acc, some e)

/-- The inner loop body does one of the four. -/
theorem sweepGap_case (cfg : TrackerConfig) (now : Time) (label : FlowLabel)
    (acc : List GapEntry × Recorder) (m : UInt64) (e : GapEntry) :
    SweepGapCase cfg now label acc e (sweepGap cfg now label acc m e) := by
  rw [sweepGap]
  split_ifs with h₁ h₂ h₃ h₄
  · exact .dropped fun hl => absurd h₁ (not_lt.mpr hl.1)
  · exact .dropped fun hl => absurd h₂ (not_le.mpr hl.2)
  · exact .enqueued ⟨not_lt.mp h₁, not_le.mp h₂⟩ h₃ h₄
  · exact .deferred ⟨not_lt.mp h₁, not_le.mp h₂⟩ h₃ (not_lt.mp h₄)
  · exact .waiting ⟨not_lt.mp h₁, not_le.mp h₂⟩ (not_lt.mp h₃)

/-- An entry that survives the sweeper was live and keeps everything but
`nextAttempt`. -/
theorem sweepGap_some {now : Time} {label : FlowLabel} {acc : List GapEntry × Recorder}
    {m : UInt64} {e e' : GapEntry} (h : (sweepGap cfg now label acc m e).2 = some e') :
    Live cfg now e ∧ e' = { e with nextAttempt := e'.nextAttempt } := by
  have hcase := sweepGap_case cfg now label acc m e
  generalize sweepGap cfg now label acc m e = out at h hcase
  cases hcase with
  | dropped _ => cases h
  | enqueued hl _ _ | deferred hl _ _ | waiting hl _ =>
      obtain rfl := Option.some.inj h
      exact ⟨hl, rfl⟩

/-- What the sweeper leaves of a flow. -/
theorem sweepFlow_some {now : Time} {ord : SweepOrder} {acc : List GapEntry × Recorder}
    {hk : UInt64} {fs fs' : FlowState} (h : (sweepFlow cfg now ord acc hk fs).2 = some fs') :
    fs' = { fs with pending :=
      (fs.pending.range (ord.gaps hk) (sweepGap cfg now fs.flowType) acc).2 } := by
  rw [sweepFlow] at h
  split at h
  · cases h
  · exact (Option.some.inj h).symm

/-- A flow is evicted only when nothing is left in it. -/
theorem sweepFlow_none {now : Time} {ord : SweepOrder} {acc : List GapEntry × Recorder}
    {hk : UInt64} {fs : FlowState} (h : (sweepFlow cfg now ord acc hk fs).2 = none) (m : UInt64) :
    (fs.pending.range (ord.gaps hk) (sweepGap cfg now fs.flowType) acc).2.lookup m = none := by
  rw [sweepFlow] at h
  split at h
  · rename_i hempty
    exact AList.lookup_eq_none_of_size_eq_zero hempty.1 m
  · cases h

/-- What the sweeper queues for a flow is queued by the loop over its gaps. -/
theorem sweepFlow_fst (now : Time) (ord : SweepOrder) (acc : List GapEntry × Recorder)
    (hk : UInt64) (fs : FlowState) :
    (sweepFlow cfg now ord acc hk fs).1 =
      (fs.pending.range (ord.gaps hk) (sweepGap cfg now fs.flowType) acc).1 := by
  rw [sweepFlow]
  split <;> rfl

/-- The sweeper thins a flow out. -/
theorem sweepFlow_thins {now : Time} {ord : SweepOrder} {acc : List GapEntry × Recorder}
    {hk : UInt64} {fs : FlowState} :
    Thins (some fs) (sweepFlow cfg now ord acc hk fs).2 := by
  intro fs' hfs'
  have hfs := sweepFlow_some hfs'
  subst hfs
  refine ⟨fs, rfl, rfl, rfl, ?_⟩
  intro m e' he'
  obtain ⟨acc', hacc'⟩ := AList.lookup_range (sweepGap cfg now fs.flowType) (ord.gaps hk)
    acc fs.pending m
  rw [hacc', Option.bind_eq_some_iff] at he'
  obtain ⟨e, he, hsweep⟩ := he'
  obtain ⟨-, hee⟩ := sweepGap_some hsweep
  refine ⟨e, he, ?_⟩
  rw [hee]
  exact ⟨rfl, rfl, rfl, rfl, rfl⟩

theorem sweepOnce_thins (now : Time) (ord : SweepOrder) (h : UInt64) :
    Thins (t.flows.lookup h) ((t.sweepOnce cfg now ord).flows.lookup h) := by
  obtain ⟨acc, hacc⟩ := AList.lookup_range (sweepFlow cfg now ord) ord.flows
    (t.nackQueue, t.recorder) t.flows h
  have hsweep : (t.sweepOnce cfg now ord).flows.lookup h =
      (t.flows.lookup h).bind fun fs => (sweepFlow cfg now ord acc h fs).2 := hacc
  rw [hsweep]
  cases t.flows.lookup h with
  | none => exact .refl _
  | some fs => exact sweepFlow_thins

/-- **The frame condition.** Every call other than an `Observe` of a stamped frame of the
flow only thins the flow out. -/
theorem step_thins (c : Call) (h : UInt64)
    (hc : ∀ a, c = .observe a → a.hashKey ≠ h ∨ a.seqNum = 0) :
    Thins (t.flows.lookup h) ((t.step cfg c).flows.lookup h) := by
  cases c with
  | observe a =>
      rcases hc a rfl with hne | hz
      · rw [step, lookup_observe_of_ne (Ne.symm hne)]
        exact .refl _
      · rw [step, observe, if_pos hz]
        exact .refl _
  | fill hashKey seqNum =>
      rw [step, fill]
      split
      · exact .refl _
      · exact closeGap_thins _ _ _ _
  | cancelGap e => exact closeGap_thins _ _ _ _
  | advanceEndpoint now e immediate n => exact advanceEndpoint_thins _ _ _ _ _
  | sweepOnce now ord => exact sweepOnce_thins _ _ _
  | dequeue => exact .refl _
  | nackDispatched groupIdx => exact .refl _

end Tracker

end ShardListener
