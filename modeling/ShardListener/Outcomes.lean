import ShardListener.Outstanding

/-!
# The Outcomes of the Attempts for a Gap

An attempt ends with an ACK, with a MISS, or without a valid response. The documented rule is
that a MISS moves the gap on to the next endpoint while a timeout leaves the endpoint index
as it is. `advanceEndpoint` is the one helper for both and increments the index in either
case, so the index counts the attempts that ended without an ACK.

How the attempts for a gap ended since it was registered is counted along a schedule
(`Outcomes`), beside the state.

## Main results

* `endpointIdx_step`: what one call does to the endpoint index of a pending gap.
* `endpointIdx_eq_outcomes`: in every schedule the index is the number of MISS responses and
  failures together.
* `endpointIdx_counts_misses_iff`: it is the number of MISS responses exactly when no attempt
  has failed.
* `timeout_moves_on`: a timeout, after which the next attempt goes to another endpoint.
-/

namespace ShardListener

/-- How an attempt for the gap ended, when the call reports that: `true` for a MISS, `false`
for a failure. -/
def Call.outcome (h m : UInt64) : Call → Option Bool
  | .advanceEndpoint _ e immediate _ => if e.key = (h, m) then some immediate else none
  | _ => none

/-- How often the attempts for a gap were answered by a MISS, and how often they failed, since
it was registered. -/
structure Outcomes where
  misses : ℕ
  failures : ℕ

/-- One more outcome. -/
def Outcomes.note (o : Outcomes) : Option Bool → Outcomes
  | some true => { o with misses := o.misses + 1 }
  | some false => { o with failures := o.failures + 1 }
  | none => o

theorem Outcomes.note_total (o : Outcomes) (out : Option Bool) :
    (o.note out).misses + (o.note out).failures = o.misses + o.failures + out.toList.length := by
  rcases out with _ | _ | _
  · rfl
  · exact (Nat.add_assoc _ _ _).symm
  · exact Nat.add_right_comm _ _ _

namespace Tracker

variable {cfg : TrackerConfig} {t : Tracker} {h m : UInt64}

/-- **What one call does to the endpoint index of a pending gap**: the gap is new and its index
zero, or the index has grown by one if an attempt has ended, with whatever outcome. -/
theorem endpointIdx_step {c : Call} {e' : GapEntry} (he' : (t.step cfg c).gap h m = some e') :
    (t.gap h m = none ∧ e'.endpointIdx = 0) ∨
      ∃ e, t.gap h m = some e ∧
        e'.endpointIdx = e.endpointIdx + (c.outcome h m).toList.length := by
  cases c with
  | observe a =>
      rcases gap_observe he' with he | ⟨hnone, -, rfl, -⟩
      · exact .inr ⟨e', he, rfl⟩
      · exact .inl ⟨hnone, rfl⟩
  | fill hashKey seqNum => exact .inr ⟨e', gap_of_fill he', rfl⟩
  | cancelGap c =>
      rw [step, cancelGap, gap_closeGap] at he'
      split at he'
      · cases he'
      · exact .inr ⟨e', he', rfl⟩
  | advanceEndpoint now c immediate n =>
      rw [step, gap_advanceEndpoint] at he'
      by_cases hkey : h = c.hashKey ∧ m = c.seqNum
      · rw [if_pos hkey] at he'
        obtain ⟨e, he, rfl⟩ := Option.map_eq_some_iff.mp he'
        refine .inr ⟨e, he, ?_⟩
        rw [Call.outcome, if_pos (Prod.ext hkey.1.symm hkey.2.symm)]
        rfl
      · rw [if_neg hkey] at he'
        refine .inr ⟨e', he', ?_⟩
        rw [Call.outcome, if_neg fun heq => hkey ⟨(congrArg Prod.fst heq).symm,
          (congrArg Prod.snd heq).symm⟩]
        rfl
  | sweepOnce now ord =>
      obtain ⟨label, acc, hsweep⟩ := gap_sweepOnce cfg t now ord h m
      rw [step, hsweep, Option.bind_eq_some_iff] at he'
      obtain ⟨e, he, hout⟩ := he'
      obtain ⟨-, hee⟩ := sweepGap_some hout
      refine .inr ⟨e, he, ?_⟩
      rw [hee]
      rfl
  | dequeue => exact .inr ⟨e', he', rfl⟩
  | nackDispatched groupIdx => exact .inr ⟨e', he', rfl⟩

end Tracker

namespace System

variable {cfg : TrackerConfig} {r : Registry} {h m : UInt64}

/-- The outcomes for the gap, along a schedule: they start over when the gap is registered. -/
def followOutcomes (cfg : TrackerConfig) (h m : UInt64) (s : System) (ev : Event)
    (o : Outcomes) : Outcomes :=
  if s.tracker.gap h m = none ∧ (s.step cfg ev).tracker.gap h m ≠ none then ⟨0, 0⟩
  else o.note ((s.call ev).bind (Call.outcome h m))

/-- The system after a schedule, with the outcomes for the gap. -/
def outcomesAfter (cfg : TrackerConfig) (r : Registry) (h m : UInt64) (es : List Event) :
    System × Outcomes :=
  Machine.run (Machine.withGhost (step cfg) (followOutcomes cfg h m)) (start r, ⟨0, 0⟩) es

/-- The index of the gap, while it is pending, is the number of its outcomes. -/
def Counted (h m : UInt64) (p : System × Outcomes) : Prop :=
  ∀ e, p.1.tracker.gap h m = some e → e.endpointIdx = p.2.misses + p.2.failures

/-- The step lemma. -/
theorem Counted.step {s : System} {o : Outcomes} (hcount : Counted h m (s, o)) (ev : Event) :
    Counted h m (s.step cfg ev, followOutcomes cfg h m s ev o) := by
  intro e' he'
  have hpending : (s.step cfg ev).tracker.gap h m ≠ none := by
    rw [he']
    exact Option.some_ne_none e'
  -- the event acts on the tracker as its call, or not at all
  have hstep : (s.tracker.gap h m = none ∧ e'.endpointIdx = 0) ∨
      ∃ e, s.tracker.gap h m = some e ∧ e'.endpointIdx =
        e.endpointIdx + ((s.call ev).bind (Call.outcome h m)).toList.length := by
    rw [tracker_step] at he'
    cases hc : s.call ev with
    | none =>
        rw [hc] at he'
        exact .inr ⟨e', he', rfl⟩
    | some c =>
        rw [hc] at he'
        exact Tracker.endpointIdx_step he'
  rw [followOutcomes]
  rcases hstep with ⟨hnone, hzero⟩ | ⟨e, he, hidx⟩
  · rw [if_pos ⟨hnone, hpending⟩]
    exact hzero
  · rw [if_neg fun hnew => absurd (he.symm.trans hnew.1) (Option.some_ne_none e),
      Outcomes.note_total, ← hcount e he]
    exact hidx

variable (cfg r h m) in
/-- The run lemma: **the endpoint index counts the attempts that ended without an ACK.** -/
theorem endpointIdx_eq_outcomes (es : List Event) : Counted h m (outcomesAfter cfg r h m es) := by
  refine Machine.run_invariant (P := Counted h m) ?_ ?_ es
  · exact fun _ he => nomatch he
  · rintro ⟨s, o⟩ ev hcount
    exact hcount.step ev

/-- An event leaves the index of a gap that stays pending exactly when it ends no attempt for
it. -/
theorem endpointIdx_eq_iff {s : System} {ev : Event} {e e' : GapEntry}
    (he : s.tracker.gap h m = some e) (he' : (s.step cfg ev).tracker.gap h m = some e') :
    e'.endpointIdx = e.endpointIdx ↔ (s.call ev).bind (Call.outcome h m) = none := by
  rw [tracker_step] at he'
  cases hc : s.call ev with
  | none =>
      rw [hc] at he'
      obtain rfl := Option.some.inj (he'.symm.trans he)
      exact iff_of_true rfl rfl
  | some c =>
      rw [hc] at he'
      rcases Tracker.endpointIdx_step he' with ⟨hnone, -⟩ | ⟨e₀, he₀, hidx⟩
      · exact absurd (he.symm.trans hnone) (Option.some_ne_none e)
      · obtain rfl := Option.some.inj (he₀.symm.trans he)
        rw [hidx, Option.bind_some]
        cases c.outcome h m <;> simp

/-- **The endpoint index is the number of MISS responses exactly when no attempt has failed**,
in every schedule and for every pending gap; and an event leaves the index alone exactly when
it ends no attempt, with whatever outcome. -/
theorem endpointIdx_counts_misses_iff (cfg : TrackerConfig) (r : Registry) (es : List Event)
    (h m : UInt64) (e : GapEntry) (he : (after cfg r es).tracker.gap h m = some e) :
    (e.endpointIdx = (outcomesAfter cfg r h m es).2.misses ↔
      (outcomesAfter cfg r h m es).2.failures = 0) ∧
    ∀ ev e', ((after cfg r es).step cfg ev).tracker.gap h m = some e' →
      (e'.endpointIdx = e.endpointIdx ↔
        ((after cfg r es).call ev).bind (Call.outcome h m) = none) := by
  have hfst : (outcomesAfter cfg r h m es).1 = after cfg r es := Machine.run_withGhost _ _ _
  have hidx := endpointIdx_eq_outcomes cfg r h m es e (by rw [hfst, he])
  refine ⟨by omega, ?_⟩
  intro ev e' he'
  exact endpointIdx_eq_iff he he'

/-! ### A timeout -/

/-- Frame 2 of flow 7 is missing and the first attempt for it is sent. -/
def firstAttempt : List Event :=
  [.observe (Tracker.arrivalAt 7 1 0), .observe (Tracker.arrivalAt 7 3 0),
   .sweep (1 * second) storedOrder, .receive, .launch,
   .select 0 (.stored _) EndpointEntry.sort, .send 0]

/-- A second attempt is sent. -/
def secondAttempt : List Event :=
  [.sweep (3 * second) storedOrder, .receive, .launch,
   .select 0 (.stored _) EndpointEntry.sort, .send 0]

/-- A registry with endpoints in two tiers. -/
def twoTiers : Registry :=
  Registry.after [.upsert 0 (advertOf 1 0 0), .upsert 0 (advertOf 2 1 0)]

/-- **A timeout moves the gap to another endpoint.** The first attempt, at instance 1, gets no
response; the index is 1 although there was no MISS, and the second attempt goes to
instance 2. -/
theorem timeout_moves_on :
    let timedOut := firstAttempt ++ [.fail 0 (1 * second + respTimeout)]
    ((after Tracker.testConfig twoTiers timedOut).tracker.gap 7 2).map GapEntry.endpointIdx =
      some 1 ∧
    (outcomesAfter Tracker.testConfig twoTiers 7 2 timedOut).2.misses = 0 ∧
    (attemptsAfter Tracker.testConfig twoTiers 7 2 (timedOut ++ secondAttempt)).2.map
      EndpointEntry.instanceID = [1, 2] := by
  decide

/-- After a MISS the index and the count agree. -/
theorem endpointIdx_counts_misses_answered :
    ∃ e, (after Tracker.testConfig twoTiers (firstAttempt ++ [.miss 0 (1 * second)])).tracker.gap
        7 2 = some e ∧
      e.endpointIdx =
        (outcomesAfter Tracker.testConfig twoTiers 7 2
          (firstAttempt ++ [.miss 0 (1 * second)])).2.misses := by
  refine ⟨_, rfl, (endpointIdx_counts_misses_iff Tracker.testConfig twoTiers
    (firstAttempt ++ [.miss 0 (1 * second)]) 7 2 _ rfl).1.mpr ?_⟩
  decide

end System

end ShardListener
