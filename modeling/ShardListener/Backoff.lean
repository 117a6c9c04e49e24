import Mathlib
import ShardListener.Outstanding

/-!
# The Backoff of a Failed Attempt

After `r` retries a gap that is not tried again at once waits for `2^r` times 500 ms, capped
at `BackoffMax`. The source shifts and multiplies in 64-bit signed arithmetic before it
applies the cap. The product fits for up to 34 retries; for 35 it wraps around to a negative
number, which passes the cap, and the gap is due before the attempt has failed. The
configuration sets no upper bound for `MaxRetries`.

## Main results

* `backoff_exact_iff`: the delay is the exact one for all numbers of retries up to `R`
  exactly when `R ≤ 34`.
* `backoff_wraps`: a schedule in which the 35th attempt fails and the gap is due at once.
-/

namespace ShardListener

namespace Tracker

variable {cfg : TrackerConfig} {r : ℕ}

/-- The intended delay after `r` retries, computed exactly. -/
def exactBackoff (cfg : TrackerConfig) (r : ℕ) : Duration :=
  min cfg.backoffMax (2 ^ r * (500 * millisecond))

/-- The intended delay is positive. -/
theorem exactBackoff_pos (hmax : 0 < cfg.backoffMax) (r : ℕ) : 0 < exactBackoff cfg r := by
  refine lt_min hmax (Int.mul_pos ?_ (by decide))
  exact Int.pow_pos (by decide)

/-- The intended delay does not decrease. -/
theorem exactBackoff_mono (cfg : TrackerConfig) : Monotone (exactBackoff cfg) := by
  intro r r' hle
  have hpow : (2 : ℤ) ^ r ≤ 2 ^ r' := pow_le_pow_right₀ (by decide) hle
  exact min_le_min le_rfl (Int.mul_le_mul_of_nonneg_right hpow (by decide))

/-- Numbers of 64 bits are not changed. -/
theorem wrap64_eq {x : ℤ} (hlo : -2 ^ 63 ≤ x) (hhi : x < 2 ^ 63) : wrap64 x = x := by
  rw [wrap64]
  exact Int.bmod_eq_of_le (by omega) (by omega)

/-- Up to 34 retries nothing overflows. -/
theorem backoff_eq_exact (cfg : TrackerConfig) (hr : r ≤ 34) :
    backoff cfg r = exactBackoff cfg r := by
  have hlo : (1 : ℤ) ≤ 2 ^ r := Int.pow_pos (by decide)
  have hhi : (2 : ℤ) ^ r ≤ 2 ^ 34 := pow_le_pow_right₀ (by decide) hr
  have hdelay : wrap64 (wrap64 (wrap64 (2 ^ r) * 500) * millisecond) =
      2 ^ r * (500 * millisecond) := by
    have hms : millisecond = (1000000 : ℤ) := rfl
    have hshift : wrap64 (2 ^ r) = 2 ^ r := wrap64_eq (by omega) (by omega)
    have hscale : wrap64 (2 ^ r * 500) = 2 ^ r * 500 := wrap64_eq (by omega) (by omega)
    rw [hms, hshift, hscale, wrap64_eq (by omega) (by omega)]
    exact Int.mul_assoc _ _ _
  rw [backoff, hdelay, exactBackoff]
  split
  · rename_i hlt
    exact (min_eq_left hlt.le).symm
  · rename_i hge
    exact (min_eq_right (not_lt.mp hge)).symm

/-- After 35 retries the product is negative, whatever the cap. -/
theorem backoff_neg (hmax : 0 < cfg.backoffMax) : backoff cfg 35 < 0 := by
  have hdelay : wrap64 (wrap64 (wrap64 (2 ^ 35) * 500) * millisecond) =
      (-1266874889709551616 : ℤ) := by decide
  rw [backoff, hdelay, if_neg]
  · decide
  · intro hlt
    exact absurd (hmax.trans hlt) (by decide)

/-- The path of `advanceEndpoint` that waits: the attempt failed, or a MISS came from the last
endpoint. -/
def WaitsAfter (immediate : Bool) (numEndpoints : ℕ) (e : GapEntry) : Prop :=
  immediate = true → 0 < numEndpoints ∧ numEndpoints ≤ e.endpointIdx + 1

/-- `advanceEndpoint` makes a gap wait for the delay `d`, in whatever state the tracker is, if
that brings it to at most `R` retries. -/
def Delays (cfg : TrackerConfig) (R : ℕ) (d : ℕ → Duration) : Prop :=
  ∀ (t : Tracker) (now : Time) (c e : GapEntry) (immediate : Bool) (n : ℕ),
    t.gap c.hashKey c.seqNum = some e → WaitsAfter immediate n e → e.retries + 1 ≤ R →
    ((t.advanceEndpoint cfg now c immediate n).gap c.hashKey c.seqNum).map
      GapEntry.nextAttempt = some (now + d (e.retries + 1))

/-- On the backoff path the delay is that of the new number of retries. -/
theorem advanceEntry_waits {now : Time} {immediate : Bool} {n : ℕ} {e : GapEntry}
    (h : WaitsAfter immediate n e) :
    (advanceEntry cfg now immediate n e).nextAttempt = now + backoff cfg (e.retries + 1) := by
  refine if_neg ?_
  rintro ⟨himm, hleft⟩
  exact hleft (h himm)

/-- A tracker with one gap that has been retried `r` times. -/
def retried (r : ℕ) : Tracker :=
  let e : GapEntry := ⟨7, 2, 0, Bytes32.ofByte 0, r, 0, 0, r⟩
  let fs : FlowState := ⟨3, 0, Bytes32.ofByte 0, .brc124, AList.insert 2 e ∅, 0⟩
  ⟨AList.insert 7 fs ∅, [], Recorder.zero⟩

/-- **When the backoff is exact.** With a positive cap, `advanceEndpoint` makes gaps wait for
the exact delay, up to a number `R` of retries, if and only if `R` is at most 34; the exact
delay is positive and does not decrease. -/
theorem backoff_exact_iff (cfg : TrackerConfig) (hmax : 0 < cfg.backoffMax) (R : ℕ) :
    (Delays cfg R (exactBackoff cfg) ↔ R ≤ 34) ∧
      (∀ r, 0 < exactBackoff cfg r) ∧ Monotone (exactBackoff cfg) := by
  refine ⟨⟨?_, ?_⟩, exactBackoff_pos hmax, exactBackoff_mono cfg⟩
  · intro hdelays
    by_contra hR
    -- the gap that goes from 34 to 35 retries
    let e : GapEntry := ⟨7, 2, 0, Bytes32.ofByte 0, 34, 0, 0, 34⟩
    have hwaits : WaitsAfter false 0 e := fun h => absurd h Bool.false_ne_true
    have hexact := hdelays (retried 34) 0 e e false 0 (by decide) hwaits
      (show 34 + 1 ≤ R by omega)
    rw [gap_advanceEndpoint, if_pos ⟨rfl, rfl⟩, show (retried 34).gap 7 2 = some e by decide,
      Option.map_some, Option.map_some, advanceEntry_waits hwaits] at hexact
    have hsame := Int.add_left_cancel (Option.some.inj hexact)
    have hneg : backoff cfg (e.retries + 1) < 0 := backoff_neg hmax
    rw [hsame] at hneg
    exact absurd (exactBackoff_pos hmax (e.retries + 1)) (not_lt.mpr hneg.le)
  · intro hR t now c e immediate n he hwaits hr
    rw [gap_advanceEndpoint, if_pos ⟨rfl, rfl⟩, he, Option.map_some, Option.map_some,
      advanceEntry_waits hwaits, backoff_eq_exact cfg (by omega)]

/-- With few retries every delay is the exact one. -/
theorem backoff_exact_test :
    0 < testConfig.backoffMax ∧ Delays testConfig 3 (exactBackoff testConfig) :=
  ⟨by decide, (backoff_exact_iff testConfig (by decide) 3).1.mpr (by decide)⟩

end Tracker

namespace System

/-- Forty retries for a gap that has an hour. -/
def fortyRetries : TrackerConfig :=
  { Tracker.testConfig with maxRetries := 40, gapTTL := 3600 * second }

/-- Attempt number `k`, six seconds after the one before it, gets no response. -/
def unanswered (k : ℕ) : List Event :=
  [.sweep (6 * k * second) storedOrder, .receive, .launch,
   .select 0 (.stored _) EndpointEntry.sort, .send 0, .fail 0 (6 * k * second + respTimeout)]

/-- Frame 2 of flow 7 is missing, and the first `n` attempts get no response. -/
def unansweredAttempts (n : ℕ) : List Event :=
  [.upsert 0 (advertOf 1 0 0), .observe (Tracker.arrivalAt 7 1 0),
   .observe (Tracker.arrivalAt 7 3 0)] ++ (List.range n).flatMap fun k => unanswered (k + 1)

/-- **The backoff wraps around.** The 35th attempt fails, the cap is five seconds, and the gap
is due at once: a sweep at the time of the failure sends the next copy on its way. -/
theorem backoff_wraps :
    0 < fortyRetries.backoffMax ∧
    ((after fortyRetries Registry.new (unansweredAttempts 35)).tracker.gap 7 2).map
      (fun e => (e.retries, e.nextAttempt)) =
      some (35, 210 * second + respTimeout + -1266874889709551616) ∧
    Tracker.exactBackoff fortyRetries 35 = 5 * second ∧
    (after fortyRetries Registry.new
      (unansweredAttempts 35 ++ [.sweep (210 * second + respTimeout) storedOrder])).copies.map
        GapEntry.key = [(7, 2)] := by
  decide +kernel

end System

end ShardListener
