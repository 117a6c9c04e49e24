import ShardListener.Escalation
import ShardListener.Outcomes

/-!
# The Schedule of a Gap

A gap whose NACKs are all answered by a MISS, while the list of endpoints stays the same: which
endpoint each attempt goes to, when the next one is due, and when the gap is given up. The
condition is on the copies only (`Answered`): each is answered before the next one is enqueued.
A sweep may still run past the stamp of a copy on the way if it finds the queue full; then the
entry differs from its copy in `nextAttempt`, which the MISS overwrites.

Along such a run one number describes the gap, the number of MISS responses
(`OnSchedule`): the retries and the endpoint index of the entry and the index of its copy.

## Main results

* `OnSchedule.step`: an answered event keeps to the schedule.
* `escalation_schedule`: attempts, next attempts and the end of a gap.
-/

namespace ShardListener

namespace System

/-! ### The condition -/

/-- No attempt for the gap fails or is acknowledged, and its senders are given the list
`snap`. -/
def MissOnly (snap : List EndpointEntry) (h m : UInt64) (s : System) : Event → Prop
  | .fail i _ | .ack i => ∀ x ∈ s.senders[i]?, x.key ≠ (h, m)
  | .select i ord sort => ∀ x ∈ s.senders[i]?, x.key = (h, m) →
      (s.registry.takeSnapshot ord sort).2 = snap
  | _ => True

instance (snap : List EndpointEntry) (h m : UInt64) (s : System) :
    ∀ ev, Decidable (MissOnly snap h m s ev)
  | .fail i _ | .ack i => inferInstanceAs (Decidable (∀ x ∈ s.senders[i]?, x.key ≠ (h, m)))
  | .select i ord sort => inferInstanceAs (Decidable (∀ x ∈ s.senders[i]?, x.key = (h, m) →
      (s.registry.takeSnapshot ord sort).2 = snap))
  | .observe _ | .fill _ _ | .sweep _ _ | .receive | .launch | .send _ | .miss _ _ | .upsert _ _
  | .evict _ _ => isTrue trivial

/-- **The condition on schedules**, for one gap. Every copy of it is answered, by a MISS, before
the next one is enqueued; it is not registered anew before that either. -/
structure Answered (cfg : TrackerConfig) (snap : List EndpointEntry) (h m : UInt64) (s : System)
    (ev : Event) : Prop where
  once : (s.step cfg ev).copies.countKey GapEntry.key (h, m) ≤ 1
  anew : s.tracker.gap h m = none → (s.step cfg ev).tracker.gap h m ≠ none → s.flight h m = none
  misses : MissOnly snap h m s ev

instance (cfg : TrackerConfig) (snap : List EndpointEntry) (h m : UInt64) (s : System)
    (ev : Event) : Decidable (Answered cfg snap h m s ev) :=
  decidable_of_iff (_ ∧ _ ∧ _) ⟨fun h => ⟨h.1, h.2.1, h.2.2⟩, fun h => ⟨h.once, h.anew, h.misses⟩⟩

/-! ### The schedule -/

/-- What a sender has chosen for attempt `k`. -/
def Phase.Chosen (snap : List EndpointEntry) (k : ℕ) : Phase → Prop
  | .starting => True
  | .selected endpoint n => Registry.Ordered snap ∧ n = snap.length ∧
      snap[min k (snap.length - 1)]? = some endpoint
  | .awaiting _ n => n = snap.length

/-- The gap has been answered `k` times by a MISS since it was registered. -/
structure OnSchedule (cfg : TrackerConfig) (snap : List EndpointEntry)
    (entry : Option GapEntry) (copy : Option Sender) (tried : List EndpointEntry) (k : ℕ) :
    Prop where
  bound : (k : ℤ) ≤ cfg.maxRetries
  pending : ∀ e, entry = some e → e.retries = k ∧ e.endpointIdx = k
  flying : ∀ x, copy = some x →
    x.entry.endpointIdx = k ∧ (k : ℤ) < cfg.maxRetries ∧ Phase.Chosen snap k x.phase
  made : tried.length = k + copy.elim 0 fun x => x.phase.sent
  walks : snap.Walks tried
  ordered : tried ≠ [] → Registry.Ordered snap

section OnSchedule

variable {cfg : TrackerConfig} {snap : List EndpointEntry} {h m : UInt64} {s : System}
  {tried : List EndpointEntry} {k : ℕ}

/-- The gap is answered otherwise, or given up. -/
theorem OnSchedule.closed {entry : Option GapEntry} {copy : Option Sender}
    (hsch : OnSchedule cfg snap entry copy tried k) : OnSchedule cfg snap none copy tried k :=
  { hsch with pending := fun _ he => nomatch he }

/-- One more attempt, at its place. -/
theorem OnSchedule.send {entry : Option GapEntry} {c : GapEntry} {endpoint : EndpointEntry} {n : ℕ}
    (hsch : OnSchedule cfg snap entry (some ⟨c, .selected endpoint n⟩) tried k) :
    OnSchedule cfg snap entry (some ⟨c, .awaiting endpoint n⟩) (tried ++ [endpoint]) k := by
  obtain ⟨hidx, hlt, hord, hn, hat⟩ := hsch.flying _ rfl
  have hmade : tried.length = k := hsch.made
  refine ⟨hsch.bound, hsch.pending, ?_, ?_, hsch.walks.snoc (hmade ▸ hat), fun _ => hord⟩
  · intro x hx
    obtain rfl := Option.some.inj hx
    exact ⟨hidx, hlt, hn⟩
  · rw [List.length_append, hmade]
    rfl

/-- A MISS. -/
theorem OnSchedule.missed {e : Option GapEntry} {c : GapEntry} {endpoint : EndpointEntry} {n : ℕ}
    (hsch : OnSchedule cfg snap e (some ⟨c, .awaiting endpoint n⟩) tried k) (now : Time) :
    OnSchedule cfg snap (e.map (Tracker.advanceEntry cfg now true n)) none tried (k + 1) := by
  obtain ⟨-, hlt, -⟩ := hsch.flying _ rfl
  refine ⟨?_, ?_, fun _ hx => (nomatch hx), hsch.made, hsch.walks, hsch.ordered⟩
  · omega
  · intro e' he'
    obtain ⟨e, he, rfl⟩ := Option.map_eq_some_iff.mp he'
    obtain ⟨hretries, hidx⟩ := hsch.pending e he
    exact ⟨congrArg (· + 1) hretries, congrArg (· + 1) hidx⟩

/-- **The step lemma**: an answered event keeps to the schedule. -/
theorem OnSchedule.step (hsch : OnSchedule cfg snap (s.tracker.gap h m) (s.flight h m) tried k)
    (hmax : 0 ≤ cfg.maxRetries) (hne : snap ≠ []) (hs : Lone h m s) (hcoh : s.registry.Coherent)
    {ev : Event} (hev : Answered cfg snap h m s ev) :
    ∃ k, OnSchedule cfg snap ((s.step cfg ev).tracker.gap h m) ((s.step cfg ev).flight h m)
      (followAttempts cfg h m s ev tried) k := by
  have hmove := copyMotion cfg hs ev
  have hanew := hev.anew
  rw [followAttempts]
  generalize (s.step cfg ev).tracker.gap h m = entry at hmove hanew
  generalize (s.step cfg ev).flight h m = copy at hmove
  cases hmove with
  | rest hsend =>
      rw [hsend, noteAttempt_none id]
      exact ⟨k, hsch⟩
  | closed hsend =>
      rw [hsend, noteAttempt_none fun _ => rfl]
      exact ⟨k, hsch.closed⟩
  | registered hgap _ _ _ =>
      rw [noteAttempt, if_pos ⟨hgap, Option.some_ne_none _⟩, hanew hgap (Option.some_ne_none _)]
      refine ⟨0, hmax, ?_, fun x hx => absurd hx (Option.not_mem_none x), rfl, .nil snap,
        fun hc => absurd rfl hc⟩
      intro e he
      obtain rfl := Option.some.inj he
      exact ⟨rfl, rfl⟩
  | @enqueued now ord e c hgap hfl hst =>
      rw [sendsTo_sweep, noteAttempt_pending hgap]
      obtain ⟨hlive, -, rfl⟩ := hst
      obtain ⟨hretries, hidx⟩ := hsch.pending e hgap
      have hmade := hsch.made
      rw [hfl] at hmade
      refine ⟨k, hsch.bound, ?_, ?_, hmade, hsch.walks, hsch.ordered⟩
      · intro e' he'
        obtain rfl := Option.some.inj he'
        exact ⟨hretries, hidx⟩
      · intro x hx
        obtain rfl := Option.some.inj hx
        exact ⟨hidx, hretries ▸ hlive.2, trivial⟩
  | @deferred now t ord e hgap =>
      rw [sendsTo_sweep, noteAttempt_pending hgap]
      refine ⟨k, { hsch with pending := ?_ }⟩
      intro e' he'
      obtain rfl := Option.some.inj he'
      exact hsch.pending e hgap
  | @selected i ord sort c endpoint hi hfl hsel =>
      rw [sendsTo_select, noteAttempt_none id]
      have hsnap : (s.registry.takeSnapshot ord sort).2 = snap :=
        hev.misses _ hi (List.mem_of_byKey hfl).2
      obtain ⟨hidx, hlt, -⟩ := hsch.flying _ hfl
      have hmade := hsch.made
      rw [hfl] at hmade
      refine ⟨k, hsch.bound, hsch.pending, ?_, hmade, hsch.walks, hsch.ordered⟩
      intro x hx
      obtain rfl := Option.some.inj hx
      have hord := (hcoh.takeSnapshot ord sort).1
      rw [hsnap] at hord hsel
      rw [selectEndpoint_eq, show c.endpointIdx = k from hidx] at hsel
      exact ⟨hidx, hlt, hord, congrArg List.length hsnap, hsel⟩
  | @dropped i ord sort c hi hfl hsel =>
      -- the list is not empty
      have hsnap : (s.registry.takeSnapshot ord sort).2 = snap :=
        hev.misses _ hi (List.mem_of_byKey hfl).2
      rw [hsnap, selectEndpoint_eq, List.getElem?_eq_none_iff] at hsel
      have hlen := List.length_pos_iff.mpr hne
      omega
  | @sent i c endpoint n hfl hsend =>
      rw [hsend, noteAttempt_sent]
      rw [hfl] at hsch
      exact ⟨k, hsch.send⟩
  | failed hi hfl => exact absurd (List.mem_of_byKey hfl).2 (hev.misses _ hi)
  | acked hi hfl => exact absurd (List.mem_of_byKey hfl).2 (hev.misses _ hi)
  | @missed i now c endpoint n hi hfl =>
      rw [sendsTo_miss, noteAttempt_map]
      rw [hfl] at hsch
      exact ⟨k + 1, hsch.missed now⟩

/-- The run lemma. -/
theorem onSchedule_after {r : Registry} {es : List Event} (hmax : 0 ≤ cfg.maxRetries)
    (hne : snap ≠ []) (hcoh : r.Coherent)
    (hok : Machine.Guarded (step cfg) (Answered cfg snap h m) (start r) es) :
    Lone h m (after cfg r es) ∧
      ∃ k, OnSchedule cfg snap ((after cfg r es).tracker.gap h m) ((after cfg r es).flight h m)
        (attemptsAfter cfg r h m es).2 k := by
  have hfst : (attemptsAfter cfg r h m es).1 = after cfg r es := Machine.run_withGhost _ _ _
  rw [← hfst]
  have key := Machine.guarded_invariant
    (P := fun p : System × List EndpointEntry =>
      (Lone h m p.1 ∧ p.1.registry.Coherent) ∧
        ∃ k, OnSchedule cfg snap (p.1.tracker.gap h m) (p.1.flight h m) p.2 k) ?_ ?_
    ((Machine.guarded_withGhost (followAttempts cfg h m) [] es).mpr hok)
  · exact ⟨key.1.1, key.2⟩
  · refine ⟨⟨(Single.start cfg h m r).lone, hcoh⟩, 0, hmax, fun _ he => (nomatch he),
      fun _ hx => (nomatch hx), rfl, .nil snap, fun hc => absurd rfl hc⟩
  · rintro ⟨s, tried⟩ ev hev ⟨⟨hs, hscoh⟩, k, hsch⟩
    refine ⟨⟨⟨keyed_step cfg hs.keyed ev, ?_⟩, coherent_step hscoh ev⟩,
      hsch.step hmax hne hs hscoh hev⟩
    rw [countKey_flights]
    exact hev.once

end OnSchedule

/-! ### What follows from it -/

section Consequences

variable {cfg : TrackerConfig} {snap : List EndpointEntry} {h m : UInt64} {s : System}
  {tried : List EndpointEntry} {k : ℕ}

/-- Tiers ascend along a snapshot. -/
theorem tier_le_of_ordered (hord : Registry.Ordered snap) :
    snap.Pairwise fun a b => a.tier ≤ b.tier := by
  refine hord.imp ?_
  intro a b hab
  rcases EndpointEntry.less_eq_false_iff.mp hab with hlt | ⟨heq, -⟩
  · exact UInt8.le_of_lt hlt
  · exact UInt8.le_of_eq heq

/-- Tiers never decrease. -/
theorem OnSchedule.tiers {entry : Option GapEntry} {copy : Option Sender}
    (hsch : OnSchedule cfg snap entry copy tried k) :
    tried.Pairwise fun a b => a.tier ≤ b.tier := by
  by_cases hnil : tried = []
  · rw [hnil]
    exact .nil
  · exact hsch.walks.pairwise (fun a => UInt8.le_refl a.tier)
      (tier_le_of_ordered (hsch.ordered hnil))

/-- **The next attempt after a MISS**: at once while there are endpoints left, else after the
backoff. -/
theorem OnSchedule.nextAttempt
    (hsch : OnSchedule cfg snap (s.tracker.gap h m) (s.flight h m) tried k) (hs : Lone h m s)
    (hne : snap ≠ []) {i n : ℕ} {now : Time} {c e : GapEntry} {endpoint : EndpointEntry}
    (hi : s.senders[i]? = some ⟨c, .awaiting endpoint n⟩) (hkey : c.key = (h, m))
    (he : (s.step cfg (.miss i now)).tracker.gap h m = some e) :
    e.nextAttempt =
      if tried.length < snap.length then now else now + Tracker.backoff cfg tried.length := by
  have hfl : s.flight h m = some ⟨c, .awaiting endpoint n⟩ :=
    (List.byKey_eq_some hs.once).mpr ⟨List.mem_of_getElem? (flights_getElem hi), hkey⟩
  obtain ⟨-, -, hn⟩ := hsch.flying _ hfl
  have hmade := hsch.made
  rw [hfl] at hmade
  have hlen : tried.length = k + 1 := hmade
  have hgap : (s.step cfg (.miss i now)).tracker.gap h m =
      (s.tracker.gap h m).map (Tracker.advanceEntry cfg now true n) := by
    have hmiss : (s.step cfg (.miss i now)).tracker =
        s.tracker.advanceEndpoint cfg now c true n := by
      rw [System.step, miss, hi]
      rfl
    obtain ⟨hh, hm⟩ := Prod.mk.inj hkey
    rw [hmiss, Tracker.gap_advanceEndpoint, if_pos ⟨hh.symm, hm.symm⟩]
  rw [hgap] at he
  obtain ⟨e₀, he₀, rfl⟩ := Option.map_eq_some_iff.mp he
  obtain ⟨hretries, hidx⟩ := hsch.pending e₀ he₀
  have hn' : n = snap.length := hn
  have hpos := List.length_pos_iff.mpr hne
  simp only [Tracker.advanceEntry, hretries, hidx, hlen, hn']
  refine if_congr ?_ rfl rfl
  rw [true_and]
  omega

/-- **When a sweep gives the gap up for its retries.** -/
theorem OnSchedule.evicted_iff
    (hsch : OnSchedule cfg snap (s.tracker.gap h m) (s.flight h m) tried k) {now : Time}
    {ord : Tracker.SweepOrder} {e : GapEntry} (he : s.tracker.gap h m = some e)
    (hdeadline : now ≤ e.deadline) :
    (s.step cfg (.sweep now ord)).tracker.gap h m = none ↔
      (tried.length : ℤ) = cfg.maxRetries ∧ s.flight h m = none := by
  have hretries := (hsch.pending e he).1
  have hbound := hsch.bound
  have hmade := hsch.made
  have hswept : (s.step cfg (.sweep now ord)).tracker.gap h m = none ↔
      ¬ (k : ℤ) < cfg.maxRetries := by
    rw [← hretries]
    refine (Tracker.gap_sweepOnce_eq_none_iff he).trans (not_congr ?_)
    exact and_iff_right hdeadline
  rw [hswept]
  cases hfl : s.flight h m with
  | none =>
      rw [hfl] at hmade
      have hlen : tried.length = k := hmade
      rw [hlen]
      constructor
      · intro hk
        exact ⟨by omega, rfl⟩
      · rintro ⟨hk, -⟩
        omega
  | some x =>
      -- the copy was taken while there were retries left
      have hlt := (hsch.flying x hfl).2.1
      exact iff_of_false (not_not.mpr hlt) fun hc => nomatch hc.2

end Consequences

/-- **The escalation schedule of a gap.** Take any registry reached by calls, a list of endpoints
that is not empty, and a schedule in which the senders of the gap are given that list and each
copy of it is answered by a MISS before the next one is enqueued.

* Attempt `k` goes to place `k` of the list, clamped at the last; so tiers never decrease, and an
  endpoint that is not the last is tried at most as often as it is listed.
* After the MISS for attempt `k` the gap is due at once if `k + 1` is still a place of the list,
  and after the backoff for `k + 1` retries otherwise.
* Before the deadline, a sweep gives the gap up exactly when `MaxRetries` attempts were made and
  answered. -/
theorem escalation_schedule (cfg : TrackerConfig) (hmax : 0 ≤ cfg.maxRetries)
    (ops : List Registry.Op) (snap : List EndpointEntry) (hne : snap ≠ []) (h m : UInt64)
    (es : List Event)
    (hok : Machine.Guarded (step cfg) (Answered cfg snap h m) (start (Registry.after ops)) es) :
    let s := after cfg (Registry.after ops) es
    let tried := (attemptsAfter cfg (Registry.after ops) h m es).2
    (∀ k < tried.length, tried[k]? = snap[min k (snap.length - 1)]?) ∧
    (tried.Pairwise fun a b => a.tier ≤ b.tier) ∧
    (∀ endpoint, snap.getLast? ≠ some endpoint → tried.count endpoint ≤ snap.count endpoint) ∧
    (∀ i n now c e endpoint, s.senders[i]? = some ⟨c, .awaiting endpoint n⟩ → c.key = (h, m) →
      (s.step cfg (.miss i now)).tracker.gap h m = some e →
      e.nextAttempt =
        if tried.length < snap.length then now else now + Tracker.backoff cfg tried.length) ∧
    (∀ now ord e, s.tracker.gap h m = some e → now ≤ e.deadline →
      ((s.step cfg (.sweep now ord)).tracker.gap h m = none ↔
        (tried.length : ℤ) = cfg.maxRetries ∧ s.flight h m = none)) := by
  obtain ⟨hs, k, hsch⟩ := onSchedule_after hmax hne (Registry.coherent_after ops) hok
  refine ⟨hsch.walks, hsch.tiers, fun _ hlast => hsch.walks.count_le hlast, ?_, ?_⟩
  · intro i n now c e endpoint hi hkey he
    exact hsch.nextAttempt hs hne hi hkey he
  · intro now ord e he hdeadline
    exact hsch.evicted_iff he hdeadline

/-- The endpoints of two tiers, in order. -/
def twoEndpoints : List EndpointEntry := (twoTiers.takeSnapshot (.stored _) EndpointEntry.sort).2

/-- A MISS from each of two endpoints: after the second one the gap backs off. -/
theorem escalation_schedule_two_tiers :
    ∃ e, ((after Tracker.testConfig twoTiers
        (firstAttempt ++ .miss 0 (1 * second) :: secondAttempt)).step Tracker.testConfig
          (.miss 0 (3 * second))).tracker.gap 7 2 = some e ∧
      e.nextAttempt = 3 * second + Tracker.backoff Tracker.testConfig 2 := by
  have hschedule := escalation_schedule Tracker.testConfig (by decide)
    [.upsert 0 (advertOf 1 0 0), .upsert 0 (advertOf 2 1 0)] twoEndpoints (by decide) 7 2
    (firstAttempt ++ .miss 0 (1 * second) :: secondAttempt) (by decide)
  refine ⟨_, rfl, (hschedule.2.2.2.1 0 2 (3 * second) _ _ _ rfl rfl rfl).trans ?_⟩
  decide

end System

end ShardListener
