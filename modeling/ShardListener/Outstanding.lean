import ShardListener.KeyedList
import ShardListener.Dispatch

/-!
# One NACK at a Time

How many copies of a gap are on the way. The only guard of the sweeper is the
`nextAttempt` it stamps on an entry when it copies it, 400 ms ahead, while the time a copy
spends in the queue, waiting for the semaphore and waiting for a response is not bounded.
As long as a gap's copy is done before a sweep runs past its stamp (`Timely`), the gap has
one copy on the way at most and its entry stays as it was copied (`Single`). The gap then
goes through a simple cycle, whatever the other gaps do (`GapMotion`).

## Main results

* `Single.step`: a timely event keeps the copy unique.
* `gapMotion`: what a timely event does to one gap.
* `one_nack_outstanding`: in timely schedules a gap has at most one copy on the way, and a
  registered gap causes at most `MaxRetries` datagrams.
* `two_nacks_outstanding`: without the condition neither holds.
-/

namespace ShardListener

/-- The key of the gap a sender works on. -/
def Sender.key (x : Sender) : UInt64 × UInt64 := x.entry.key

/-- The number of datagrams sent in a phase. -/
def Phase.sent : Phase → ℕ
  | .awaiting _ _ => 1
  | _ => 0

namespace System

/-- The copy of a gap that is on the way. -/
def flight (s : System) (h m : UInt64) : Option Sender := s.flights.byKey Sender.key (h, m)

/-- The endpoint to which an event sends a NACK for the gap. -/
def sendsTo (s : System) (h m : UInt64) (ev : Event) : Option EndpointEntry :=
  (s.sends ev).bind fun p => if p.2.hashKey = h ∧ p.2.startSeq = m then some p.1 else none

section SendsTo

-- of the events that a copy of a gap goes through, only `send` sends
variable (s : System) (h m : UInt64) (i : ℕ) (now : Time)

@[simp] theorem sendsTo_sweep (ord : Tracker.SweepOrder) :
    s.sendsTo h m (.sweep now ord) = none := rfl

@[simp] theorem sendsTo_select (ord : RangeOrder UInt32) (sort : SliceSort EndpointEntry.less) :
    s.sendsTo h m (.select i ord sort) = none := rfl

@[simp] theorem sendsTo_fail : s.sendsTo h m (.fail i now) = none := rfl

@[simp] theorem sendsTo_ack : s.sendsTo h m (.ack i) = none := rfl

@[simp] theorem sendsTo_miss : s.sendsTo h m (.miss i now) = none := rfl

end SendsTo

/-- **The condition on schedules**, for one gap. A sweep does not run past the stamp of a
copy on the way while the gap is still alive, and no arrival registers the gap anew while a
copy of it is on the way. -/
def Timely (cfg : TrackerConfig) (h m : UInt64) (s : System) : Event → Prop
  | .sweep now _ => ∀ c ∈ s.copies, c.key = (h, m) → ∀ e ∈ s.tracker.gap h m,
      Tracker.Live cfg now e → now ≤ c.nextAttempt
  | .observe a => ∀ c ∈ s.copies, c.key = (h, m) → h = a.hashKey →
      ∀ fs ∈ s.tracker.flows.lookup h, ¬ (fs.lastSeqNum < m ∧ m < a.seqNum)
  | _ => True

instance (cfg : TrackerConfig) (h m : UInt64) (s : System) : ∀ ev, Decidable (Timely cfg h m s ev)
  | .sweep now _ => inferInstanceAs (Decidable (∀ c ∈ s.copies, c.key = (h, m) →
      ∀ e ∈ s.tracker.gap h m, Tracker.Live cfg now e → now ≤ c.nextAttempt))
  | .observe a => inferInstanceAs (Decidable (∀ c ∈ s.copies, c.key = (h, m) → h = a.hashKey →
      ∀ fs ∈ s.tracker.flows.lookup h, ¬ (fs.lastSeqNum < m ∧ m < a.seqNum)))
  | .fill _ _ | .receive | .launch | .select _ _ _ | .send _ | .fail _ _ | .ack _ | .miss _ _
  | .upsert _ _ | .evict _ _ => isTrue trivial

/-- The gap has one copy on the way at most, and while it has one its entry is that
copy. -/
structure Single (cfg : TrackerConfig) (h m : UInt64) (s : System) : Prop where
  keyed : s.tracker.Keyed
  once : s.flights.countKey Sender.key (h, m) ≤ 1
  retries : ∀ x ∈ s.flights, x.key = (h, m) → (x.entry.retries : ℤ) < cfg.maxRetries
  entry : ∀ x ∈ s.flights, x.key = (h, m) → ∀ e, s.tracker.gap h m = some e → e = x.entry

section Single

variable {cfg : TrackerConfig} {h m : UInt64} {s s' : System}

theorem Single.start (cfg : TrackerConfig) (h m : UInt64) (r : Registry) :
    Single cfg h m (start r) where
  keyed := fun _ _ _ h => nomatch h
  once := Nat.zero_le _
  retries := fun _ h => nomatch h
  entry := fun _ h => nomatch h

/-- Counting senders is counting copies. -/
theorem countKey_flights (s : System) (k : UInt64 × UInt64) :
    s.flights.countKey Sender.key k = s.copies.countKey GapEntry.key k := by
  rw [copies, List.countKey, List.countKey, List.countP_map]
  rfl

/-- Copies that stay, move on or leave, with a gap that stays or goes. -/
theorem Single.shrink (hs : Single cfg h m s) (hkeyed : s'.tracker.Keyed)
    (hsub : (s'.copies).Sublist s.copies)
    (hgap : (∃ c ∈ s'.copies, c.key = (h, m)) → ∀ e, s'.tracker.gap h m = some e →
      s.tracker.gap h m = some e) : Single cfg h m s' := by
  have hmem : ∀ x ∈ s'.flights, ∃ y ∈ s.flights, y.entry = x.entry := by
    intro x hx
    exact List.mem_map.mp (hsub.subset (List.mem_map_of_mem hx))
  refine ⟨hkeyed, ?_, ?_, ?_⟩
  · have honce := hs.once
    rw [countKey_flights] at honce ⊢
    exact le_trans hsub.countP_le honce
  · intro x hx hkey
    obtain ⟨y, hy, hyx⟩ := hmem x hx
    rw [← hyx]
    exact hs.retries y hy (by rw [Sender.key, hyx]; exact hkey)
  · intro x hx hkey e he
    obtain ⟨y, hy, hyx⟩ := hmem x hx
    rw [← hyx]
    refine hs.entry y hy (by rw [Sender.key, hyx]; exact hkey) e ?_
    exact hgap ⟨x.entry, List.mem_map_of_mem hx, hkey⟩ e he

/-- The copies after a sender has moved on are the same. -/
theorem copies_of_set {i : ℕ} {e : GapEntry} {p q : Phase} (hi : s.flights[i]? = some ⟨e, p⟩)
    (hfl : s'.flights = s.flights.set i ⟨e, q⟩) : s'.copies = s.copies := by
  rw [copies, copies, hfl]
  exact List.map_set_of_eq hi rfl

/-- The copies after a sender has returned. -/
theorem copies_of_eraseIdx {i : ℕ} (hfl : s'.flights = s.flights.eraseIdx i) :
    (s'.copies).Sublist s.copies := by
  rw [copies, copies, hfl]
  exact (List.eraseIdx_sublist _ i).map _

/-- A timely sweep does not enqueue the gap when it has a copy on the way. -/
theorem Single.notMem_new (hs : Single cfg h m s) {now : Time} {ord : Tracker.SweepOrder}
    (hok : Timely cfg h m s (.sweep now ord)) {e c : GapEntry}
    (he : s.tracker.gap h m = some e) (hst : Tracker.Stamped cfg now e c) :
    ∀ x ∈ s.flights, x.key ≠ (h, m) := by
  intro x hx hkey
  have hex := hs.entry x hx hkey e he
  have hle := hok x.entry (List.mem_map_of_mem hx) hkey e he hst.1
  have hdue := hst.2.1
  rw [hex] at hdue
  exact absurd hdue (not_lt.mpr hle)

/-- A timely sweep leaves the entry alone, or drops it, when a copy is on the way. -/
theorem Single.gap_sweep (hs : Single cfg h m s) {now : Time} {ord : Tracker.SweepOrder}
    (hok : Timely cfg h m s (.sweep now ord)) {x : Sender} (hx : x ∈ s.flights)
    (hkey : x.key = (h, m)) {e : GapEntry}
    (he : (s.tracker.sweepOnce cfg now ord).gap h m = some e) :
    s.tracker.gap h m = some e := by
  obtain ⟨label, acc, hsweep⟩ := Tracker.gap_sweepOnce cfg s.tracker now ord h m
  rw [hsweep, Option.bind_eq_some_iff] at he
  obtain ⟨e₀, he₀, hout⟩ := he
  have hex := hs.entry x hx hkey e₀ he₀
  have hcase := Tracker.sweepGap_case cfg now label acc m e₀
  generalize Tracker.sweepGap cfg now label acc m e₀ = out at hout hcase
  cases hcase with
  | dropped _ => cases hout
  | waiting _ _ =>
      obtain rfl := Option.some.inj hout
      exact he₀
  | enqueued hl hdue _ | deferred hl hdue _ =>
      have hle := hok x.entry (List.mem_map_of_mem hx) hkey e₀ he₀ hl
      rw [hex] at hdue
      exact absurd hdue (not_lt.mpr hle)

/-- A timely sweep keeps the copy unique. -/
theorem Single.sweep (hs : Single cfg h m s) {now : Time} {ord : Tracker.SweepOrder}
    (hok : Timely cfg h m s (.sweep now ord)) :
    Single cfg h m { s with tracker := s.tracker.sweepOnce cfg now ord } := by
  obtain ⟨new, hqueue, hnd, hnew⟩ := Tracker.sweepOnce_nackQueue cfg hs.keyed now ord
  have hfl := flights_sweep hqueue
  -- a copy of the gap among the new ones is the first on the way
  have hfresh : ∀ c ∈ new, c.key = (h, m) → ∀ x ∈ s.flights, x.key ≠ (h, m) := by
    intro c hc hkey
    obtain ⟨e, he, -, hst⟩ := hnew c hc
    obtain ⟨rfl, rfl⟩ := Prod.mk.inj hkey
    exact hs.notMem_new hok he hst
  refine ⟨hs.keyed.step (.sweepOnce now ord), ?_, ?_, ?_⟩
  · have hone : new.countKey GapEntry.key (h, m) ≤ 1 := List.countKey_le_one_of_nodup hnd _
    have honce := hs.once
    have hcount : (new.map fun c => (⟨c, .starting⟩ : Sender)).countKey Sender.key (h, m) =
        new.countKey GapEntry.key (h, m) := List.countP_map
    rw [hfl, List.countKey_append, hcount]
    by_cases hc : ∃ c ∈ new, c.key = (h, m)
    · obtain ⟨c, hc, hkey⟩ := hc
      rw [List.countKey_eq_zero.mpr (hfresh c hc hkey), Nat.zero_add]
      exact hone
    · rw [List.countKey_eq_zero.mpr fun c hc' hkey => hc ⟨c, hc', hkey⟩]
      exact honce
  · intro x hx hkey
    rw [hfl] at hx
    rcases List.mem_append.mp hx with hx | hx
    · exact hs.retries x hx hkey
    · obtain ⟨c, hc, rfl⟩ := List.mem_map.mp hx
      obtain ⟨e, -, -, hlive, -, rfl⟩ := hnew c hc
      exact hlive.2
  · intro x hx hkey e' he'
    rw [hfl] at hx
    rcases List.mem_append.mp hx with hx | hx
    · exact hs.entry x hx hkey e' (hs.gap_sweep hok hx hkey he')
    · obtain ⟨c, hc, rfl⟩ := List.mem_map.mp hx
      obtain ⟨e, -, hc', -⟩ := hnew c hc
      obtain ⟨rfl, rfl⟩ := Prod.mk.inj hkey
      exact Option.some.inj (he'.symm.trans hc')

/-- When the sender of the gap has returned, no copy of it is left. -/
theorem Single.ne_of_eraseIdx (hs : Single cfg h m s) {i : ℕ} {x : Sender}
    (hi : s.flights[i]? = some x) (hfl : s'.flights = s.flights.eraseIdx i)
    (hc : ∃ c ∈ s'.copies, c.key = (h, m)) :
    ¬ (h = x.entry.hashKey ∧ m = x.entry.seqNum) := by
  rintro ⟨rfl, rfl⟩
  obtain ⟨c, hc, hkey⟩ := hc
  obtain ⟨y, hy, rfl⟩ := List.mem_map.mp hc
  have hnone : s'.flights.byKey Sender.key (x.entry.hashKey, x.entry.seqNum) = none := by
    rw [hfl, List.byKey_eraseIdx hs.once hi]
    exact if_pos rfl
  exact List.byKey_eq_none.mp hnone y hy hkey

/-- **The step lemma**: a timely event keeps the copy unique. -/
theorem Single.step (hs : Single cfg h m s) {ev : Event} (hok : Timely cfg h m s ev) :
    Single cfg h m (s.step cfg ev) := by
  have hkeyed := keyed_step cfg hs.keyed ev
  have hmove := step_motion cfg s ev
  generalize s.step cfg ev = s' at hkeyed hmove
  cases hmove with
  | rest hgap hfl _ =>
      refine hs.shrink hkeyed (by rw [copies, copies, hfl]) ?_
      intro _ e he
      rwa [hgap] at he
  | observed a =>
      refine hs.shrink hkeyed (by rw [copies, copies, flights_observe]) ?_
      rintro ⟨c, hc, hkey⟩ e he
      rw [copies, flights_observe] at hc
      rcases Tracker.gap_observe he with he | ⟨-, hh, -, fs, hfs, hlt⟩
      · exact he
      · exact absurd hlt (hok c hc hkey hh fs hfs)
  | filled hk k =>
      refine hs.shrink hkeyed (by rw [copies, copies, flights_fill]) ?_
      intro _ e he
      exact Tracker.gap_of_fill he
  | swept now ord => exact hs.sweep hok
  | selected hi _ hgap hfl | sent hi _ hgap hfl =>
      refine hs.shrink hkeyed (by rw [copies_of_set hi hfl]) ?_
      intro _ e he
      rwa [hgap] at he
  | dropped hi _ hgap hfl =>
      refine hs.shrink hkeyed (copies_of_eraseIdx hfl) ?_
      intro _ e he
      rwa [hgap] at he
  | failed hi hgap hfl =>
      refine hs.shrink hkeyed (copies_of_eraseIdx hfl) ?_
      intro hc e he
      rwa [hgap, Tracker.gap_advanceEndpoint,
        if_neg (hs.ne_of_eraseIdx (flights_getElem hi) hfl hc)] at he
  | missed hi hgap hfl =>
      refine hs.shrink hkeyed (copies_of_eraseIdx hfl) ?_
      intro hc e he
      rwa [hgap, Tracker.gap_advanceEndpoint,
        if_neg (hs.ne_of_eraseIdx (flights_getElem hi) hfl hc)] at he
  | acked hi hgap hfl =>
      refine hs.shrink hkeyed (copies_of_eraseIdx hfl) ?_
      intro hc e he
      rwa [hgap, Tracker.cancelGap, Tracker.gap_closeGap,
        if_neg (hs.ne_of_eraseIdx (flights_getElem hi) hfl hc)] at he

end Single

/-! ### The copy of one gap -/

/-- The gap has one copy on the way at most. -/
structure Lone (h m : UInt64) (s : System) : Prop where
  keyed : s.tracker.Keyed
  once : s.flights.countKey Sender.key (h, m) ≤ 1

theorem Single.lone {cfg : TrackerConfig} {h m : UInt64} {s : System} (hs : Single cfg h m s) :
    Lone h m s := ⟨hs.keyed, hs.once⟩

/-- **What an event does to a gap with one copy at most**: the effect on its entry and on its
copy. -/
inductive CopyMotion (cfg : TrackerConfig) (s : System) (h m : UInt64) :
    Event → Option GapEntry → Option Sender → Prop
  /-- Nothing. -/
  | rest {ev : Event} (hsend : s.sendsTo h m ev = none) :
      CopyMotion cfg s h m ev (s.tracker.gap h m) (s.flight h m)
  /-- The gap is answered, dropped or given up. -/
  | closed {ev : Event} (hsend : s.sendsTo h m ev = none) :
      CopyMotion cfg s h m ev none (s.flight h m)
  /-- The gap is registered. -/
  | registered {a : Arrival} {fs : FlowState} (hgap : s.tracker.gap h m = none)
      (hkey : h = a.hashKey) (hfs : s.tracker.flows.lookup h = some fs)
      (hskipped : fs.lastSeqNum < m ∧ m < a.seqNum) :
      CopyMotion cfg s h m (.observe a) (some (GapEntry.fresh cfg a m)) (s.flight h m)
  /-- The sweeper sends a copy on its way. -/
  | enqueued {now : Time} {ord : Tracker.SweepOrder} {e c : GapEntry}
      (hgap : s.tracker.gap h m = some e) (hfl : s.flight h m = none)
      (hst : Tracker.Stamped cfg now e c) :
      CopyMotion cfg s h m (.sweep now ord) (some c) (some ⟨c, .starting⟩)
  /-- The sweeper only writes `nextAttempt`. -/
  | deferred {now t : Time} {ord : Tracker.SweepOrder} {e : GapEntry}
      (hgap : s.tracker.gap h m = some e) :
      CopyMotion cfg s h m (.sweep now ord) (some { e with nextAttempt := t }) (s.flight h m)
  /-- The copy's sender chooses an endpoint. -/
  | selected {i : ℕ} {ord : RangeOrder UInt32} {sort : SliceSort EndpointEntry.less}
      {c : GapEntry} {endpoint : EndpointEntry} (hi : s.senders[i]? = some ⟨c, .starting⟩)
      (hfl : s.flight h m = some ⟨c, .starting⟩)
      (hsel : selectEndpoint (s.registry.takeSnapshot ord sort).2 c = some endpoint) :
      CopyMotion cfg s h m (.select i ord sort) (s.tracker.gap h m)
        (some ⟨c, .selected endpoint (s.registry.takeSnapshot ord sort).2.length⟩)
  /-- The copy's sender finds no endpoint. -/
  | dropped {i : ℕ} {ord : RangeOrder UInt32} {sort : SliceSort EndpointEntry.less}
      {c : GapEntry} (hi : s.senders[i]? = some ⟨c, .starting⟩)
      (hfl : s.flight h m = some ⟨c, .starting⟩)
      (hsel : selectEndpoint (s.registry.takeSnapshot ord sort).2 c = none) :
      CopyMotion cfg s h m (.select i ord sort) (s.tracker.gap h m) none
  /-- The copy's sender sends its datagram. -/
  | sent {i : ℕ} {c : GapEntry} {endpoint : EndpointEntry} {n : ℕ}
      (hfl : s.flight h m = some ⟨c, .selected endpoint n⟩)
      (hsend : s.sendsTo h m (.send i) = some endpoint) :
      CopyMotion cfg s h m (.send i) (s.tracker.gap h m) (some ⟨c, .awaiting endpoint n⟩)
  /-- The attempt fails. -/
  | failed {i : ℕ} {now : Time} {x : Sender} (hi : s.senders[i]? = some x)
      (hfl : s.flight h m = some x) :
      CopyMotion cfg s h m (.fail i now)
        ((s.tracker.gap h m).map (Tracker.advanceEntry cfg now false 0)) none
  /-- The attempt is answered by an ACK. -/
  | acked {i : ℕ} {c : GapEntry} {endpoint : EndpointEntry} {n : ℕ}
      (hi : s.senders[i]? = some ⟨c, .awaiting endpoint n⟩)
      (hfl : s.flight h m = some ⟨c, .awaiting endpoint n⟩) :
      CopyMotion cfg s h m (.ack i) none none
  /-- The attempt is answered by a MISS. -/
  | missed {i : ℕ} {now : Time} {c : GapEntry} {endpoint : EndpointEntry} {n : ℕ}
      (hi : s.senders[i]? = some ⟨c, .awaiting endpoint n⟩)
      (hfl : s.flight h m = some ⟨c, .awaiting endpoint n⟩) :
      CopyMotion cfg s h m (.miss i now)
        ((s.tracker.gap h m).map (Tracker.advanceEntry cfg now true n)) none

section CopyMotion

variable {cfg : TrackerConfig} {s s' : System} {h m : UInt64}

/-- Only the `send` event of a sender sends. -/
theorem sendsTo_eq_none {ev : Event} (hev : s.sends ev = none) : s.sendsTo h m ev = none := by
  rw [sendsTo, hev, Option.bind_none]

/-- The datagram of a copy is a NACK for its gap and no other. -/
theorem sendsTo_of_sends {ev : Event} {endpoint : EndpointEntry} {e : GapEntry}
    (hev : s.sends ev = some (endpoint, Nack.ofGap e)) :
    s.sendsTo h m ev = if (h, m) = e.key then some endpoint else none := by
  rw [sendsTo, hev, Option.bind_some]
  refine if_congr ?_ rfl rfl
  rw [Prod.ext_iff]
  exact and_congr eq_comm eq_comm

theorem copyMotion_observe (a : Arrival) :
    CopyMotion cfg s h m (.observe a) ((s.tracker.observe cfg a).gap h m) (s.flight h m) := by
  cases he : (s.tracker.observe cfg a).gap h m with
  | none => exact .closed rfl
  | some e =>
      rcases Tracker.gap_observe he with he | ⟨hnone, hkey, rfl, fs, hfs, hskipped⟩
      · rw [← he]
        exact .rest rfl
      · exact .registered hnone hkey hfs hskipped

/-- A sweep that does not copy a gap drops it, leaves it alone or puts its next check off. -/
theorem copyMotion_uncopied {now : Time} {ord : Tracker.SweepOrder} {label : FlowLabel}
    {acc : List GapEntry × Recorder} :
    CopyMotion cfg s h m (.sweep now ord)
      ((s.tracker.gap h m).bind fun e => (Tracker.sweepGap cfg now label acc m e).2)
      (s.flight h m) := by
  cases he : s.tracker.gap h m with
  | none =>
      rw [Option.bind_none, ← he]
      exact .rest rfl
  | some e =>
      rw [Option.bind_some]
      have hcase := Tracker.sweepGap_case cfg now label acc m e
      generalize Tracker.sweepGap cfg now label acc m e = out at hcase
      cases hcase with
      | dropped _ => exact .closed rfl
      | waiting _ _ =>
          rw [← he]
          exact .rest rfl
      | deferred _ _ _ | enqueued _ _ _ => exact .deferred he

theorem copyMotion_sweep (hs : Lone h m s) (now : Time) (ord : Tracker.SweepOrder) :
    CopyMotion cfg s h m (.sweep now ord) ((s.tracker.sweepOnce cfg now ord).gap h m)
      ({ s with tracker := s.tracker.sweepOnce cfg now ord }.flight h m) := by
  obtain ⟨new, hqueue, hnd, hnew⟩ := Tracker.sweepOnce_nackQueue cfg hs.keyed now ord
  have hflight : { s with tracker := s.tracker.sweepOnce cfg now ord }.flight h m =
      (s.flight h m).or ((new.map (⟨·, .starting⟩)).byKey Sender.key (h, m)) := by
    rw [flight, flights_sweep hqueue, List.byKey_append]
    rfl
  obtain ⟨label, acc, hsweep⟩ := Tracker.gap_sweepOnce cfg s.tracker now ord h m
  rw [hflight]
  cases hfl : s.flight h m with
  | some x =>
      -- a copy is on the way and comes first
      rw [Option.some_or, ← hfl, hsweep]
      exact copyMotion_uncopied
  | none =>
      rw [Option.none_or]
      cases hc : (new.map (⟨·, .starting⟩)).byKey Sender.key (h, m) with
      | some x =>
          -- the sweeper has copied the entry
          obtain ⟨hx, hkey⟩ := List.mem_of_byKey hc
          obtain ⟨c, hc', rfl⟩ := List.mem_map.mp hx
          obtain ⟨rfl, rfl⟩ := Prod.mk.inj hkey
          obtain ⟨e, he, he', hst⟩ := hnew c hc'
          rw [he']
          exact .enqueued he hfl hst
      | none =>
          rw [hsweep, ← hfl]
          exact copyMotion_uncopied

/-- A sender that moves on is found in its new phase, every other copy as before. -/
theorem Lone.flight_of_set (hs : Lone h m s) {i : ℕ} {e : GapEntry} {p q : Phase}
    (hi : s.flights[i]? = some ⟨e, p⟩) (hfl : s'.flights = s.flights.set i ⟨e, q⟩) :
    ((h, m) = e.key ∧ s.flight h m = some ⟨e, p⟩ ∧ s'.flight h m = some ⟨e, q⟩) ∨
      ((h, m) ≠ e.key ∧ s'.flight h m = s.flight h m) := by
  have hset := List.byKey_set hs.once hi (y := ⟨e, q⟩) rfl
  rw [← hfl] at hset
  by_cases hkey : (h, m) = e.key
  · refine Or.inl ⟨hkey, ?_, hset.trans (if_pos hkey)⟩
    exact (List.byKey_eq_some hs.once).mpr ⟨List.mem_of_getElem? hi, hkey.symm⟩
  · exact Or.inr ⟨hkey, hset.trans (if_neg hkey)⟩

/-- A sender that returns is no longer found, every other copy as before. -/
theorem Lone.flight_of_eraseIdx (hs : Lone h m s) {i : ℕ} {x : Sender}
    (hi : s.flights[i]? = some x) (hfl : s'.flights = s.flights.eraseIdx i) :
    ((h = x.entry.hashKey ∧ m = x.entry.seqNum) ∧ s.flight h m = some x ∧
        s'.flight h m = none) ∨
      (¬ (h = x.entry.hashKey ∧ m = x.entry.seqNum) ∧ s'.flight h m = s.flight h m) := by
  have herase := List.byKey_eraseIdx hs.once hi
  rw [← hfl] at herase
  by_cases hkey : (h, m) = x.key
  · refine Or.inl ⟨Prod.mk.inj hkey, ?_, herase.trans (if_pos hkey)⟩
    exact (List.byKey_eq_some hs.once).mpr ⟨List.mem_of_getElem? hi, hkey.symm⟩
  · exact Or.inr ⟨fun heq => hkey (Prod.ext heq.1 heq.2), herase.trans (if_neg hkey)⟩

/-- A `select` that moves the pipeline is that of a sender which starts. -/
theorem sender_of_select {i : ℕ} {ord : RangeOrder UInt32} {sort : SliceSort EndpointEntry.less}
    {e : GapEntry} (hi : s.flights[i]? = some ⟨e, .starting⟩)
    (hmoved : (s.select i ord sort).flights ≠ s.flights) :
    s.senders[i]? = some ⟨e, .starting⟩ := by
  rw [select] at hmoved
  split at hmoved
  · rename_i e' hi'
    rw [hi', ← flights_getElem hi', hi]
  · exact absurd rfl hmoved

variable (cfg) in
/-- **The motion of one copy**, for every event. -/
theorem copyMotion (hs : Lone h m s) (ev : Event) :
    CopyMotion cfg s h m ev ((s.step cfg ev).tracker.gap h m) ((s.step cfg ev).flight h m) := by
  have hmove := step_motion cfg s ev
  generalize hstep : s.step cfg ev = s' at hmove
  -- a sender of another gap does nothing to this one
  have hrest : ∀ {ev}, s.sendsTo h m ev = none → s'.tracker.gap h m = s.tracker.gap h m →
      s'.flight h m = s.flight h m →
      CopyMotion cfg s h m ev (s'.tracker.gap h m) (s'.flight h m) := by
    intro ev hsend hgap hfl
    rw [hgap, hfl]
    exact .rest hsend
  cases hmove with
  | rest hgap hfl hsends =>
      exact hrest (sendsTo_eq_none hsends) (by rw [hgap]) (by rw [flight, flight, hfl])
  | observed a =>
      rw [flight, flights_observe]
      exact copyMotion_observe a
  | filled hk k =>
      rw [flight, flights_fill]
      cases he : (s.tracker.fill hk k).gap h m with
      | none => exact .closed rfl
      | some e =>
          rw [← Tracker.gap_of_fill he]
          exact .rest rfl
  | swept now ord => exact copyMotion_sweep hs now ord
  | @selected i ord sort e endpoint _ hi hsel hgap hfl =>
      rcases hs.flight_of_set hi hfl with ⟨-, hold, hnew⟩ | ⟨-, hsame⟩
      · have hmoved : (s.select i ord sort).flights ≠ s.flights := by
          intro hsame
          have hat := congrArg (fun l => l[i]?)
            (hfl.symm.trans ((congrArg flights hstep).symm.trans hsame))
          rw [List.getElem?_set_self (List.getElem?_eq_some_iff.mp hi).1, hi] at hat
          cases hat
        rw [hgap, hnew]
        exact .selected (sender_of_select hi hmoved) hold hsel
      · exact hrest rfl (by rw [hgap]) hsame
  | sent hi hsends hgap hfl =>
      rcases hs.flight_of_set hi hfl with ⟨hkey, hold, hnew⟩ | ⟨hkey, hsame⟩
      · rw [hgap, hnew]
        exact .sent hold ((sendsTo_of_sends hsends).trans (if_pos hkey))
      · exact hrest ((sendsTo_of_sends hsends).trans (if_neg hkey)) (by rw [hgap]) hsame
  | @dropped i ord sort e _ hi hsel hgap hfl =>
      rcases hs.flight_of_eraseIdx hi hfl with ⟨-, hold, hnew⟩ | ⟨-, hsame⟩
      · have hmoved : (s.select i ord sort).flights ≠ s.flights := by
          intro hsame
          have hlen := congrArg List.length
            (hfl.symm.trans ((congrArg flights hstep).symm.trans hsame))
          rw [List.length_eraseIdx_of_lt (List.getElem?_eq_some_iff.mp hi).1] at hlen
          have hlt := (List.getElem?_eq_some_iff.mp hi).1
          omega
        rw [hgap, hnew]
        exact .dropped (sender_of_select hi hmoved) hold hsel
      · exact hrest rfl (by rw [hgap]) hsame
  | failed hi hgap hfl =>
      rcases hs.flight_of_eraseIdx (flights_getElem hi) hfl with ⟨hkey, hold, hnew⟩ | ⟨hkey, hsame⟩
      · rw [hgap, hnew, Tracker.gap_advanceEndpoint, if_pos hkey]
        exact .failed hi hold
      · refine hrest rfl ?_ hsame
        rw [hgap, Tracker.gap_advanceEndpoint, if_neg hkey]
  | acked hi hgap hfl =>
      rcases hs.flight_of_eraseIdx (flights_getElem hi) hfl with ⟨hkey, hold, hnew⟩ | ⟨hkey, hsame⟩
      · rw [hgap, hnew, Tracker.cancelGap, Tracker.gap_closeGap, if_pos hkey]
        exact .acked hi hold
      · refine hrest rfl ?_ hsame
        rw [hgap, Tracker.cancelGap, Tracker.gap_closeGap, if_neg hkey]
  | missed hi hgap hfl =>
      rcases hs.flight_of_eraseIdx (flights_getElem hi) hfl with ⟨hkey, hold, hnew⟩ | ⟨hkey, hsame⟩
      · rw [hgap, hnew, Tracker.gap_advanceEndpoint, if_pos hkey]
        exact .missed hi hold
      · refine hrest rfl ?_ hsame
        rw [hgap, Tracker.gap_advanceEndpoint, if_neg hkey]

end CopyMotion

/-! ### The cycle of one gap -/

/-- **What a timely event does to one gap**: the effect on its entry and on its copy. -/
inductive GapMotion (cfg : TrackerConfig) (s : System) (h m : UInt64) :
    Event → Option GapEntry → Option Sender → Prop
  /-- Nothing. -/
  | rest {ev : Event} (hsend : s.sendsTo h m ev = none) :
      GapMotion cfg s h m ev (s.tracker.gap h m) (s.flight h m)
  /-- The gap is answered, dropped or given up. -/
  | closed {ev : Event} (hsend : s.sendsTo h m ev = none) :
      GapMotion cfg s h m ev none (s.flight h m)
  /-- The gap is registered. -/
  | registered {a : Arrival} (hgap : s.tracker.gap h m = none) (hfl : s.flight h m = none) :
      GapMotion cfg s h m (.observe a) (some (GapEntry.fresh cfg a m)) none
  /-- The sweeper sends a copy on its way. -/
  | enqueued {now : Time} {ord : Tracker.SweepOrder} {e c : GapEntry}
      (hgap : s.tracker.gap h m = some e) (hfl : s.flight h m = none)
      (hst : Tracker.Stamped cfg now e c) :
      GapMotion cfg s h m (.sweep now ord) (some c) (some ⟨c, .starting⟩)
  /-- The sweeper only writes `nextAttempt`. -/
  | deferred {now t : Time} {ord : Tracker.SweepOrder} {e : GapEntry}
      (hgap : s.tracker.gap h m = some e) (hfl : s.flight h m = none) :
      GapMotion cfg s h m (.sweep now ord) (some { e with nextAttempt := t }) none
  /-- The copy's sender chooses an endpoint. -/
  | selected {i : ℕ} {ord : RangeOrder UInt32} {sort : SliceSort EndpointEntry.less}
      {c : GapEntry} {endpoint : EndpointEntry} (hfl : s.flight h m = some ⟨c, .starting⟩)
      (hsel : selectEndpoint (s.registry.takeSnapshot ord sort).2 c = some endpoint) :
      GapMotion cfg s h m (.select i ord sort) (s.tracker.gap h m)
        (some ⟨c, .selected endpoint (s.registry.takeSnapshot ord sort).2.length⟩)
  /-- The copy's sender finds no endpoint. -/
  | dropped {i : ℕ} {ord : RangeOrder UInt32} {sort : SliceSort EndpointEntry.less}
      {c : GapEntry} (hfl : s.flight h m = some ⟨c, .starting⟩)
      (hsel : selectEndpoint (s.registry.takeSnapshot ord sort).2 c = none) :
      GapMotion cfg s h m (.select i ord sort) (s.tracker.gap h m) none
  /-- The copy's sender sends its datagram. -/
  | sent {i : ℕ} {c : GapEntry} {endpoint : EndpointEntry} {n : ℕ}
      (hfl : s.flight h m = some ⟨c, .selected endpoint n⟩)
      (hsend : s.sendsTo h m (.send i) = some endpoint) :
      GapMotion cfg s h m (.send i) (s.tracker.gap h m) (some ⟨c, .awaiting endpoint n⟩)
  /-- The attempt fails. -/
  | failed {i : ℕ} {now : Time} {x : Sender} (hi : s.senders[i]? = some x)
      (hfl : s.flight h m = some x) :
      GapMotion cfg s h m (.fail i now)
        ((s.tracker.gap h m).map (Tracker.advanceEntry cfg now false 0)) none
  /-- The attempt is answered by an ACK. -/
  | acked {i : ℕ} {c : GapEntry} {endpoint : EndpointEntry} {n : ℕ}
      (hi : s.senders[i]? = some ⟨c, .awaiting endpoint n⟩)
      (hfl : s.flight h m = some ⟨c, .awaiting endpoint n⟩) :
      GapMotion cfg s h m (.ack i) none none
  /-- The attempt is answered by a MISS. -/
  | missed {i : ℕ} {now : Time} {c : GapEntry} {endpoint : EndpointEntry} {n : ℕ}
      (hi : s.senders[i]? = some ⟨c, .awaiting endpoint n⟩)
      (hfl : s.flight h m = some ⟨c, .awaiting endpoint n⟩) :
      GapMotion cfg s h m (.miss i now)
        ((s.tracker.gap h m).map (Tracker.advanceEntry cfg now true n)) none

section GapMotion

variable {cfg : TrackerConfig} {s s' : System} {h m : UInt64}

/-- **What a timely event does to one gap.** -/
theorem gapMotion (hs : Single cfg h m s) {ev : Event} (hok : Timely cfg h m s ev) :
    GapMotion cfg s h m ev ((s.step cfg ev).tracker.gap h m) ((s.step cfg ev).flight h m) := by
  have hmove := copyMotion cfg hs.lone ev
  generalize hgap' : (s.step cfg ev).tracker.gap h m = entry at hmove
  generalize (s.step cfg ev).flight h m = copy at hmove
  cases hmove with
  | rest hsend => exact .rest hsend
  | closed hsend => exact .closed hsend
  | registered hgap hkey hfs hskipped =>
      have hfl : s.flight h m = none := by
        refine List.byKey_eq_none.mpr ?_
        intro x hx hxkey
        exact hok x.entry (List.mem_map_of_mem hx) hxkey hkey _ hfs hskipped
      rw [hfl]
      exact .registered hgap hfl
  | enqueued hgap hfl hst => exact .enqueued hgap hfl hst
  | deferred hgap =>
      cases hfl : s.flight h m with
      | none => exact .deferred hgap hfl
      | some x =>
          -- a copy is on the way: the entry stays
          obtain ⟨hx, hkey⟩ := List.mem_of_byKey hfl
          rw [← hs.gap_sweep hok hx hkey hgap', ← hfl]
          exact .rest rfl
  | selected hi hfl hsel => exact .selected hfl hsel
  | dropped hi hfl hsel => exact .dropped hfl hsel
  | sent hfl hsend => exact .sent hfl hsend
  | failed hi hfl => exact .failed hi hfl
  | acked hi hfl => exact .acked hi hfl
  | missed hi hfl => exact .missed hi hfl

end GapMotion

/-! ### Attempts -/

/-- The endpoints tried for a gap since it was registered last, given its entry before and
after an event and the endpoint the event sent to. -/
def noteAttempt (before after : Option GapEntry) (target : Option EndpointEntry)
    (tried : List EndpointEntry) : List EndpointEntry :=
  if before = none ∧ after ≠ none then [] else tried ++ target.toList

/-- The endpoints tried for the gap, along a schedule. -/
def followAttempts (cfg : TrackerConfig) (h m : UInt64) (s : System) (ev : Event)
    (tried : List EndpointEntry) : List EndpointEntry :=
  noteAttempt (s.tracker.gap h m) ((s.step cfg ev).tracker.gap h m) (s.sendsTo h m ev) tried

/-- The system after a schedule, with the endpoints tried for the gap. -/
def attemptsAfter (cfg : TrackerConfig) (r : Registry) (h m : UInt64) (es : List Event) :
    System × List EndpointEntry :=
  Machine.run (Machine.withGhost (step cfg) (followAttempts cfg h m)) (start r, []) es

/-- The attempts for a gap are covered by the retries of its entry, or of its copy on the
way. -/
structure Tally (cfg : TrackerConfig) (entry : Option GapEntry) (copy : Option Sender)
    (tried : List EndpointEntry) : Prop where
  bound : tried.length ≤ cfg.maxRetries.toNat
  pending : ∀ e, entry = some e → copy = none → tried.length ≤ e.retries
  flying : ∀ x, copy = some x → tried.length ≤ x.entry.retries + x.phase.sent

section Tally

variable {cfg : TrackerConfig} {s : System} {h m : UInt64} {tried : List EndpointEntry}

/-- A copy on the way has retries left. -/
theorem Single.retries_of_flight (hs : Single cfg h m s) {x : Sender}
    (hx : s.flight h m = some x) : x.entry.retries + 1 ≤ cfg.maxRetries.toNat := by
  obtain ⟨hmem, hkey⟩ := List.mem_of_byKey hx
  have hlt := hs.retries x hmem hkey
  omega

/-- The entry of a gap with a copy on the way is that copy. -/
theorem Single.entry_of_flight (hs : Single cfg h m s) {x : Sender}
    (hx : s.flight h m = some x) {e : GapEntry} (he : s.tracker.gap h m = some e) :
    e = x.entry := by
  obtain ⟨hmem, hkey⟩ := List.mem_of_byKey hx
  exact hs.entry x hmem hkey e he

/-- Nothing is noted when the gap is not registered and nothing is sent. -/
theorem noteAttempt_none {before after : Option GapEntry} (h : before = none → after = none) :
    noteAttempt before after none tried = tried := by
  rw [noteAttempt, if_neg fun hc => hc.2 (h hc.1), Option.toList_none, List.append_nil]

/-- Nothing is noted for a pending gap when nothing is sent. -/
theorem noteAttempt_pending {before after : Option GapEntry} {e : GapEntry}
    (h : before = some e) : noteAttempt before after none tried = tried :=
  noteAttempt_none fun hc => absurd (h.symm.trans hc) (Option.some_ne_none e)

/-- Nothing is noted when an entry is only changed. -/
theorem noteAttempt_map (before : Option GapEntry) (f : GapEntry → GapEntry) :
    noteAttempt before (before.map f) none tried = tried :=
  noteAttempt_none fun hc => by rw [hc, Option.map_none]

/-- A datagram sent for the gap is one more attempt. -/
theorem noteAttempt_sent (entry : Option GapEntry) (endpoint : EndpointEntry) :
    noteAttempt entry entry (some endpoint) tried = tried ++ [endpoint] := by
  rw [noteAttempt, if_neg fun hc => hc.2 hc.1]
  rfl

/-- Without a copy on the way, the entry alone covers the attempts. -/
theorem Tally.landed {entry : Option GapEntry} (hbound : tried.length ≤ cfg.maxRetries.toNat)
    (hentry : ∀ e, entry = some e → tried.length ≤ e.retries) : Tally cfg entry none tried :=
  ⟨hbound, fun e he _ => hentry e he, fun _ hx => nomatch hx⟩

/-- An attempt that comes back unanswered is one more retry of the entry. -/
theorem Tally.advanced (ht : Tally cfg (s.tracker.gap h m) (s.flight h m) tried)
    (hs : Single cfg h m s) {x : Sender} (hfl : s.flight h m = some x) (now : Time)
    (immediate : Bool) (n : ℕ) :
    Tally cfg ((s.tracker.gap h m).map (Tracker.advanceEntry cfg now immediate n)) none
      tried := by
  refine .landed ht.bound ?_
  intro e' he'
  obtain ⟨e, he, rfl⟩ := Option.map_eq_some_iff.mp he'
  have hex := hs.entry_of_flight hfl he
  have hle := ht.flying x hfl
  have hsent : x.phase.sent ≤ 1 := by cases x.phase <;> simp [Phase.sent]
  show tried.length ≤ e.retries + 1
  rw [hex]
  omega

/-- A copy that is sent has one retry more to account for than it carries. -/
theorem Tally.send {entry : Option GapEntry} {c : GapEntry} {endpoint : EndpointEntry} {n : ℕ}
    (ht : Tally cfg entry (some ⟨c, .selected endpoint n⟩) tried)
    (hlt : c.retries + 1 ≤ cfg.maxRetries.toNat) :
    Tally cfg entry (some ⟨c, .awaiting endpoint n⟩) (tried ++ [endpoint]) := by
  have hle : tried.length ≤ c.retries := ht.flying _ rfl
  have hlen : (tried ++ [endpoint]).length = tried.length + 1 := by simp
  refine ⟨by omega, fun _ _ hx => (nomatch hx), ?_⟩
  intro x hx
  obtain rfl := Option.some.inj hx
  show (tried ++ [endpoint]).length ≤ c.retries + 1
  omega

/-- **The step lemma**: a timely event keeps the tally. -/
theorem Tally.step (ht : Tally cfg (s.tracker.gap h m) (s.flight h m) tried)
    (hs : Single cfg h m s) {ev : Event} (hok : Timely cfg h m s ev) :
    Tally cfg ((s.step cfg ev).tracker.gap h m) ((s.step cfg ev).flight h m)
      (followAttempts cfg h m s ev tried) := by
  have hmove := gapMotion hs hok
  rw [followAttempts]
  generalize (s.step cfg ev).tracker.gap h m = entry at hmove
  generalize (s.step cfg ev).flight h m = copy at hmove
  cases hmove with
  | rest hsend =>
      rw [hsend, noteAttempt_none id]
      exact ht
  | closed hsend =>
      rw [hsend, noteAttempt_none fun _ => rfl]
      exact ⟨ht.bound, fun _ he => (nomatch he), ht.flying⟩
  | registered hgap hfl =>
      rw [noteAttempt, if_pos ⟨hgap, Option.some_ne_none _⟩]
      exact .landed (Nat.zero_le _) fun _ _ => Nat.zero_le _
  | @enqueued now ord e c hgap hfl hst =>
      rw [sendsTo_sweep, noteAttempt_pending hgap]
      refine ⟨ht.bound, fun _ _ hx => (nomatch hx), ?_⟩
      intro x hx
      obtain rfl := Option.some.inj hx
      obtain ⟨-, -, rfl⟩ := hst
      exact ht.pending e hgap hfl
  | @deferred now t ord e hgap hfl =>
      rw [sendsTo_sweep, noteAttempt_pending hgap]
      refine .landed ht.bound ?_
      intro e' he'
      obtain rfl := Option.some.inj he'
      exact ht.pending e hgap hfl
  | @selected i ord sort c endpoint hfl hsel =>
      rw [sendsTo_select, noteAttempt_none id]
      refine ⟨ht.bound, fun _ _ hx => (nomatch hx), ?_⟩
      intro x hx
      obtain rfl := Option.some.inj hx
      have hle := ht.flying ⟨c, .starting⟩ hfl
      exact hle
  | @dropped i ord sort c hfl hsel =>
      rw [sendsTo_select, noteAttempt_none id]
      refine .landed ht.bound ?_
      intro e he
      rw [hs.entry_of_flight hfl he]
      exact ht.flying _ hfl
  | @sent i c endpoint n hfl hsend =>
      rw [hsend, noteAttempt_sent]
      have hlt : c.retries + 1 ≤ cfg.maxRetries.toNat := hs.retries_of_flight hfl
      rw [hfl] at ht
      exact ht.send hlt
  | @failed i now x hi hfl =>
      rw [sendsTo_fail, noteAttempt_map]
      exact ht.advanced hs hfl now false 0
  | @acked i c endpoint n hi hfl =>
      rw [sendsTo_ack, noteAttempt_none fun _ => rfl]
      exact .landed ht.bound fun _ he => nomatch he
  | @missed i now c endpoint n hi hfl =>
      rw [sendsTo_miss, noteAttempt_map]
      exact ht.advanced hs hfl now true n

/-- The run lemma: the copy stays unique and the tally holds in every timely schedule. -/
theorem tally_after {r : Registry} {es : List Event}
    (hok : Machine.Guarded (step cfg) (Timely cfg h m) (start r) es) :
    Single cfg h m (after cfg r es) ∧
      Tally cfg ((after cfg r es).tracker.gap h m) ((after cfg r es).flight h m)
        (attemptsAfter cfg r h m es).2 := by
  have hfst : (attemptsAfter cfg r h m es).1 = after cfg r es := Machine.run_withGhost _ _ _
  rw [← hfst]
  refine Machine.guarded_invariant
    (P := fun p : System × List EndpointEntry =>
      Single cfg h m p.1 ∧ Tally cfg (p.1.tracker.gap h m) (p.1.flight h m) p.2) ?_ ?_
    ((Machine.guarded_withGhost (followAttempts cfg h m) [] es).mpr hok)
  · exact ⟨.start cfg h m r, Nat.zero_le _, fun _ he => (nomatch he), fun _ hx => nomatch hx⟩
  · rintro ⟨s, tried⟩ ev hev ⟨hs, ht⟩
    exact ⟨hs.step hev, ht.step hs hev⟩

end Tally

/-- **At most one NACK is outstanding for a gap** in every schedule whose steps are timely
for it: one copy at most is queued, held or being sent, and a registered gap causes at most
`MaxRetries` datagrams. -/
theorem one_nack_outstanding (cfg : TrackerConfig) (r : Registry) (es : List Event)
    (h m : UInt64) (hok : Machine.Guarded (step cfg) (Timely cfg h m) (start r) es) :
    (after cfg r es).copies.countKey GapEntry.key (h, m) ≤ 1 ∧
      (attemptsAfter cfg r h m es).2.length ≤ cfg.maxRetries.toNat := by
  obtain ⟨hs, ht⟩ := tally_after hok
  refine ⟨?_, ht.bound⟩
  rw [← countKey_flights]
  exact hs.once

/-! ### Schedules that are not timely -/

/-- One attempt for a gap, as configured. -/
def oneRetry : TrackerConfig := { Tracker.testConfig with maxRetries := 1 }

/-- The ADVERT of instance `id`, with the given tier and preference. -/
def advertOf (id : UInt32) (tier preference : UInt8) : Advert where
  scope := 0x05
  nackAddr := List.Vector.replicate 16 1
  nackPort := 9300
  tier := tier
  preference := preference
  beaconInterval := 60
  flags := 0
  instanceID := id

/-- The map orders of a sweep that visits everything as stored. -/
def storedOrder : Tracker.SweepOrder := ⟨.stored _, fun _ => .stored _⟩

/-- Frame 2 of flow 7 is missing, and the first copy of the gap waits for the dispatcher
longer than its stamp says: a second sweep enqueues the gap again. -/
def lateDispatch : List Event :=
  [.upsert 0 (advertOf 1 0 0), .observe (Tracker.arrivalAt 7 1 0),
   .observe (Tracker.arrivalAt 7 3 0), .sweep (1 * second) storedOrder,
   .sweep (2 * second) storedOrder]

/-- Both copies are dispatched and sent. -/
def sendBoth : List Event :=
  [.receive, .launch, .receive, .launch, .select 0 (.stored _) EndpointEntry.sort,
   .select 1 (.stored _) EndpointEntry.sort, .send 0, .send 1]

/-- **Two NACKs outstanding.** The gap is pending with two copies on the way, and with one
retry allowed it causes two datagrams. -/
theorem two_nacks_outstanding :
    ((after oneRetry Registry.new lateDispatch).tracker.gap 7 2).isSome ∧
      (after oneRetry Registry.new lateDispatch).copies.countKey GapEntry.key (7, 2) = 2 ∧
      oneRetry.maxRetries = 1 ∧
      (attemptsAfter oneRetry Registry.new 7 2 (lateDispatch ++ sendBoth)).2.length = 2 := by
  decide

/-- The condition holds of a schedule in which the copy is done before the next sweep: one
attempt, answered by a MISS. -/
theorem one_nack_outstanding_answered :
    (attemptsAfter oneRetry Registry.new 7 2
      [.upsert 0 (advertOf 1 0 0), .observe (Tracker.arrivalAt 7 1 0),
       .observe (Tracker.arrivalAt 7 3 0), .sweep (1 * second) storedOrder, .receive, .launch,
       .select 0 (.stored _) EndpointEntry.sort, .send 0, .miss 0 (1 * second),
       .sweep (2 * second) storedOrder]).2.length ≤ 1 := by
  refine (one_nack_outstanding oneRetry Registry.new _ 7 2 ?_).2
  decide

end System

end ShardListener
