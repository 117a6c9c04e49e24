import ShardListener.Outstanding

/-!
# Responses and Registrations

A `sendNACK` works on a copy of the gap's entry and finds the entry again by its key when
the response arrives. A gap may have been closed in the meantime and registered anew, for
instance by a proxy restart, and the response is then booked on the new registration.

The registrations of one gap are numbered along a schedule, and each copy on the way carries
the number of the registration it was enqueued in (`Registrations`). They are history
variables: the code has neither.

## Main results

* `completion_spares_iff`: a completion leaves a later registration of its gap alone exactly
  when there is none at that moment; and it always does when no arrival registers the gap
  anew while a copy of it is on the way (`NotAnew`).
* `restart_ack_cancels`: a schedule in which the completions of an old registration cancel
  and advance the new one.
-/

namespace ShardListener

/-- The registrations of a gap: how many there have been, and for each copy on the way the
number of the one it was enqueued in. The numbers of other gaps' copies have no meaning. -/
structure Registrations where
  current : ℕ
  sentFor : List ℕ

namespace System

/-- The `sendNACK` at position `i`, working on the copy `c`, completes. -/
inductive Completes (s : System) : Event → ℕ → GapEntry → Prop
  /-- No datagram could be sent. -/
  | unsent {i : ℕ} {now : Time} {c : GapEntry} {endpoint : EndpointEntry} {n : ℕ}
      (hi : s.senders[i]? = some ⟨c, .selected endpoint n⟩) : Completes s (.fail i now) i c
  /-- No valid response in time. -/
  | unanswered {i : ℕ} {now : Time} {c : GapEntry} {endpoint : EndpointEntry} {n : ℕ}
      (hi : s.senders[i]? = some ⟨c, .awaiting endpoint n⟩) : Completes s (.fail i now) i c
  /-- An ACK. -/
  | acked {i : ℕ} {c : GapEntry} {endpoint : EndpointEntry} {n : ℕ}
      (hi : s.senders[i]? = some ⟨c, .awaiting endpoint n⟩) : Completes s (.ack i) i c
  /-- A MISS. -/
  | missed {i : ℕ} {now : Time} {c : GapEntry} {endpoint : EndpointEntry} {n : ℕ}
      (hi : s.senders[i]? = some ⟨c, .awaiting endpoint n⟩) : Completes s (.miss i now) i c

/-- The numbers of the copies after an event that changed how many there are: a sweep adds
copies of the current registration, and a sender that returns takes its own along. -/
def noteCopies (ev : Event) (before after current : ℕ) (sentFor : List ℕ) : List ℕ :=
  match ev with
  | .sweep _ _ => sentFor ++ List.replicate (after - before) current
  | .select i _ _ | .fail i _ | .ack i | .miss i _ =>
      if after < before then sentFor.eraseIdx i else sentFor
  | _ => sentFor

/-- The registrations of the gap, along a schedule. -/
def followRegistrations (cfg : TrackerConfig) (h m : UInt64) (s : System) (ev : Event)
    (reg : Registrations) : Registrations where
  current :=
    if s.tracker.gap h m = none ∧ (s.step cfg ev).tracker.gap h m ≠ none then reg.current + 1
    else reg.current
  sentFor := noteCopies ev s.copies.length (s.step cfg ev).copies.length reg.current reg.sentFor

/-- The system after a schedule, with the registrations of the gap. -/
def registrationsAfter (cfg : TrackerConfig) (r : Registry) (h m : UInt64) (es : List Event) :
    System × Registrations :=
  Machine.run (Machine.withGhost (step cfg) (followRegistrations cfg h m)) (start r, ⟨0, []⟩) es

/-- **The condition on schedules**, for one gap: no arrival registers it anew while a copy of
it is on the way. -/
def NotAnew (h m : UInt64) (s : System) : Event → Prop
  | .observe a => ∀ c ∈ s.copies, c.key = (h, m) → h = a.hashKey →
      ∀ fs ∈ s.tracker.flows.lookup h, ¬ (fs.lastSeqNum < m ∧ m < a.seqNum)
  | _ => True

instance (h m : UInt64) (s : System) : ∀ ev, Decidable (NotAnew h m s ev)
  | .observe a => inferInstanceAs (Decidable (∀ c ∈ s.copies, c.key = (h, m) → h = a.hashKey →
      ∀ fs ∈ s.tracker.flows.lookup h, ¬ (fs.lastSeqNum < m ∧ m < a.seqNum)))
  | .sweep _ _ | .fill _ _ | .receive | .launch | .select _ _ _ | .send _ | .fail _ _ | .ack _
  | .miss _ _ | .upsert _ _ | .evict _ _ => isTrue trivial

/-- A completion for registration `g` of a gap spares registration `current`, if that is a
later one: the entry is still there with the retry state it had. -/
def Spares (g current : ℕ) (before after : Option GapEntry) : Prop :=
  g < current → ∀ e, before = some e → ∃ e', after = some e' ∧ e'.retries = e.retries ∧
    e'.endpointIdx = e.endpointIdx ∧ e'.nextAttempt = e.nextAttempt

/-! ### What an event does to the copies and to the gap -/

section Steps

variable {cfg : TrackerConfig} {h m : UInt64} {s : System}

/-- If there are as many copies as before, none is noted. -/
theorem noteCopies_self (ev : Event) (n current : ℕ) (sentFor : List ℕ) :
    noteCopies ev n n current sentFor = sentFor := by
  cases ev <;> simp [noteCopies]

variable (cfg h m) in
/-- The copies and their numbers stay, lose the same position, or are extended. -/
theorem sentFor_step (hkey : s.tracker.Keyed) (reg : Registrations) (ev : Event) :
    ((s.step cfg ev).copies = s.copies ∧
      (followRegistrations cfg h m s ev reg).sentFor = reg.sentFor) ∨
    (∃ i, (s.step cfg ev).copies = s.copies.eraseIdx i ∧ i < s.copies.length ∧
      (followRegistrations cfg h m s ev reg).sentFor = reg.sentFor.eraseIdx i) ∨
    ∃ new, (s.step cfg ev).copies = s.copies ++ new ∧
      (followRegistrations cfg h m s ev reg).sentFor =
        reg.sentFor ++ List.replicate new.length reg.current := by
  simp only [followRegistrations]
  have hmove := step_motion cfg s ev
  generalize s.step cfg ev = s' at hmove
  -- nothing to note when the copies are the same
  have hsame : ∀ {ev}, s'.copies = s.copies → s'.copies = s.copies ∧
      noteCopies ev s.copies.length s'.copies.length reg.current reg.sentFor = reg.sentFor := by
    intro ev hcopies
    exact ⟨hcopies, by rw [hcopies, noteCopies_self]⟩
  -- a sender that returns leaves one copy fewer
  have hgone : ∀ {i : ℕ} {x : Sender}, s.flights[i]? = some x →
      s'.flights = s.flights.eraseIdx i →
      s'.copies = s.copies.eraseIdx i ∧ i < s.copies.length ∧
        s'.copies.length < s.copies.length := by
    intro i x hi hfl
    have hlt : i < s.copies.length := by
      rw [copies, List.length_map]
      exact (List.getElem?_eq_some_iff.mp hi).1
    have hcopies : s'.copies = s.copies.eraseIdx i := by
      rw [copies, copies, hfl, List.eraseIdx_map]
    refine ⟨hcopies, hlt, ?_⟩
    rw [hcopies, List.length_eraseIdx_of_lt hlt]
    omega
  cases hmove with
  | rest _ hfl _ => exact .inl (hsame (by rw [copies, copies, hfl]))
  | observed a => exact .inl (hsame (by rw [copies, copies, flights_observe]))
  | filled hk k => exact .inl (hsame (by rw [copies, copies, flights_fill]))
  | selected hi _ _ hfl | sent hi _ _ hfl => exact .inl (hsame (copies_of_set hi hfl))
  | swept now ord =>
      obtain ⟨new, hqueue, -, -⟩ := Tracker.sweepOnce_nackQueue cfg hkey now ord
      have hcopies : { s with tracker := s.tracker.sweepOnce cfg now ord }.copies =
          s.copies ++ new := by
        rw [copies, flights_sweep hqueue, List.map_append, List.map_map]
        exact congrArg (s.copies ++ ·) (List.map_id new)
      refine .inr (.inr ⟨new, hcopies, ?_⟩)
      rw [hcopies, noteCopies, List.length_append, Nat.add_sub_cancel_left]
  | @dropped i ord sort e s' hi _ _ hfl =>
      obtain ⟨hcopies, hlt, hless⟩ := hgone hi hfl
      exact .inr (.inl ⟨i, hcopies, hlt, if_pos hless⟩)
  | @failed i now x s' hi _ hfl =>
      obtain ⟨hcopies, hlt, hless⟩ := hgone (flights_getElem hi) hfl
      exact .inr (.inl ⟨i, hcopies, hlt, if_pos hless⟩)
  | @acked i e endpoint n s' hi _ hfl =>
      obtain ⟨hcopies, hlt, hless⟩ := hgone (flights_getElem hi) hfl
      exact .inr (.inl ⟨i, hcopies, hlt, if_pos hless⟩)
  | @missed i now e endpoint n s' hi _ hfl =>
      obtain ⟨hcopies, hlt, hless⟩ := hgone (flights_getElem hi) hfl
      exact .inr (.inl ⟨i, hcopies, hlt, if_pos hless⟩)

/-- Only an arrival that jumps over a gap registers it. -/
theorem registers_of_gap_step {ev : Event} (hnone : s.tracker.gap h m = none) {e : GapEntry}
    (he : (s.step cfg ev).tracker.gap h m = some e) :
    ∃ a, ev = .observe a ∧ h = a.hashKey ∧
      ∃ fs, s.tracker.flows.lookup h = some fs ∧ fs.lastSeqNum < m ∧ m < a.seqNum := by
  have hmove := step_motion cfg s ev
  generalize s.step cfg ev = s' at he hmove
  -- a gap that is not pending stays so under every other call
  have hadvance : ∀ now c imm n,
      (s.tracker.advanceEndpoint cfg now c imm n).gap h m ≠ some e := by
    intro now c imm n hc
    rw [Tracker.gap_advanceEndpoint, hnone, Option.map_none, ite_self] at hc
    cases hc
  cases hmove with
  | rest hgap _ _ | selected _ _ hgap _ | sent _ _ hgap _ | dropped _ _ hgap _ =>
      rw [hgap, hnone] at he
      cases he
  | observed a =>
      rcases Tracker.gap_observe he with he | ⟨-, hh, -, hfs⟩
      · rw [hnone] at he
        cases he
      · exact ⟨a, rfl, hh, hfs⟩
  | filled hk k =>
      rw [Tracker.gap_of_fill he] at hnone
      cases hnone
  | swept now ord =>
      obtain ⟨label, acc, hsweep⟩ := Tracker.gap_sweepOnce cfg s.tracker now ord h m
      rw [hsweep, hnone] at he
      cases he
  | failed _ hgap _ | missed _ hgap _ => exact absurd (hgap ▸ he) (hadvance _ _ _ _)
  | acked _ hgap _ =>
      rw [hgap, Tracker.cancelGap, Tracker.gap_closeGap, hnone, ite_self] at he
      cases he

variable (cfg) in
/-- What a completion does to its gap: an ACK closes it, everything else advances it. -/
theorem gap_of_completes {ev : Event} {i : ℕ} {c : GapEntry} (hdone : Completes s ev i c)
    (hkey : c.key = (h, m)) :
    (s.step cfg ev).tracker.gap h m = none ∨ ∃ now imm n, (s.step cfg ev).tracker.gap h m =
      (s.tracker.gap h m).map (Tracker.advanceEntry cfg now imm n) := by
  obtain ⟨rfl, rfl⟩ := Prod.mk.inj hkey
  cases hdone with
  | @unsent _ now _ _ _ hi | @unanswered _ now _ _ _ hi =>
      refine .inr ⟨now, false, 0, ?_⟩
      simp only [step, fail, hi, finish]
      rw [Tracker.gap_advanceEndpoint, if_pos ⟨rfl, rfl⟩]
  | acked hi =>
      refine .inl ?_
      simp only [step, ack, hi, finish]
      rw [Tracker.cancelGap, Tracker.gap_closeGap, if_pos ⟨rfl, rfl⟩]
  | @missed _ now _ _ n hi =>
      refine .inr ⟨now, true, n, ?_⟩
      simp only [step, miss, hi, finish]
      rw [Tracker.gap_advanceEndpoint, if_pos ⟨rfl, rfl⟩]

/-- The copy of a completion, by its position. -/
theorem copies_of_completes {ev : Event} {i : ℕ} {c : GapEntry} (hdone : Completes s ev i c) :
    s.copies[i]? = some c := by
  have hsender : ∃ p, s.senders[i]? = some ⟨c, p⟩ := by
    cases hdone with
    | unsent hi | unanswered hi | acked hi | missed hi => exact ⟨_, hi⟩
  obtain ⟨p, hi⟩ := hsender
  rw [copies, List.getElem?_map, flights_getElem hi]
  rfl

end Steps

/-! ### The numbers along a schedule -/

/-- Each copy on the way has a number, of a registration that has been made. -/
structure Numbered (s : System) (reg : Registrations) : Prop where
  keyed : s.tracker.Keyed
  length : reg.sentFor.length = s.copies.length
  le : ∀ g ∈ reg.sentFor, g ≤ reg.current

/-- While the gap is pending, its copies are those of the current registration. -/
def UpToDate (h m : UInt64) (s : System) (reg : Registrations) : Prop :=
  (s.tracker.gap h m).isSome → ∀ (j : ℕ) (c : GapEntry), s.copies[j]? = some c →
    c.key = (h, m) → reg.sentFor[j]? = some reg.current

section Numbers

variable {cfg : TrackerConfig} {h m : UInt64} {s : System} {reg : Registrations}

variable (cfg h m s reg) in
/-- Registrations are numbered upwards. -/
theorem current_le_follow (ev : Event) :
    reg.current ≤ (followRegistrations cfg h m s ev reg).current := by
  simp only [followRegistrations]
  split <;> omega

/-- A gap that was pending before is in the same registration. -/
theorem current_follow (ev : Event) (hgap : s.tracker.gap h m ≠ none) :
    (followRegistrations cfg h m s ev reg).current = reg.current :=
  if_neg fun hc => hgap hc.1

/-- **The step lemma**: every copy has a number that was given out. -/
theorem Numbered.step (hn : Numbered s reg) (ev : Event) :
    Numbered (s.step cfg ev) (followRegistrations cfg h m s ev reg) := by
  have hcur := current_le_follow cfg h m s reg ev
  have hold : ∀ g ∈ reg.sentFor, g ≤ (followRegistrations cfg h m s ev reg).current :=
    fun g hg => (hn.le g hg).trans hcur
  have hkeyed := keyed_step cfg hn.keyed ev
  rcases sentFor_step cfg h m hn.keyed reg ev with
    ⟨hcopies, hsent⟩ | ⟨i, hcopies, -, hsent⟩ | ⟨new, hcopies, hsent⟩
  · refine ⟨hkeyed, by rw [hcopies, hsent, hn.length], fun g hg => hold g (hsent ▸ hg)⟩
  · refine ⟨hkeyed, ?_, fun g hg => hold g (List.mem_of_mem_eraseIdx (hsent ▸ hg))⟩
    rw [hcopies, hsent, List.length_eraseIdx, List.length_eraseIdx, hn.length]
  · refine ⟨hkeyed, ?_, fun g hg => ?_⟩
    · rw [hcopies, hsent, List.length_append, List.length_append, List.length_replicate,
        hn.length]
    · rw [hsent] at hg
      rcases List.mem_append.mp hg with hg | hg
      · exact hold g hg
      · exact (List.eq_of_mem_replicate hg).le.trans hcur

/-- **The step lemma**: an event that does not register the gap anew, while a copy of it is
on the way, keeps its copies up to date. -/
theorem UpToDate.step (hu : UpToDate h m s reg) (hn : Numbered s reg) {ev : Event}
    (hok : NotAnew h m s ev) :
    UpToDate h m (s.step cfg ev) (followRegistrations cfg h m s ev reg) := by
  intro hpending j c hj hkey
  obtain ⟨e, he⟩ := Option.isSome_iff_exists.mp hpending
  have hcopies := sentFor_step cfg h m hn.keyed reg ev
  cases hgap : s.tracker.gap h m with
  | none =>
      -- the gap has just been registered, and then it has no copy
      obtain ⟨a, rfl, hh, fs, hfs, hlt⟩ := registers_of_gap_step hgap he
      have hsame : (s.step cfg (.observe a)).copies = s.copies := by
        rw [copies, copies, System.step, flights_observe]
      rw [hsame] at hj
      exact absurd hlt (hok c (List.mem_of_getElem? hj) hkey hh fs hfs)
  | some e₀ =>
      rw [current_follow ev (by rw [hgap]; exact Option.some_ne_none _)]
      have hold := hu (by rw [hgap]; rfl)
      rcases hcopies with ⟨hcopies, hsent⟩ | ⟨i, hcopies, -, hsent⟩ | ⟨new, hcopies, hsent⟩
      · rw [hsent]
        exact hold j c (hcopies ▸ hj) hkey
      · rw [hcopies, List.getElem?_eraseIdx] at hj
        rw [hsent, List.getElem?_eraseIdx]
        split at hj
        · rename_i hji
          rw [if_pos hji]
          exact hold j c hj hkey
        · rename_i hji
          rw [if_neg hji]
          exact hold (j + 1) c hj hkey
      · rw [hcopies, List.getElem?_append] at hj
        rw [hsent, List.getElem?_append, hn.length]
        split at hj
        · rename_i hlt
          rw [if_pos hlt]
          exact hold j c hj hkey
        · rename_i hge
          rw [if_neg hge, List.getElem?_replicate]
          have hlt := (List.getElem?_eq_some_iff.mp hj).1
          exact if_pos hlt

/-- The numbers are carried along and change nothing. -/
theorem registrationsAfter_fst (cfg : TrackerConfig) (r : Registry) (h m : UInt64)
    (es : List Event) : (registrationsAfter cfg r h m es).1 = after cfg r es :=
  Machine.run_withGhost _ _ _

/-- **The run lemma.** -/
theorem numbered_after (cfg : TrackerConfig) (r : Registry) (h m : UInt64) (es : List Event) :
    Numbered (after cfg r es) (registrationsAfter cfg r h m es).2 := by
  rw [← registrationsAfter_fst cfg r h m]
  refine Machine.run_invariant (P := fun p : System × Registrations => Numbered p.1 p.2) ?_ ?_ es
  · exact ⟨fun _ _ _ h => (nomatch h), rfl, fun _ hg => nomatch hg⟩
  · rintro ⟨s, reg⟩ ev hn
    exact hn.step ev

/-- The run lemma: the copies of the gap stay up to date when it is not registered anew
behind their back. -/
theorem upToDate_after {r : Registry} {es : List Event}
    (hok : Machine.Guarded (step cfg) (NotAnew h m) (start r) es) :
    UpToDate h m (after cfg r es) (registrationsAfter cfg r h m es).2 := by
  rw [← registrationsAfter_fst cfg r h m]
  refine (Machine.guarded_invariant
    (P := fun p : System × Registrations => Numbered p.1 p.2 ∧ UpToDate h m p.1 p.2) ?_ ?_
    ((Machine.guarded_withGhost (followRegistrations cfg h m) ⟨0, []⟩ es).mpr hok)).2
  · exact ⟨⟨fun _ _ _ h => (nomatch h), rfl, fun _ hg => (nomatch hg)⟩, fun h => nomatch h⟩
  · rintro ⟨s, reg⟩ ev hev ⟨hn, hu⟩
    exact ⟨hn.step ev, hu.step hn hev⟩

end Numbers

/-- **Which responses affect only the registration they were sent for.** In every schedule, a
completion of a NACK for registration `g` of a gap spares a later registration exactly when
the gap is not pending or still in registration `g`. When no arrival of the schedule has
registered the gap anew with a copy of it on the way, every completion does. -/
theorem completion_spares_iff (cfg : TrackerConfig) (r : Registry) (es : List Event)
    (h m : UInt64) {ev : Event} {i : ℕ} {c : GapEntry}
    (hdone : Completes (after cfg r es) ev i c) (hkey : c.key = (h, m)) :
    let before := (after cfg r es).tracker.gap h m
    let result := ((after cfg r es).step cfg ev).tracker.gap h m
    let reg := (registrationsAfter cfg r h m es).2
    ∃ g, reg.sentFor[i]? = some g ∧ g ≤ reg.current ∧
      (Spares g reg.current before result ↔ (before.isSome → g = reg.current)) ∧
      (Machine.Guarded (step cfg) (NotAnew h m) (start r) es →
        Spares g reg.current before result) := by
  intro before result reg
  have hn := numbered_after cfg r h m es
  have hcopy := copies_of_completes hdone
  have hlt : i < reg.sentFor.length := by
    rw [hn.length]
    exact (List.getElem?_eq_some_iff.mp hcopy).1
  have hg : reg.sentFor[i]? = some reg.sentFor[i] := List.getElem?_eq_getElem hlt
  have hle : reg.sentFor[i] ≤ reg.current := hn.le _ (List.getElem_mem hlt)
  have hiff : Spares reg.sentFor[i] reg.current before result ↔
      (before.isSome → reg.sentFor[i] = reg.current) := by
    constructor
    · intro hspares hpending
      obtain ⟨e, he⟩ := Option.isSome_iff_exists.mp hpending
      by_contra hne
      -- the completion removes the entry or counts one more retry
      obtain ⟨e', he', hretries, -⟩ := hspares (lt_of_le_of_ne hle hne) e he
      rcases gap_of_completes cfg hdone hkey with hgone | ⟨now, imm, n, hadv⟩
      · exact nomatch hgone.symm.trans he'
      · have hentry : some (Tracker.advanceEntry cfg now imm n e) = some e' := by
          rw [← he', ← Option.map_some, ← he]
          exact hadv.symm
        rw [← Option.some.inj hentry] at hretries
        exact absurd hretries (Nat.succ_ne_self e.retries)
    · intro hcurrent hearlier e he
      exact absurd (hcurrent (by rw [he]; rfl)) hearlier.ne
  refine ⟨reg.sentFor[i], hg, hle, hiff, fun hok => hiff.mpr fun hpending => ?_⟩
  exact Option.some.inj (hg.symm.trans (upToDate_after hok hpending i c hcopy hkey))

/-! ### A restart with a NACK on the way -/

/-- Frame 101 of flow 7 is missing and its NACK is sent. -/
def nackSent : List Event :=
  [.upsert 0 (advertOf 1 0 0), .observe (Tracker.arrivalAt 7 100 0),
   .observe (Tracker.arrivalAt 7 102 0), .sweep (1 * second) storedOrder, .receive, .launch,
   .select 0 (.stored _) EndpointEntry.sort, .send 0]

/-- The copy the NACK is sent for. -/
def nackSentCopy : GapEntry :=
  { GapEntry.fresh Tracker.testConfig (Tracker.arrivalAt 7 102 0) 101 with
    nextAttempt := Tracker.stamp (1 * second) }

/-- The endpoint it is sent to. -/
def nackSentEndpoint : EndpointEntry where
  addr := .advertised (List.Vector.replicate 16 1) 9300
  tier := 0
  preference := 0
  flags := 0
  expires := 180 * second
  instanceID := 1
  supportsUnicast := false

/-- Frame 100 arrives again, which the tracker takes for a proxy restart, and frame 102
registers gap 101 anew. -/
def restartWithNack : List Event :=
  nackSent ++ [.observe (Tracker.arrivalAt 7 100 (1 * second)),
    .observe (Tracker.arrivalAt 7 102 (1 * second))]

/-- **A response to the old NACK is booked on the new gap**: the NACK was sent for the first
registration, the gap is pending in its second, an ACK removes it, and a MISS or a timeout
uses up a retry and moves it to the next endpoint. -/
theorem restart_ack_cancels :
    let s := after Tracker.testConfig Registry.new restartWithNack
    let reg := (registrationsAfter Tracker.testConfig Registry.new 7 101 restartWithNack).2
    reg.sentFor = [1] ∧ reg.current = 2 ∧
      (s.tracker.gap 7 101).map (fun e => (e.retries, e.endpointIdx)) = some (0, 0) ∧
      (s.step Tracker.testConfig (.ack 0)).tracker.gap 7 101 = none ∧
      ((s.step Tracker.testConfig (.miss 0 (1 * second))).tracker.gap 7 101).map
        (fun e => (e.retries, e.endpointIdx)) = some (1, 1) ∧
      ((s.step Tracker.testConfig (.fail 0 (1 * second))).tracker.gap 7 101).map
        (fun e => (e.retries, e.endpointIdx)) = some (1, 1) := by
  decide

/-- The acknowledgement of the only copy completes it. -/
theorem completes_nackSent :
    Completes (after Tracker.testConfig Registry.new nackSent) (.ack 0) 0 nackSentCopy :=
  @Completes.acked _ 0 nackSentCopy nackSentEndpoint 1 (by decide)

/-- Without the restart the ACK meets the registration its NACK was sent for. -/
theorem completion_spares_iff_nackSent :
    Machine.Guarded (step Tracker.testConfig) (NotAnew 7 101) (start Registry.new) nackSent ∧
      ∃ g, (registrationsAfter Tracker.testConfig Registry.new 7 101 nackSent).2.sentFor[0]? =
          some g ∧
        Spares g (registrationsAfter Tracker.testConfig Registry.new 7 101 nackSent).2.current
          ((after Tracker.testConfig Registry.new nackSent).tracker.gap 7 101)
          (((after Tracker.testConfig Registry.new nackSent).step Tracker.testConfig
            (.ack 0)).tracker.gap 7 101) := by
  have hok : Machine.Guarded (step Tracker.testConfig) (NotAnew 7 101) (start Registry.new)
      nackSent := by decide
  obtain ⟨g, hg, -, -, hspares⟩ := completion_spares_iff Tracker.testConfig Registry.new
    nackSent 7 101 completes_nackSent rfl
  exact ⟨hok, g, hg, hspares hok⟩

end System

end ShardListener
