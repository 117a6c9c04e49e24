import ShardListener.Dispatch
import ShardListener.Snapshots

/-!
# What Is Requested, and from Whom

Every NACK that goes out, traced back. The number it asks for was skipped: some frame of the
flow was below it, a later one jumped over it, and between the two no frame had it. The
endpoint it goes to is the one that its sender chose when it took its snapshot.

Both are invariants over schedules. A copy on the way comes from a pending gap
(`mem_copies_step`), a gap from an arrival that jumped (`Tracker.gap_observe`), and what it
jumped from is the last number of the flow, which some arrival had before (`Reached`). A sender
moves up among the running ones as others return (`position`), so it can be followed back to its
choice.

## Main results

* `System.Traced.step`: an event keeps the trace of every flow, gap and copy.
* `System.skips_of_sends`: what a NACK asks for was skipped.
* `System.selected_step`: a sender with an endpoint has chosen it, now or before.
-/

namespace ShardListener

/-- The arrival an event reports. -/
def Event.arrival? : Event → Option Arrival
  | .observe a => some a
  | _ => none

/-- The frames a schedule reports to the tracker. -/
def arrivalsOf (es : List Event) : List Arrival := es.filterMap Event.arrival?

/-- The flow `h` has come to the number `n`: an arrival had it, and none after it was higher. -/
def Reached (as : List Arrival) (h n : UInt64) : Prop :=
  ∃ as₁ b as₂, as = as₁ ++ b :: as₂ ∧ b.hashKey = h ∧ b.seqNum = n ∧ n ≠ 0 ∧
    ∀ c ∈ as₂, c.hashKey = h → c.seqNum ≤ n

/-- The number of the gap `e` was skipped: a frame of the flow was below it, the next one above
that was `a`, which jumped over it and gave the gap its group and subtree. -/
def Skips (as : List Arrival) (e : GapEntry) : Prop :=
  ∃ as₁ b as₂ a as₃, as = as₁ ++ b :: (as₂ ++ a :: as₃) ∧
    b.hashKey = e.hashKey ∧ a.hashKey = e.hashKey ∧
    b.seqNum ≠ 0 ∧ b.seqNum < e.seqNum ∧ e.seqNum < a.seqNum ∧
    e.groupIdx = a.groupIdx ∧ e.subtreeID = a.subtreeID ∧
    ∀ c ∈ as₂, c.hashKey = e.hashKey → c.seqNum ≤ b.seqNum

section History

variable {as bs : List Arrival} {h n : UInt64} {e e' : GapEntry}

/-- What was skipped stays skipped, whatever arrives later. -/
theorem Skips.append (hs : Skips as e) (bs : List Arrival) : Skips (as ++ bs) e := by
  obtain ⟨as₁, b, as₂, a, as₃, rfl, hrest⟩ := hs
  exact ⟨as₁, b, as₂, a, as₃ ++ bs, by simp, hrest⟩

/-- The retry state of a gap does not matter. -/
theorem Skips.congr (hs : Skips as e) (hsame : e.SameGap e') : Skips as e' := by
  obtain ⟨as₁, b, as₂, a, as₃, rfl, hb, ha, hz, hlo, hhi, hgroup, hsubtree, hbetween⟩ := hs
  refine ⟨as₁, b, as₂, a, as₃, rfl, ?_, ?_, hz, ?_, ?_, ?_, ?_, ?_⟩
  · rw [hsame.hashKey, hb]
  · rw [hsame.hashKey, ha]
  · rwa [hsame.seqNum]
  · rwa [hsame.seqNum]
  · rw [hsame.groupIdx, hgroup]
  · rw [hsame.subtreeID, hsubtree]
  · rwa [hsame.hashKey]

/-- A flow stays where it is while nothing higher arrives. -/
theorem Reached.append (hr : Reached as h n)
    (hbs : ∀ c ∈ bs, c.hashKey = h → c.seqNum ≤ n) : Reached (as ++ bs) h n := by
  obtain ⟨as₁, b, as₂, rfl, hb, hn, hz, hafter⟩ := hr
  refine ⟨as₁, b, as₂ ++ bs, by simp, hb, hn, hz, ?_⟩
  intro c hc
  rcases List.mem_append.mp hc with hc | hc
  · exact hafter c hc
  · exact hbs c hc

/-- An arrival brings its flow to its number. -/
theorem Reached.arrival (as : List Arrival) {a : Arrival} (hz : a.seqNum ≠ 0) :
    Reached (as ++ [a]) a.hashKey a.seqNum :=
  ⟨as, a, [], rfl, rfl, rfl, hz, by simp⟩

/-- An arrival that jumps over a number skips it. -/
theorem Reached.skips (hr : Reached as h n) (cfg : TrackerConfig) {a : Arrival}
    (ha : a.hashKey = h) {m : UInt64} (hlo : n < m) (hhi : m < a.seqNum) :
    Skips (as ++ [a]) (GapEntry.fresh cfg a m) := by
  obtain ⟨as₁, b, as₂, rfl, hb, rfl, hz, hafter⟩ := hr
  exact ⟨as₁, b, as₂, a, [], by simp, hb.trans ha.symm, rfl, hz, hlo, hhi, rfl, rfl,
    fun c hc hkey => hafter c hc (hkey.trans ha)⟩

end History

namespace System

variable {cfg : TrackerConfig} {s : System} {as : List Arrival}

/-- Everything in the system comes from the arrivals so far. -/
structure Traced (as : List Arrival) (s : System) : Prop where
  keyed : s.tracker.Keyed
  flows : ∀ h fs, s.tracker.flows.lookup h = some fs → Reached as h fs.lastSeqNum
  gaps : ∀ h m e, s.tracker.gap h m = some e → Skips as e
  copies : ∀ c ∈ s.copies, Skips as c

/-- There are no gaps at the start. -/
theorem Traced.start (r : Registry) : Traced [] (start r) where
  keyed := fun _ _ _ h => absurd h.symm (Option.some_ne_none _)
  flows := fun _ _ h => absurd h.symm (Option.some_ne_none _)
  gaps := fun _ _ _ h => absurd h.symm (Option.some_ne_none _)
  copies := fun _ h => absurd h List.not_mem_nil

/-- The flow of an arrival comes to its number, or stays above it. -/
theorem Traced.reached_observe (ht : Traced as s) (a : Arrival) {h : UInt64} {fs : FlowState}
    (hfs : (s.tracker.observe cfg a).flows.lookup h = some fs) :
    Reached (as ++ [a]) h fs.lastSeqNum := by
  by_cases hz : a.seqNum = 0
  · rw [Tracker.observe, if_pos hz] at hfs
    refine (ht.flows h fs hfs).append ?_
    intro c hc _
    rw [List.mem_singleton.mp hc, hz]
    exact UInt64.zero_le
  by_cases hh : h = a.hashKey
  · subst hh
    rw [Tracker.lookup_observe hz, Option.some_inj] at hfs
    subst hfs
    cases hf : s.tracker.flows.lookup a.hashKey with
    | none =>
        rw [Option.getD_none, FlowState.observe_first rfl]
        exact .arrival as hz
    | some fs₀ =>
        have hr := ht.flows _ fs₀ hf
        have h₀ : fs₀.lastSeqNum ≠ 0 := by
          obtain ⟨_, _, _, _, _, _, hne, _⟩ := hr
          exact hne
        rw [Option.getD_some]
        by_cases hre : a.seqNum ≤ cfg.resetThreshold ∧ cfg.resetThreshold < fs₀.lastSeqNum
        · rw [FlowState.observe_restart h₀ hre.1 hre.2]
          exact .arrival as hz
        by_cases hle : a.seqNum ≤ fs₀.lastSeqNum
        · rw [FlowState.observe_old h₀ hle hre]
          refine hr.append ?_
          intro c hc _
          rwa [List.mem_singleton.mp hc]
        · rw [FlowState.observe_new h₀ (by grind)]
          exact .arrival as hz
  · rw [Tracker.lookup_observe_of_ne hh] at hfs
    refine (ht.flows h fs hfs).append ?_
    intro c hc hkey
    rw [List.mem_singleton.mp hc] at hkey
    exact absurd hkey.symm hh

/-- An event that reports no arrival only thins the flows out. -/
theorem thins_step {ev : Event} (hev : ev.arrival? = none) (h : UInt64) :
    Thins (s.tracker.flows.lookup h) ((s.step cfg ev).tracker.flows.lookup h) := by
  rw [tracker_step]
  cases hcall : s.call ev with
  | none => exact .refl _
  | some c =>
      refine Tracker.step_thins c h ?_
      rintro a rfl
      rw [call_eq_observe hcall] at hev
      exact absurd hev (Option.some_ne_none _)

/-- What holds of the flows and gaps after an event. -/
theorem Traced.tracker_step (ht : Traced as s) (ev : Event) :
    (∀ h fs, (s.step cfg ev).tracker.flows.lookup h = some fs →
        Reached (as ++ ev.arrival?.toList) h fs.lastSeqNum) ∧
      ∀ h m e, (s.step cfg ev).tracker.gap h m = some e →
        Skips (as ++ ev.arrival?.toList) e := by
  cases hev : ev.arrival? with
  | none =>
      rw [Option.toList_none, List.append_nil]
      refine ⟨?_, ?_⟩
      · intro h fs' hfs'
        obtain ⟨fs, hfs, hlast, -, -⟩ := thins_step hev h fs' hfs'
        rw [hlast]
        exact ht.flows h fs hfs
      · intro h m e' he'
        obtain ⟨fs', hfs', hm'⟩ := Tracker.gap_eq_some.mp he'
        obtain ⟨fs, hfs, -, -, hpending⟩ := thins_step hev h fs' hfs'
        obtain ⟨e, he, hsame⟩ := hpending m e' hm'
        exact (ht.gaps h m e (Tracker.gap_eq_some.mpr ⟨fs, hfs, he⟩)).congr hsame
  | some a =>
      obtain rfl : ev = .observe a := by
        cases ev with
        | observe a' => rw [Option.some.inj hev]
        | _ => cases hev
      refine ⟨fun h fs hfs => ht.reached_observe a hfs, ?_⟩
      intro h m e he
      rcases Tracker.gap_observe he with he | ⟨-, hh, rfl, fs, hfs, hlo, hhi⟩
      · exact (ht.gaps h m e he).append _
      · exact (ht.flows h fs hfs).skips cfg hh.symm hlo hhi

/-- **The step lemma**: an event keeps everything traced. -/
theorem Traced.step (ht : Traced as s) (ev : Event) :
    Traced (as ++ ev.arrival?.toList) (s.step cfg ev) where
  keyed := keyed_step cfg ht.keyed ev
  flows := (ht.tracker_step ev).1
  gaps := (ht.tracker_step ev).2
  copies := by
    intro c hc
    rcases mem_copies_step ht.keyed hc with hc | ⟨now, ord, e, -, he, -, -, hst⟩
    · exact (ht.copies c hc).append _
    · refine ((ht.gaps _ _ e he).append _).congr ?_
      rw [hst]
      exact ⟨rfl, rfl, rfl, rfl, rfl⟩

/-- **The run lemma.** -/
theorem traced_after (cfg : TrackerConfig) (r : Registry) (es : List Event) :
    Traced (arrivalsOf es) (after cfg r es) := by
  refine Machine.run_history (R := fun es s => Traced (arrivalsOf es) s) (.start r) ?_ es
  intro es ev ih
  have hsnoc : arrivalsOf (es ++ [ev]) = arrivalsOf es ++ ev.arrival?.toList := by
    cases ev <;> simp [arrivalsOf, Event.arrival?]
  rw [hsnoc]
  exact ih.step ev

/-- **What a NACK asks for was skipped.** -/
theorem skips_of_sends {r : Registry} {es : List Event} {ev : Event}
    {endpoint : EndpointEntry} {nack : Nack}
    (h : (after cfg r es).sends ev = some (endpoint, nack)) :
    ∃ e, nack = Nack.ofGap e ∧ Skips (arrivalsOf es) e := by
  cases ev with
  | send i =>
      simp only [sends] at h
      split at h
      · rename_i e _ _ hi
        obtain ⟨-, rfl⟩ := Prod.mk.inj (Option.some.inj h)
        exact ⟨e, rfl, (traced_after cfg r es).copies e (mem_copies_of_sender hi)⟩
      · exact absurd h.symm (Option.some_ne_none _)
  | _ => cases h

/-! ### Whom a NACK asks -/

/-- The calls of the registry an event makes. -/
def registryOps (s : System) : Event → List Registry.Op
  | .upsert now a => [.upsert now a]
  | .evict now ord => [.evict now ord]
  | .select i ord sort =>
      match s.senders[i]? with
      | some ⟨_, .starting⟩ => [.snapshot ord sort]
      | _ => []
  | _ => []

/-- The registry runs over the calls that are made of it. -/
theorem registry_logged (cfg : TrackerConfig) (s : System) (ev : Event) :
    (s.step cfg ev).registry = Machine.run Registry.step s.registry (s.registryOps ev) := by
  cases ev with
  | receive =>
      simp only [step, receive]
      split <;> rfl
  | launch =>
      simp only [step, launch]
      split
      · split <;> rfl
      · rfl
  | select i ord sort =>
      simp only [step, select, registryOps]
      cases s.senders[i]? with
      | none => rfl
      | some x =>
          obtain ⟨e, phase⟩ := x
          cases phase with
          | starting =>
              dsimp only
              cases selectEndpoint (s.registry.takeSnapshot ord sort).2 e <;> rfl
          | selected endpoint n => rfl
          | awaiting endpoint n => rfl
  | send i =>
      simp only [step, send]
      split <;> rfl
  | fail i now =>
      simp only [step, fail]
      split <;> rfl
  | ack i =>
      simp only [step, ack]
      split <;> rfl
  | miss i now =>
      simp only [step, miss]
      split <;> rfl
  | _ => rfl

/-- The calls of the registry a schedule makes. -/
def registryCalls (cfg : TrackerConfig) (r : Registry) (es : List Event) : List Registry.Op :=
  Machine.logged (step cfg) registryOps (start r) es

/-- The registry of a schedule is reached by calls alone. -/
theorem registry_after (cfg : TrackerConfig) (ops : List Registry.Op) (es : List Event) :
    (after cfg (Registry.after ops) es).registry =
      Registry.after (ops ++ registryCalls cfg (Registry.after ops) es) :=
  calc (after cfg (Registry.after ops) es).registry
    _ = Machine.run Registry.step (Registry.after ops)
          (registryCalls cfg (Registry.after ops) es) :=
        Machine.run_logged System.registry (registry_logged cfg) _ es
    _ = Registry.after (ops ++ registryCalls cfg (Registry.after ops) es) :=
        (Machine.run_append _ _ _ _).symm

/-- The position of the sender that an event makes return. -/
def returning (s : System) : Event → Option ℕ
  | .select i ord sort =>
      match s.senders[i]? with
      | some ⟨e, .starting⟩ =>
          if selectEndpoint (s.registry.takeSnapshot ord sort).2 e = none then some i else none
      | _ => none
  | .fail i _ =>
      match s.senders[i]? with
      | some ⟨_, .selected _ _⟩ | some ⟨_, .awaiting _ _⟩ => some i
      | _ => none
  | .ack i | .miss i _ =>
      match s.senders[i]? with
      | some ⟨_, .awaiting _ _⟩ => some i
      | _ => none
  | _ => none

/-- Where the sender at `j` is after an event, unless it returns. Those behind a sender that
returns move up. -/
def position (s : System) (ev : Event) (j : ℕ) : Option ℕ :=
  match s.returning ev with
  | none => some j
  | some i => if j = i then none else some (if i < j then j - 1 else j)

/-- The senders after one of them has returned. -/
theorem senders_of_returns {ev : Event} {j : ℕ} (h : s.returning ev = some j) :
    (s.step cfg ev).senders = s.senders.eraseIdx j := by
  cases ev with
  | observe | fill | sweep | receive | launch | send | upsert | evict => cases h
  | select i ord sort =>
      simp only [returning] at h
      split at h
      · rename_i e hi
        obtain ⟨hnone, heq⟩ := Option.ite_none_right_eq_some.mp h
        cases heq
        simp only [step, select, hi, hnone, finish]
      · cases h
  | fail i now =>
      simp only [returning] at h
      split at h
      · rename_i hi
        cases h
        simp only [step, fail, hi, finish]
      · rename_i hi
        cases h
        simp only [step, fail, hi, finish]
      · cases h
  | ack i | miss i =>
      simp only [returning] at h
      split at h
      · rename_i hi
        cases h
        simp only [step, ack, miss, hi, finish]
      · cases h

/-- A sender with an endpoint, if nobody returns: it had the endpoint before, or chooses it. -/
theorem selected_of_stays {ev : Event} {i n : ℕ} {e : GapEntry} {endpoint : EndpointEntry}
    (h : s.returning ev = none)
    (hsel : (s.step cfg ev).senders[i]? = some ⟨e, .selected endpoint n⟩) :
    s.senders[i]? = some ⟨e, .selected endpoint n⟩ ∨
      ∃ ord sort, ev = .select i ord sort ∧ s.senders[i]? = some ⟨e, .starting⟩ ∧
        selectEndpoint (s.registry.takeSnapshot ord sort).2 e = some endpoint := by
  cases ev with
  | observe | fill | sweep | upsert | evict => exact .inl hsel
  | receive =>
      simp only [step, receive] at hsel
      split at hsel <;> exact .inl hsel
  | launch =>
      simp only [step, launch] at hsel
      split at hsel
      · split at hsel
        · rw [List.getElem?_append] at hsel
          split at hsel
          · exact .inl hsel
          · exact absurd (List.mem_singleton.mp (List.mem_of_getElem? hsel)) (by simp)
        · exact .inl hsel
      · exact .inl hsel
  | select j ord sort =>
      simp only [step, select] at hsel
      split at hsel
      · rename_i e' hj
        split at hsel
        · rename_i hnone
          simp only [returning, hj, hnone, if_true] at h
          cases h
        · rename_i chosen hchosen
          simp only [setPhase] at hsel
          by_cases hji : j = i
          · subst hji
            rw [List.getElem?_set_self (List.getElem?_eq_some_iff.mp hj).1] at hsel
            cases hsel
            exact .inr ⟨ord, sort, rfl, hj, hchosen⟩
          · rw [List.getElem?_set_ne hji] at hsel
            exact .inl hsel
      · exact .inl hsel
  | send j =>
      simp only [step, send] at hsel
      split at hsel
      · rename_i hj
        simp only [setPhase] at hsel
        by_cases hji : j = i
        · subst hji
          rw [List.getElem?_set_self (List.getElem?_eq_some_iff.mp hj).1] at hsel
          cases hsel
        · rw [List.getElem?_set_ne hji] at hsel
          exact .inl hsel
      · exact .inl hsel
  | fail j now =>
      simp only [step, fail] at hsel
      split at hsel
      · rename_i hj
        simp only [returning, hj] at h
        cases h
      · rename_i hj
        simp only [returning, hj] at h
        cases h
      · exact .inl hsel
  | ack j | miss j =>
      simp only [step, ack, miss] at hsel
      split at hsel
      · rename_i hj
        simp only [returning, hj] at h
        cases h
      · exact .inl hsel

/-- **A sender with an endpoint** had it before the event, at the place it has moved from, or
chooses it in this event. -/
theorem selected_step {ev : Event} {i n : ℕ} {e : GapEntry} {endpoint : EndpointEntry}
    (h : (s.step cfg ev).senders[i]? = some ⟨e, .selected endpoint n⟩) :
    (∃ j, s.senders[j]? = some ⟨e, .selected endpoint n⟩ ∧ s.position ev j = some i) ∨
      ∃ ord sort, ev = .select i ord sort ∧ s.senders[i]? = some ⟨e, .starting⟩ ∧
        selectEndpoint (s.registry.takeSnapshot ord sort).2 e = some endpoint := by
  cases hret : s.returning ev with
  | none =>
      refine (selected_of_stays hret h).imp_left fun hi => ⟨i, hi, ?_⟩
      rw [position, hret]
  | some j =>
      refine .inl ?_
      rw [senders_of_returns hret, List.getElem?_eraseIdx] at h
      by_cases hij : i < j
      · rw [if_pos hij] at h
        refine ⟨i, h, ?_⟩
        simp only [position, hret]
        rw [if_neg (by omega), if_neg (by omega)]
      · rw [if_neg hij] at h
        refine ⟨i + 1, h, ?_⟩
        simp only [position, hret]
        rw [if_neg (by omega), if_pos (by omega), Nat.add_sub_cancel]

end System

end ShardListener
