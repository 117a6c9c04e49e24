import ShardListener.Outstanding
import ShardListener.Walks

/-!
# Escalation over the Retry Endpoints

Which endpoints a gap tries. `endpointIdx` is a position in a list that is rebuilt from a
map by an unstable sort after every beacon, so it names the same endpoint twice only as
long as the list keeps its order. It does while no two endpoints tie on tier and
preference, and the index counts the attempts while no copy is taken before the attempt
before it has ended.

## Main results

* `Escalates.step`: the k-th attempt goes to place k of the order, clamped at the last.
* `escalation_visits_distinct`: the first attempts, one for each endpoint, go to different
  endpoints.
* `tied_endpoints_revisited`: two endpoints that tie, and a refresh between two attempts:
  the second attempt goes to the first endpoint again.
-/

namespace ShardListener

/-- The endpoint of an attempt is the one at the position of the entry, clamped at the last. -/
theorem selectEndpoint_eq (snap : List EndpointEntry) (e : GapEntry) :
    selectEndpoint snap e = snap[min e.endpointIdx (snap.length - 1)]? := by
  have hidx : (if snap.length ≤ e.endpointIdx then snap.length - 1 else e.endpointIdx) =
      min e.endpointIdx (snap.length - 1) := by
    split <;> omega
  rw [selectEndpoint, hidx]

/-- The endpoint at the position of an entry, as a rank. -/
theorem selectEndpoint_rank {snap : List EndpointEntry} {order : List Rank}
    (h : snap.map EndpointEntry.rank = order) (e : GapEntry) :
    (selectEndpoint snap e).map EndpointEntry.rank =
      order[min e.endpointIdx (order.length - 1)]? := by
  have hlen : order.length = snap.length := by rw [← h, List.length_map]
  rw [selectEndpoint_eq, hlen, ← h, List.getElem?_map]

namespace System

/-- The endpoints do not change and every response for the gap is a MISS: ADVERTs refresh
known instances in their tier and with their preference, nothing expires, and no attempt
for the gap fails or is acknowledged. -/
def Undisturbed (h m : UInt64) (s : System) : Event → Prop
  | .upsert _ a => (s.registry.rankOf a.instanceID).map Prod.snd = some (a.tier, a.preference)
  | .evict now _ => ∀ p ∈ s.registry.entries.entries, now ≤ p.2.expires
  | .fail i _ | .ack i => ∀ x ∈ s.senders[i]?, x.key ≠ (h, m)
  | _ => True

instance (h m : UInt64) (s : System) : ∀ ev, Decidable (Undisturbed h m s ev)
  | .upsert _ a => inferInstanceAs (Decidable
      ((s.registry.rankOf a.instanceID).map Prod.snd = some (a.tier, a.preference)))
  | .evict now _ => inferInstanceAs (Decidable
      (∀ p ∈ s.registry.entries.entries, now ≤ p.2.expires))
  | .fail i _ | .ack i => inferInstanceAs (Decidable (∀ x ∈ s.senders[i]?, x.key ≠ (h, m)))
  | .observe _ | .fill _ _ | .sweep _ _ | .receive | .launch | .select _ _ _ | .send _
  | .miss _ _ => isTrue trivial

/-! ### The registry along an undisturbed schedule -/

section Registry

variable {cfg : TrackerConfig} {h m : UInt64} {s : System} {r₀ : Registry}

/-- Only `select`, `upsert` and `evict` touch the registry. -/
theorem registry_step (cfg : TrackerConfig) (s : System) (ev : Event) :
    (s.step cfg ev).registry = s.registry ∨
      (∃ ord sort, (s.step cfg ev).registry = s.registry.step (.snapshot ord sort)) ∨
      (∃ now a, ev = .upsert now a ∧ (s.step cfg ev).registry = s.registry.step (.upsert now a)) ∨
      ∃ now ord, ev = .evict now ord ∧
        (s.step cfg ev).registry = s.registry.step (.evict now ord) := by
  cases ev with
  | observe | fill | sweep => exact Or.inl rfl
  | receive =>
      left
      simp only [step, receive]
      split <;> rfl
  | launch =>
      left
      simp only [step, launch]
      split
      · split <;> rfl
      · rfl
  | select i ord sort =>
      simp only [step, select]
      split
      · rename_i e hi
        right; left
        refine ⟨ord, sort, ?_⟩
        cases selectEndpoint (s.registry.takeSnapshot ord sort).2 e <;> rfl
      · exact Or.inl rfl
  | send i =>
      left
      simp only [step, send]
      split <;> rfl
  | fail i now =>
      left
      simp only [step, fail]
      split <;> rfl
  | ack i =>
      left
      simp only [step, ack]
      split <;> rfl
  | miss i now =>
      left
      simp only [step, miss]
      split <;> rfl
  | upsert now a => exact Or.inr (Or.inr (Or.inl ⟨now, a, rfl, rfl⟩))
  | evict now ord => exact Or.inr (Or.inr (Or.inr ⟨now, ord, rfl, rfl⟩))

/-- Every event keeps the cache coherent. -/
theorem coherent_step (hcoh : s.registry.Coherent) (ev : Event) :
    (s.step cfg ev).registry.Coherent := by
  rcases registry_step cfg s ev with hr | ⟨ord, sort, hr⟩ | ⟨now, a, -, hr⟩ | ⟨now, ord, -, hr⟩
  · rw [hr]
    exact hcoh
  · rw [hr]
    exact hcoh.step _
  · rw [hr]
    exact hcoh.step _
  · rw [hr]
    exact hcoh.step _

/-- A snapshot changes the cache only. -/
theorem entries_takeSnapshot (r : Registry) (ord : RangeOrder UInt32)
    (sort : SliceSort EndpointEntry.less) : (r.takeSnapshot ord sort).1.entries = r.entries := by
  rw [Registry.takeSnapshot]
  split <;> rfl

/-- An undisturbed event keeps the cache coherent and every rank. -/
theorem sameRanks_step (hcoh : s.registry.Coherent) (hsame : Registry.SameRanks r₀ s.registry)
    {ev : Event} (hev : Undisturbed h m s ev) :
    (s.step cfg ev).registry.Coherent ∧ Registry.SameRanks r₀ (s.step cfg ev).registry := by
  refine ⟨coherent_step hcoh ev, ?_⟩
  rcases registry_step cfg s ev with hr | ⟨ord, sort, hr⟩ | ⟨now, a, rfl, hr⟩ | ⟨now, ord, rfl, hr⟩
  · rw [hr]
    exact hsame
  · rw [hr]
    intro id
    rw [← hsame id, Registry.step, Registry.rankOf, entries_takeSnapshot]
    rfl
  · rw [hr]
    intro id
    rw [← hsame id, Registry.step, Registry.rankOf, Registry.lookup_upsert hcoh.instanceID]
    split
    · rename_i hid
      have hrank : (s.registry.rankOf id).map Prod.snd = some (a.tier, a.preference) := hid ▸ hev
      obtain ⟨x, hx, hx'⟩ := Option.map_eq_some_iff.mp hrank
      obtain ⟨e, he, rfl⟩ := Option.map_eq_some_iff.mp hx
      rw [hx, Option.map_some]
      refine congrArg some (Prod.ext ?_ hx'.symm)
      exact hid.symm.trans (hcoh.instanceID id e he).symm
    · rfl
  · rw [hr]
    intro id
    rw [← hsame id, Registry.step, Registry.rankOf, Registry.rankOf, Registry.lookup_evict]
    cases he : s.registry.entries.lookup id with
    | none => rfl
    | some e =>
        have hlive : now ≤ e.expires := hev ⟨id, e⟩ (AList.mem_lookup_iff.mp he)
        rw [Option.bind_some, if_neg (not_lt.mpr hlive)]

end Registry

/-! ### The attempts along an undisturbed schedule -/

/-- Attempt `k` went to place `k` of the order, clamped at the last; the index of the entry,
or of its copy on the way, is the number of the next attempt; and an endpoint that has been
chosen is the one at that place. -/
structure Escalates (order : List Rank) (entry : Option GapEntry) (copy : Option Sender)
    (tried : List EndpointEntry) : Prop where
  visited : order.Walks (tried.map EndpointEntry.rank)
  pending : ∀ e, entry = some e → copy = none → e.endpointIdx = tried.length
  flying : ∀ x, copy = some x → x.entry.endpointIdx + x.phase.sent = tried.length
  chosen : ∀ c endpoint n, copy = some ⟨c, .selected endpoint n⟩ →
    some endpoint.rank = order[min c.endpointIdx (order.length - 1)]?

section Escalates

variable {cfg : TrackerConfig} {h m : UInt64} {s : System} {order : List Rank}
  {tried : List EndpointEntry}

/-- Attempts and copies that do not change. -/
theorem Escalates.closed {entry : Option GapEntry} {copy : Option Sender}
    (hesc : Escalates order entry copy tried) : Escalates order none copy tried :=
  ⟨hesc.visited, fun _ he => (nomatch he), hesc.flying, hesc.chosen⟩

/-- A gap without a copy on the way. -/
theorem Escalates.landed {entry : Option GapEntry}
    (hvisited : order.Walks (tried.map EndpointEntry.rank))
    (hpending : ∀ e, entry = some e → e.endpointIdx = tried.length) :
    Escalates order entry none tried :=
  ⟨hvisited, fun e he _ => hpending e he, fun _ hx => (nomatch hx), fun _ _ _ hx => nomatch hx⟩

/-- One more attempt, at its place. -/
theorem Escalates.send {entry : Option GapEntry} {c : GapEntry} {endpoint : EndpointEntry}
    {n : ℕ} (hesc : Escalates order entry (some ⟨c, .selected endpoint n⟩) tried) :
    Escalates order entry (some ⟨c, .awaiting endpoint n⟩) (tried ++ [endpoint]) := by
  have hidx : c.endpointIdx = tried.length := hesc.flying _ rfl
  refine ⟨?_, fun _ _ hx => (nomatch hx), ?_, fun _ _ _ hx => nomatch hx⟩
  · rw [List.map_append]
    refine hesc.visited.snoc ?_
    rw [List.length_map, ← hidx]
    exact (hesc.chosen c endpoint n rfl).symm
  · intro x hx
    obtain rfl := Option.some.inj hx
    show c.endpointIdx + 1 = (tried ++ [endpoint]).length
    rw [List.length_append, List.length_singleton, hidx]

/-- **The step lemma**: a timely and undisturbed event keeps to the order. -/
theorem Escalates.step (hesc : Escalates order (s.tracker.gap h m) (s.flight h m) tried)
    (hs : Single cfg h m s) (hne : order ≠ [])
    (hsnap : ∀ ord sort, (s.registry.takeSnapshot ord sort).2.map EndpointEntry.rank = order)
    {ev : Event} (hok : Timely cfg h m s ev) (hev : Undisturbed h m s ev) :
    Escalates order ((s.step cfg ev).tracker.gap h m) ((s.step cfg ev).flight h m)
      (followAttempts cfg h m s ev tried) := by
  have hmove := gapMotion hs hok
  rw [followAttempts]
  generalize (s.step cfg ev).tracker.gap h m = entry at hmove
  generalize (s.step cfg ev).flight h m = copy at hmove
  cases hmove with
  | rest hsend =>
      rw [hsend, noteAttempt_none id]
      exact hesc
  | closed hsend =>
      rw [hsend, noteAttempt_none fun _ => rfl]
      exact hesc.closed
  | registered hgap hfl =>
      rw [noteAttempt, if_pos ⟨hgap, Option.some_ne_none _⟩]
      refine .landed (.nil _) ?_
      intro e he
      obtain rfl := Option.some.inj he
      rfl
  | @enqueued now ord e c hgap hfl hst =>
      rw [sendsTo_sweep, noteAttempt_pending hgap]
      refine ⟨hesc.visited, fun _ _ hx => absurd hx (Option.some_ne_none _), ?_, ?_⟩
      · intro x hx
        obtain rfl := Option.some.inj hx
        obtain ⟨-, -, rfl⟩ := hst
        exact hesc.pending e hgap hfl
      · intro _ _ _ hx
        cases hx
  | @deferred now t ord e hgap hfl =>
      rw [sendsTo_sweep, noteAttempt_pending hgap]
      refine .landed hesc.visited ?_
      intro e' he'
      obtain rfl := Option.some.inj he'
      exact hesc.pending e hgap hfl
  | @selected i ord sort c endpoint hfl hsel =>
      rw [sendsTo_select, noteAttempt_none id]
      refine ⟨hesc.visited, fun _ _ hx => absurd hx (Option.some_ne_none _), ?_, ?_⟩
      · intro x hx
        obtain rfl := Option.some.inj hx
        have hidx := hesc.flying ⟨c, .starting⟩ hfl
        exact hidx
      · intro c' endpoint' n hx
        cases hx
        rw [← selectEndpoint_rank (hsnap ord sort), hsel, Option.map_some]
  | @dropped i ord sort c hfl hsel =>
      -- there is an endpoint at every index
      have hrank := selectEndpoint_rank (hsnap ord sort) c
      rw [hsel, Option.map_none] at hrank
      have hlen := List.length_pos_iff.mpr hne
      have hout := List.getElem?_eq_none_iff.mp hrank.symm
      omega
  | @sent i c endpoint n hfl hsend =>
      rw [hsend, noteAttempt_sent]
      rw [hfl] at hesc
      exact hesc.send
  | failed hi hfl => exact absurd (List.mem_of_byKey hfl).2 (hev _ hi)
  | acked hi hfl => exact absurd (List.mem_of_byKey hfl).2 (hev _ hi)
  | @missed i now c endpoint n hi hfl =>
      rw [sendsTo_miss, noteAttempt_map]
      refine .landed hesc.visited ?_
      intro e' he'
      obtain ⟨e, he, rfl⟩ := Option.map_eq_some_iff.mp he'
      have hidx : c.endpointIdx + 1 = tried.length := hesc.flying _ hfl
      rw [← hidx, ← show e = c from hs.entry_of_flight hfl he]
      rfl

/-- The attempts of one round follow the order. -/
theorem Escalates.round {entry : Option GapEntry} {copy : Option Sender}
    (hesc : Escalates order entry copy tried) :
    (tried.take order.length).map EndpointEntry.rank = order.take tried.length := by
  have htake := hesc.visited.take (le_refl order.length)
  rw [List.length_map] at htake
  rw [List.map_take, htake, ← List.take_eq_take_min]

end Escalates

/-- A step that is timely for the gap and leaves endpoints and responses undisturbed. -/
def Orderly (cfg : TrackerConfig) (h m : UInt64) (s : System) (ev : Event) : Prop :=
  Timely cfg h m s ev ∧ Undisturbed h m s ev

instance (cfg : TrackerConfig) (h m : UInt64) (s : System) (ev : Event) :
    Decidable (Orderly cfg h m s ev) := inferInstanceAs (Decidable (_ ∧ _))

/-- The run lemma: every orderly schedule keeps to the order of its first registry. -/
theorem escalates_after {cfg : TrackerConfig} {h m : UInt64} {r : Registry} {es : List Event}
    (hcoh : r.Coherent) (hties : r.NoTies) (hne : r.entries.size ≠ 0) (horder : r.order ≠ [])
    (hok : Machine.Guarded (step cfg) (Orderly cfg h m) (start r) es) :
    ∃ entry copy, Escalates r.order entry copy (attemptsAfter cfg r h m es).2 := by
  have key := Machine.guarded_invariant
    (P := fun p : System × List EndpointEntry =>
      (Single cfg h m p.1 ∧ p.1.registry.Coherent ∧ Registry.SameRanks r p.1.registry) ∧
        Escalates r.order (p.1.tracker.gap h m) (p.1.flight h m) p.2) ?_ ?_
    ((Machine.guarded_withGhost (followAttempts cfg h m) [] es).mpr hok)
  · exact ⟨_, _, key.2⟩
  · exact ⟨⟨.start cfg h m r, hcoh, fun _ => rfl⟩, .landed (.nil _) fun _ he => nomatch he⟩
  · rintro ⟨s, tried⟩ ev ⟨hev, hev'⟩ ⟨⟨hs, hscoh, hsame⟩, hesc⟩
    refine ⟨⟨hs.step hev, sameRanks_step hscoh hsame hev'⟩, ?_⟩
    exact hesc.step hs horder (hsame.takeSnapshot hcoh hscoh hne hties) hev hev'

/-- **Escalation visits different endpoints first.** Take a registry, reached by any calls,
in which no two endpoints tie on tier and preference. In every orderly schedule the first
attempts for a gap, as many as there are endpoints, go to pairwise different ones. -/
theorem escalation_visits_distinct (cfg : TrackerConfig) (ops : List Registry.Op)
    (es : List Event) (h m : UInt64) (hties : (Registry.after ops).NoTies)
    (hok : Machine.Guarded (step cfg) (Orderly cfg h m) (start (Registry.after ops)) es) :
    (((attemptsAfter cfg (Registry.after ops) h m es).2.take
      (Registry.after ops).entries.size).map EndpointEntry.instanceID).Nodup := by
  have hcoh := Registry.coherent_after ops
  generalize Registry.after ops = r at hties hok hcoh
  by_cases hne : r.entries.size = 0
  · rw [hne, List.take_zero]
    exact List.nodup_nil
  · have hids := Registry.order_ids hcoh hne
    have hlen : r.order.length = r.entries.size := by
      rw [AList.size_eq_length_keys, ← hids.length_eq, List.length_map]
    have horder : r.order ≠ [] := by
      intro hnil
      rw [hnil] at hlen
      exact hne hlen.symm
    obtain ⟨entry, copy, hesc⟩ := escalates_after hcoh hties hne horder hok
    have hround : ((attemptsAfter cfg r h m es).2.take r.order.length).map
        EndpointEntry.instanceID = (r.order.take (attemptsAfter cfg r h m es).2.length).map
          Prod.fst := by
      rw [← hesc.round, List.map_map]
      rfl
    rw [← hlen, hround]
    refine List.Nodup.sublist ((List.take_sublist _ _).map _) ?_
    exact hids.nodup_iff.mpr r.entries.keys_nodup

/-! ### Endpoints that tie -/

/-- Two attempts for gap 2 of flow 7, both answered by a MISS, with a refreshing ADVERT of
instance 1 in between. -/
def refreshedBetween (a : Advert) : List Event :=
  [.observe (Tracker.arrivalAt 7 1 0), .observe (Tracker.arrivalAt 7 3 0),
   .sweep (1 * second) storedOrder, .receive, .launch,
   .select 0 (.stored _) EndpointEntry.sort, .send 0, .miss 0 (1 * second),
   .upsert (1 * second) a, .sweep (2 * second) storedOrder, .receive, .launch,
   .select 0 (.stored _) EndpointEntry.sort, .send 0, .miss 0 (2 * second)]

/-- **A tied endpoint is revisited.** Both endpoints have tier 0 and preference 0. The
rebuild after the refresh lists them the other way round, and the second attempt goes to
instance 2 again while instance 1 has not been tried. -/
theorem tied_endpoints_revisited :
    let r := Registry.after [.upsert 0 (advertOf 1 0 0), .upsert 0 (advertOf 2 0 0)]
    Machine.Guarded (step Tracker.testConfig) (Orderly Tracker.testConfig 7 2) (start r)
        (refreshedBetween (advertOf 1 0 0)) ∧
      r.entries.size = 2 ∧
      (attemptsAfter Tracker.testConfig r 7 2 (refreshedBetween (advertOf 1 0 0))).2.map
        EndpointEntry.instanceID = [2, 2] := by
  decide

/-- With different tiers the same schedule tries both endpoints. -/
theorem escalation_visits_distinct_tiers :
    (((attemptsAfter Tracker.testConfig
        (Registry.after [.upsert 0 (advertOf 1 0 0), .upsert 0 (advertOf 2 1 0)]) 7 2
        (refreshedBetween (advertOf 1 0 0))).2.take 2).map EndpointEntry.instanceID).Nodup :=
  escalation_visits_distinct Tracker.testConfig
    [.upsert 0 (advertOf 1 0 0), .upsert 0 (advertOf 2 1 0)] _ 7 2 (by decide) (by decide)

end System

end ShardListener
