import ShardListener.Gaps

/-!
# What a Sweep Leaves

The sweeper ranges over the flows and, for each, over its gaps, in orders it does not choose.
It deletes from the maps while it ranges over them, and the flows compete for the room that
is left in `nackQueue`. This module says what holds afterwards, from any state and for every
order: which entries are gone, what the others look like, and which of them were copied into
the queue.

The copies are described by the keys they were taken from, so nothing needs to be assumed
about what the entries say about themselves.

## Main results

* `sweepGaps_spec`, `sweepFlows_spec`: the two loops.
* `sweep_postcondition`: what a sweep removes, keeps, copies and puts off, for any state.
-/

namespace ShardListener.Tracker

variable {cfg : TrackerConfig} {now : Time}

/-- The sweeper keeps the entry and means to copy it. -/
def Due (cfg : TrackerConfig) (now : Time) (e : GapEntry) : Prop :=
  Live cfg now e ∧ e.nextAttempt < now

instance (cfg : TrackerConfig) (now : Time) (e : GapEntry) : Decidable (Due cfg now e) :=
  inferInstanceAs (Decidable (_ ∧ _))

/-- One for every entry that is due. -/
def dueCount (cfg : TrackerConfig) (now : Time) (e : GapEntry) : ℕ := if Due cfg now e then 1 else 0

/-- The number of entries that are due. -/
def dueGaps (cfg : TrackerConfig) (now : Time) (t : Tracker) : ℕ :=
  t.flows.weight fun fs => fs.pending.weight (dueCount cfg now)

/-- What the sweeper leaves of an entry, given whether there was room for a copy of it. -/
def sweptEntry (cfg : TrackerConfig) (now : Time) (copied : Bool) (e : GapEntry) :
    Option GapEntry :=
  if Live cfg now e then
    if e.nextAttempt < now then
      some { e with nextAttempt := if copied then stamp now else now }
    else some e
  else none

section Entry

variable {copied : Bool} {e e' : GapEntry}

/-- An entry is removed exactly when it is not live. -/
theorem sweptEntry_eq_none : sweptEntry cfg now copied e = none ↔ ¬ Live cfg now e := by
  rw [sweptEntry]
  split
  · rename_i hlive
    refine iff_of_false ?_ (not_not.mpr hlive)
    split <;> exact Option.some_ne_none _
  · rename_i hdead
    exact iff_of_true rfl hdead

/-- Only `nextAttempt` is rewritten. -/
theorem eq_of_sweptEntry (h : sweptEntry cfg now copied e = some e') :
    e' = { e with nextAttempt := e'.nextAttempt } := by
  rw [sweptEntry] at h
  split at h
  · split at h <;> (obtain rfl := Option.some.inj h; rfl)
  · cases h

theorem sweptEntry_of_due (h : Due cfg now e) : sweptEntry cfg now copied e =
    some { e with nextAttempt := if copied then stamp now else now } := by
  rw [sweptEntry, if_pos h.1, if_pos h.2]

theorem sweptEntry_of_waiting (hlive : Live cfg now e) (hle : now ≤ e.nextAttempt) :
    sweptEntry cfg now copied e = some e := by
  rw [sweptEntry, if_pos hlive, if_neg (not_lt.mpr hle)]

theorem dueCount_of_due (h : Due cfg now e) : dueCount cfg now e = 1 := if_pos h

theorem dueCount_of_not_due (h : ¬ Due cfg now e) : dueCount cfg now e = 0 := if_neg h

end Entry

/-! ### The loop over the gaps of a flow -/

/-- The invariant of the inner loop: the gaps `copied` among those visited have been copied to
the end of the queue `q`, as many as there was room for. -/
structure SweptGaps (cfg : TrackerConfig) (now : Time) (q : List GapEntry)
    (pending : AssocMap UInt64 GapEntry) (done : List UInt64) (acc : List GapEntry × Recorder)
    (m : AssocMap UInt64 GapEntry) (copied : List UInt64) : Prop where
  once : copied.Nodup
  visited : ∀ k ∈ copied, k ∈ done
  due : ∀ k ∈ copied, ∃ e, pending.lookup k = some e ∧ Due cfg now e
  entries : ∀ k ∈ done, m.lookup k = (pending.lookup k).bind (sweptEntry cfg now (k ∈ copied))
  queue : acc.1.map some = q.map some ++ copied.map m.lookup
  room : copied.length =
    min (done.map (pending.weightAt (dueCount cfg now))).sum (nackQueueCap - q.length)

section Inner

variable {q : List GapEntry} {pending m : AssocMap UInt64 GapEntry} {done copied : List UInt64}
  {acc : List GapEntry × Recorder} {k : UInt64} {e : GapEntry}

/-- The length of the queue, along the loop. -/
theorem SweptGaps.length (h : SweptGaps cfg now q pending done acc m copied) :
    acc.1.length = q.length + copied.length := by
  have hlen := congrArg List.length h.queue
  simpa using hlen

/-- The copies made before are not touched by the next iteration. -/
theorem SweptGaps.map_put (h : SweptGaps cfg now q pending done acc m copied) (hk : k ∉ done)
    (o : Option GapEntry) : copied.map (m.put k o).lookup = copied.map m.lookup := by
  refine List.map_congr_left ?_
  intro k' hk'
  have hne : k' ≠ k := fun heq => hk (heq ▸ h.visited k' hk')
  rw [AList.lookup_put, if_neg hne]

/-- An iteration that copies nothing. -/
theorem SweptGaps.pass (h : SweptGaps cfg now q pending done acc m copied) (hk : k ∉ done)
    (he : pending.lookup k = some e) {acc' : List GapEntry × Recorder} (hacc : acc'.1 = acc.1)
    (hfull : Due cfg now e → nackQueueCap ≤ acc.1.length) :
    SweptGaps cfg now q pending (k :: done) acc' (m.put k (sweptEntry cfg now false e)) copied where
  once := h.once
  visited := fun k' hk' => List.mem_cons_of_mem _ (h.visited k' hk')
  due := h.due
  entries := by
    intro k' hk'
    rw [AList.lookup_put]
    have hnot : k ∉ copied := fun hmem => hk (h.visited k hmem)
    by_cases heq : k' = k
    · subst heq
      rw [if_pos rfl, he, Option.bind_some, decide_eq_false hnot]
    · rw [if_neg heq]
      exact h.entries k' ((List.mem_cons.mp hk').resolve_left heq)
  queue := by rw [h.map_put hk, hacc, h.queue]
  room := by
    have hlen := h.length
    have hroom := h.room
    rw [List.map_cons, List.sum_cons, AList.weightAt_of_lookup he]
    by_cases hdue : Due cfg now e
    · rw [dueCount_of_due hdue]
      have hle := hfull hdue
      omega
    · rw [dueCount_of_not_due hdue]
      omega

/-- An iteration that copies a due entry. -/
theorem SweptGaps.copy (h : SweptGaps cfg now q pending done acc m copied) (hk : k ∉ done)
    (he : pending.lookup k = some e) (hdue : Due cfg now e) (hroom : acc.1.length < nackQueueCap) :
    SweptGaps cfg now q pending (k :: done)
      (acc.1 ++ [{ e with nextAttempt := stamp now }], acc.2)
      (m.put k (some { e with nextAttempt := stamp now })) (copied ++ [k]) where
  once := by
    refine List.nodup_append.mpr ⟨h.once, List.nodup_singleton k, ?_⟩
    intro k' hk' k'' hk'' heq
    rw [List.mem_singleton.mp hk''] at heq
    exact hk (heq ▸ h.visited k' hk')
  visited := by
    intro k' hk'
    rcases List.mem_append.mp hk' with hk' | hk'
    · exact List.mem_cons_of_mem _ (h.visited k' hk')
    · rw [List.mem_singleton.mp hk']
      exact List.mem_cons_self
  due := by
    intro k' hk'
    rcases List.mem_append.mp hk' with hk' | hk'
    · exact h.due k' hk'
    · rw [List.mem_singleton.mp hk']
      exact ⟨e, he, hdue⟩
  entries := by
    intro k' hk'
    rw [AList.lookup_put]
    by_cases heq : k' = k
    · subst heq
      rw [if_pos rfl, he, Option.bind_some, sweptEntry_of_due hdue,
        decide_eq_true (List.mem_append_right copied (List.mem_singleton.mpr rfl)), if_pos rfl]
    · have hsame : k' ∈ copied ++ [k] ↔ k' ∈ copied := by simp [heq]
      rw [if_neg heq, decide_eq_decide.mpr hsame]
      exact h.entries k' ((List.mem_cons.mp hk').resolve_left heq)
  queue := by
    rw [List.map_append, List.map_append, h.map_put hk, h.queue, List.append_assoc,
      List.map_singleton, List.map_singleton, AList.lookup_put, if_pos rfl]
  room := by
    have hlen := h.length
    have hmin := h.room
    rw [List.map_cons, List.sum_cons, AList.weightAt_of_lookup he, dueCount_of_due hdue,
      List.length_append, List.length_singleton]
    omega

/-- The step lemma. -/
theorem SweptGaps.step (h : SweptGaps cfg now q pending done acc m copied) (label : FlowLabel)
    (hk : k ∉ done) (he : pending.lookup k = some e) :
    ∃ copied', SweptGaps cfg now q pending (k :: done) (sweepGap cfg now label acc k e).1
      (m.put k (sweepGap cfg now label acc k e).2) copied' := by
  have hcase := sweepGap_case cfg now label acc k e
  generalize sweepGap cfg now label acc k e = out at hcase
  cases hcase with
  | dropped hdead =>
      refine ⟨copied, ?_⟩
      rw [← sweptEntry_eq_none.mpr hdead]
      exact h.pass hk he rfl fun hdue => absurd hdue.1 hdead
  | enqueued hlive hlt hroom => exact ⟨copied ++ [k], h.copy hk he ⟨hlive, hlt⟩ hroom⟩
  | deferred hlive hlt hfull =>
      refine ⟨copied, ?_⟩
      have hpass := h.pass hk he rfl fun _ => hfull
      rwa [sweptEntry_of_due ⟨hlive, hlt⟩] at hpass
  | waiting hlive hle =>
      refine ⟨copied, ?_⟩
      rw [← sweptEntry_of_waiting hlive hle]
      exact h.pass hk he rfl fun hdue => absurd hdue.2 (not_lt.mpr hle)

/-- **The loop over the gaps of one flow.** -/
theorem sweepGaps_spec (cfg : TrackerConfig) (now : Time) (label : FlowLabel)
    (ord : RangeOrder UInt64) (acc : List GapEntry × Recorder)
    (pending : AssocMap UInt64 GapEntry) :
    ∃ copied, SweptGaps cfg now acc.1 pending pending.keys
      (pending.range ord (sweepGap cfg now label) acc).1
      (pending.range ord (sweepGap cfg now label) acc).2 copied := by
  obtain ⟨done, hperm, copied, h⟩ := AList.range_invariant (σ := List GapEntry × Recorder)
    (P := fun done s m => ∃ copied, SweptGaps cfg now acc.1 pending done s m copied)
    (sweepGap cfg now label) ord (s := acc) (m := pending)
    ⟨[], List.nodup_nil, by simp, by simp, by simp, by simp, by simp⟩
    fun done s m k e hk he _ ⟨copied, h⟩ => h.step label hk he
  refine ⟨copied, h.once, ?_, h.due, ?_, h.queue, ?_⟩
  · exact fun k hk => hperm.mem_iff.mp (h.visited k hk)
  · exact fun k hk => h.entries k (hperm.mem_iff.mpr hk)
  · rw [h.room, (hperm.map _).sum_eq]

/-- The entries after the loop, at every key. -/
theorem SweptGaps.lookup (h : SweptGaps cfg now q pending pending.keys acc m copied)
    (hm : ∀ k, pending.lookup k = none → m.lookup k = none) (k : UInt64) :
    m.lookup k = (pending.lookup k).bind (sweptEntry cfg now (k ∈ copied)) := by
  cases he : pending.lookup k with
  | none => exact hm k he
  | some e =>
      rw [← he]
      exact h.entries k (AList.mem_keys.mp (AList.mem_iff_lookup.mpr ⟨e, he⟩))

end Inner

/-! ### The loop over the flows -/

/-- What the sweeper leaves of a flow, given which of its gaps were copied. -/
structure SweptFlow (cfg : TrackerConfig) (now : Time) (copied : UInt64 → Bool) (fs : FlowState)
    (out : Option FlowState) : Prop where
  gaps : ∀ m, (out.bind fun fs' => fs'.pending.lookup m) =
    (fs.pending.lookup m).bind (sweptEntry cfg now (copied m))
  gone : out = none ↔ (∀ m e, fs.pending.lookup m = some e → ¬ Live cfg now e) ∧
    flowTTL cfg < now - fs.lastSeen
  kept : ∀ fs', out = some fs' → fs' = { fs with pending := fs'.pending }

/-- The invariant of the outer loop, over the flows visited. -/
structure SweptFlows (cfg : TrackerConfig) (now : Time) (q : List GapEntry)
    (flows : AssocMap UInt64 FlowState) (done : List UInt64) (acc : List GapEntry × Recorder)
    (m : AssocMap UInt64 FlowState) (copied : List (UInt64 × UInt64)) : Prop where
  once : copied.Nodup
  visited : ∀ k ∈ copied, k.1 ∈ done
  due : ∀ k ∈ copied, ∃ fs e, flows.lookup k.1 = some fs ∧ fs.pending.lookup k.2 = some e ∧
    Due cfg now e
  flow : ∀ h ∈ done, ∀ fs, flows.lookup h = some fs →
    SweptFlow cfg now (fun m => (h, m) ∈ copied) fs (m.lookup h)
  queue : acc.1.map some = q.map some ++
    copied.map fun k => (m.lookup k.1).bind fun fs => fs.pending.lookup k.2
  room : copied.length =
    min (done.map (flows.weightAt fun fs => fs.pending.weight (dueCount cfg now))).sum
      (nackQueueCap - q.length)

section Outer

variable {q : List GapEntry} {flows m : AssocMap UInt64 FlowState} {done : List UInt64}
  {copied : List (UInt64 × UInt64)} {acc : List GapEntry × Recorder} {k : UInt64}
  {fs : FlowState}

/-- One iteration leaves of its flow what the inner loop left of the gaps. -/
theorem sweptFlow_of_sweptGaps {ord : SweepOrder} {gaps : List UInt64}
    (h : SweptGaps cfg now acc.1 fs.pending fs.pending.keys
      (fs.pending.range (ord.gaps k) (sweepGap cfg now fs.flowType) acc).1
      (fs.pending.range (ord.gaps k) (sweepGap cfg now fs.flowType) acc).2 gaps) :
    SweptFlow cfg now (fun m => m ∈ gaps) fs (sweepFlow cfg now ord acc k fs).2 := by
  have hlook := h.lookup fun m hm => by
    obtain ⟨acc', hacc'⟩ := AList.lookup_range (sweepGap cfg now fs.flowType) (ord.gaps k) acc
      fs.pending m
    rw [hacc', hm, Option.bind_none]
  generalize hout : fs.pending.range (ord.gaps k) (sweepGap cfg now fs.flowType) acc = out
    at h hlook
  -- nothing is left of the flow exactly when no entry is live
  have hempty : out.2.size = 0 ↔ ∀ m e, fs.pending.lookup m = some e → ¬ Live cfg now e := by
    rw [AList.size_eq_zero_iff]
    refine forall_congr' fun m => ?_
    rw [hlook, Option.bind_eq_none_iff]
    exact forall_congr' fun e => imp_congr Iff.rfl sweptEntry_eq_none
  have hflow : (sweepFlow cfg now ord acc k fs).2 =
      if out.2.size = 0 ∧ now - fs.lastSeen > flowTTL cfg then none
      else some { fs with pending := out.2 } := by
    rw [sweepFlow, hout]
    split <;> rfl
  rw [hflow]
  refine ⟨?_, ?_, ?_⟩
  · intro m
    split
    · rename_i hgone
      rw [Option.bind_none, ← hlook, AList.lookup_eq_none_of_size_eq_zero hgone.1]
    · rw [Option.bind_some, hlook]
  · rw [← hempty]
    split
    · rename_i hgone
      exact iff_of_true rfl hgone
    · rename_i hstays
      exact iff_of_false (Option.some_ne_none _) hstays
  · intro fs' hfs'
    split at hfs'
    · cases hfs'
    · obtain rfl := Option.some.inj hfs'
      rfl

/-- The length of the queue, along the loop. -/
theorem SweptFlows.length (h : SweptFlows cfg now q flows done acc m copied) :
    acc.1.length = q.length + copied.length := by
  have hlen := congrArg List.length h.queue
  simpa using hlen

/-- The step lemma. -/
theorem SweptFlows.step (h : SweptFlows cfg now q flows done acc m copied) (ord : SweepOrder)
    (hk : k ∉ done) (hfs : flows.lookup k = some fs) :
    ∃ copied', SweptFlows cfg now q flows (k :: done) (sweepFlow cfg now ord acc k fs).1
      (m.put k (sweepFlow cfg now ord acc k fs).2) copied' := by
  obtain ⟨gaps, hgaps⟩ := sweepGaps_spec cfg now fs.flowType (ord.gaps k) acc fs.pending
  have hflow := sweptFlow_of_sweptGaps hgaps
  have hnot : ∀ m, (k, m) ∉ copied := fun m hmem => hk (h.visited (k, m) hmem)
  refine ⟨copied ++ gaps.map (k, ·), ?_, ?_, ?_, ?_, ?_, ?_⟩
  · refine List.nodup_append.mpr ⟨h.once, hgaps.once.map fun _ _ heq => (Prod.mk.inj heq).2, ?_⟩
    intro p hp p' hp' heq
    obtain ⟨m, -, rfl⟩ := List.mem_map.mp hp'
    exact hnot m (heq ▸ hp)
  · intro p hp
    rcases List.mem_append.mp hp with hp | hp
    · exact List.mem_cons_of_mem _ (h.visited p hp)
    · obtain ⟨m, -, rfl⟩ := List.mem_map.mp hp
      exact List.mem_cons_self
  · intro p hp
    rcases List.mem_append.mp hp with hp | hp
    · exact h.due p hp
    · obtain ⟨m, hm, rfl⟩ := List.mem_map.mp hp
      obtain ⟨e, he, hdue⟩ := hgaps.due m hm
      exact ⟨fs, e, hfs, he, hdue⟩
  · intro k' hk' fs' hfs'
    rw [AList.lookup_put]
    by_cases heq : k' = k
    · subst heq
      obtain rfl := Option.some.inj (hfs.symm.trans hfs')
      have hmem : ∀ m, (k', m) ∈ copied ++ gaps.map (k', ·) ↔ m ∈ gaps := by
        intro m
        simp [hnot m]
      rw [if_pos rfl, funext fun m => decide_eq_decide.mpr (hmem m)]
      exact hflow
    · have hmem : ∀ m, (k', m) ∈ copied ++ gaps.map (k, ·) ↔ (k', m) ∈ copied := by
        intro m
        simp [Ne.symm heq]
      rw [if_neg heq, funext fun m => decide_eq_decide.mpr (hmem m)]
      exact h.flow k' ((List.mem_cons.mp hk').resolve_left heq) fs' hfs'
  · -- the copies of this flow are what its loop has appended
    have hold : (copied.map fun p => ((m.put k (sweepFlow cfg now ord acc k fs).2).lookup p.1).bind
        fun fs => fs.pending.lookup p.2) =
        copied.map fun p => (m.lookup p.1).bind fun fs => fs.pending.lookup p.2 := by
      refine List.map_congr_left ?_
      intro p hp
      have hne : p.1 ≠ k := fun heq => hk (heq ▸ h.visited p hp)
      rw [AList.lookup_put, if_neg hne]
    have hnew : (gaps.map (k, ·)).map (fun p =>
        ((m.put k (sweepFlow cfg now ord acc k fs).2).lookup p.1).bind
          fun fs => fs.pending.lookup p.2) =
        gaps.map (fs.pending.range (ord.gaps k) (sweepGap cfg now fs.flowType) acc).2.lookup := by
      rw [List.map_map]
      refine List.map_congr_left ?_
      intro x hx
      rw [Function.comp_apply, AList.lookup_put, if_pos rfl, hflow.gaps,
        hgaps.entries x (hgaps.visited x hx)]
    rw [List.map_append, hold, hnew, sweepFlow_fst, hgaps.queue, h.queue, List.append_assoc]
  · have hlen := h.length
    have hroom := h.room
    have hmore := hgaps.room
    rw [AList.sum_weightAt_keys] at hmore
    rw [List.map_cons, List.sum_cons, AList.weightAt_of_lookup hfs, List.length_append,
      List.length_map]
    omega

/-- **The loop over the flows.** -/
theorem sweepFlows_spec (cfg : TrackerConfig) (t : Tracker) (now : Time) (ord : SweepOrder) :
    ∃ copied, SweptFlows cfg now t.nackQueue t.flows t.flows.keys
      ((t.sweepOnce cfg now ord).nackQueue, (t.sweepOnce cfg now ord).recorder)
      (t.sweepOnce cfg now ord).flows copied := by
  obtain ⟨done, hperm, copied, h⟩ := AList.range_invariant (σ := List GapEntry × Recorder)
    (P := fun done s m => ∃ copied, SweptFlows cfg now t.nackQueue t.flows done s m copied)
    (sweepFlow cfg now ord) ord.flows (s := (t.nackQueue, t.recorder)) (m := t.flows)
    ⟨[], List.nodup_nil, by simp, by simp, by simp, by simp, by simp⟩
    fun done s m k fs hk hfs _ ⟨copied, h⟩ => h.step ord hk hfs
  refine ⟨copied, h.once, ?_, h.due, ?_, h.queue, ?_⟩
  · exact fun k hk => hperm.mem_iff.mp (h.visited k hk)
  · exact fun k hk => h.flow k (hperm.mem_iff.mpr hk)
  · rw [h.room, (hperm.map _).sum_eq]

end Outer

/-! ### The postcondition -/

/-- **What holds after a sweep** from `t` to `t'`, when the gaps `copied` were enqueued. -/
structure Swept (cfg : TrackerConfig) (now : Time) (t t' : Tracker)
    (copied : List (UInt64 × UInt64)) : Prop where
  /-- No gap appears. -/
  old : ∀ h m, t.gap h m = none → t'.gap h m = none
  /-- Exactly the overdue and the exhausted gaps are removed. -/
  removed : ∀ h m e, t.gap h m = some e →
    (t'.gap h m = none ↔ e.deadline < now ∨ cfg.maxRetries ≤ e.retries)
  /-- The others keep everything but `nextAttempt`. -/
  kept : ∀ h m e e', t.gap h m = some e → t'.gap h m = some e' →
    e'.hashKey = e.hashKey ∧ e'.seqNum = e.seqNum ∧ e'.groupIdx = e.groupIdx ∧
      e'.subtreeID = e.subtreeID ∧ e'.retries = e.retries ∧ e'.endpointIdx = e.endpointIdx ∧
      e'.deadline = e.deadline
  /-- A gap that is not due is not changed at all. -/
  waiting : ∀ h m e e', t.gap h m = some e → t'.gap h m = some e' → now ≤ e.nextAttempt → e' = e
  /-- At most one copy of each gap is enqueued, -/
  once : copied.Nodup
  /-- of a gap that was due and is still there. -/
  due : ∀ k ∈ copied, ∃ e e', t.gap k.1 k.2 = some e ∧ e.nextAttempt < now ∧
    t'.gap k.1 k.2 = some e' ∧ e'.nextAttempt = stamp now
  /-- The queue has grown by these copies, -/
  queue : t'.nackQueue.map some = t.nackQueue.map some ++ copied.map fun k => t'.gap k.1 k.2
  /-- as many as there was room for. -/
  room : copied.length = min (dueGaps cfg now t) (nackQueueCap - t.nackQueue.length)
  /-- A due gap that found the queue full is due again from now on. -/
  deferred : ∀ h m e e', t.gap h m = some e → t'.gap h m = some e' → e.nextAttempt < now →
    (h, m) ∉ copied → e'.nextAttempt = now
  /-- A flow is removed exactly when none of its gaps is left and it has been idle. -/
  flows : ∀ h fs, t.flows.lookup h = some fs →
    (t'.flows.lookup h = none ↔ (∀ m, t'.gap h m = none) ∧ flowTTL cfg < now - fs.lastSeen)
  /-- The others keep everything but their gaps. -/
  flow : ∀ h fs fs', t.flows.lookup h = some fs → t'.flows.lookup h = some fs' →
    fs' = { fs with pending := fs'.pending }

/-- Live is neither overdue nor exhausted. -/
theorem not_live_iff {e : GapEntry} :
    ¬ Live cfg now e ↔ e.deadline < now ∨ cfg.maxRetries ≤ e.retries := by
  rw [Live, not_and_or, not_le, not_lt]

/-- What a sweep leaves of one flow. -/
theorem SweptFlows.sweptFlow {t t' : Tracker} {copied : List (UInt64 × UInt64)}
    (h : SweptFlows cfg now t.nackQueue t.flows t.flows.keys (t'.nackQueue, t'.recorder) t'.flows
      copied) {hk : UInt64} {fs : FlowState} (hfs : t.flows.lookup hk = some fs) :
    SweptFlow cfg now (fun m => (hk, m) ∈ copied) fs (t'.flows.lookup hk) :=
  h.flow hk (AList.mem_keys.mp (AList.mem_iff_lookup.mpr ⟨fs, hfs⟩)) fs hfs

/-- The gaps after a sweep, one by one. -/
theorem SweptFlows.gap {t t' : Tracker} {copied : List (UInt64 × UInt64)}
    (h : SweptFlows cfg now t.nackQueue t.flows t.flows.keys (t'.nackQueue, t'.recorder) t'.flows
      copied) (hnone : ∀ hk, t.flows.lookup hk = none → t'.flows.lookup hk = none)
    (hk m : UInt64) :
    t'.gap hk m = (t.gap hk m).bind (sweptEntry cfg now ((hk, m) ∈ copied)) := by
  cases hfs : t.flows.lookup hk with
  | none => rw [gap_of_lookup_none hfs, gap_of_lookup_none (hnone hk hfs), Option.bind_none]
  | some fs =>
      rw [gap_of_lookup hfs]
      exact (h.sweptFlow hfs).gaps m

/-- A sweep opens no flow. -/
theorem lookup_sweepOnce_of_none {t : Tracker} {hk : UInt64} (ord : SweepOrder)
    (hnone : t.flows.lookup hk = none) : (t.sweepOnce cfg now ord).flows.lookup hk = none := by
  obtain ⟨acc, hacc⟩ := AList.lookup_range (sweepFlow cfg now ord) ord.flows
    (t.nackQueue, t.recorder) t.flows hk
  rw [sweepOnce, hacc, hnone, Option.bind_none]

/-- **A sweep loses no gap**, from any state, for every free capacity of the queue and every
order of the maps. -/
theorem sweep_postcondition (cfg : TrackerConfig) (t : Tracker) (now : Time) (ord : SweepOrder) :
    ∃ copied, Swept cfg now t (t.sweepOnce cfg now ord) copied := by
  obtain ⟨copied, h⟩ := sweepFlows_spec cfg t now ord
  have hgap := h.gap fun hk hnone => lookup_sweepOnce_of_none ord hnone
  generalize t.sweepOnce cfg now ord = t' at h hgap
  -- what is left of an entry
  have hentry : ∀ hk m e, t.gap hk m = some e →
      t'.gap hk m = sweptEntry cfg now ((hk, m) ∈ copied) e := by
    intro hk m e he
    rw [hgap, he, Option.bind_some]
  have hlive : ∀ {hk m e e'}, t.gap hk m = some e → t'.gap hk m = some e' → Live cfg now e := by
    intro hk m e e' he he'
    by_contra hdead
    rw [hentry hk m e he, sweptEntry_eq_none.mpr hdead] at he'
    cases he'
  refine ⟨copied, ?_⟩
  constructor
  case old =>
    intro hk m he
    rw [hgap, he, Option.bind_none]
  case removed =>
    intro hk m e he
    rw [hentry hk m e he, sweptEntry_eq_none, not_live_iff]
  case kept =>
    intro hk m e e' he he'
    rw [hentry hk m e he] at he'
    rw [eq_of_sweptEntry he']
    exact ⟨rfl, rfl, rfl, rfl, rfl, rfl, rfl⟩
  case waiting =>
    intro hk m e e' he he' hle
    have hl := hlive he he'
    rw [hentry hk m e he, sweptEntry_of_waiting hl hle] at he'
    exact (Option.some.inj he').symm
  case once => exact h.once
  case due =>
    intro k hk
    obtain ⟨fs, e, hfs, he, hdue⟩ := h.due k hk
    have he' := hentry k.1 k.2 e (gap_eq_some.mpr ⟨fs, hfs, he⟩)
    rw [sweptEntry_of_due hdue, decide_eq_true hk] at he'
    exact ⟨e, _, gap_eq_some.mpr ⟨fs, hfs, he⟩, hdue.2, he', rfl⟩
  case queue => exact h.queue
  case room => rw [h.room, AList.sum_weightAt_keys, dueGaps]
  case deferred =>
    intro hk m e e' he he' hlt hnot
    have hl := hlive he he'
    rw [hentry hk m e he, sweptEntry_of_due ⟨hl, hlt⟩, decide_eq_false hnot] at he'
    obtain rfl := Option.some.inj he'
    rfl
  case flows =>
    intro hk fs hfs
    rw [(h.sweptFlow hfs).gone]
    refine and_congr_left fun _ => forall_congr' fun m => ?_
    rw [hgap, gap_of_lookup hfs, Option.bind_eq_none_iff]
    exact forall_congr' fun e => imp_congr Iff.rfl sweptEntry_eq_none.symm
  case flow => exact fun hk fs fs' hfs => (h.sweptFlow hfs).kept fs'

end ShardListener.Tracker
