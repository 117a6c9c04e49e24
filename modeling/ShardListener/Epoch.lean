import ShardListener.Flow

/-!
# Epochs: What the Gap Tracker Tracks

The abstract reading of a flow. The non-zero sequence numbers observed on a flow fall
into **epochs**: an epoch opens with the first number of the flow, again after the sweeper
has evicted the flow, and at every number at or below the restart threshold that arrives
while the epoch's maximum is above it. `Epoch` records what was observed since, what the
registration loop registered, and what the other calls removed; `followEpoch` maintains it
along any interleaving of calls on any flows.

## Main results

* `epochAfter_tracks`: in every reachable state the flow and its epoch agree (`Tracks`).
* `gap_tracking_exact`: `lastSeqNum` is the epoch's maximum, the pending keys are the
  numbers strictly between the first and the maximum that were neither observed nor
  removed, nothing is registered twice, and the registration loop never wraps.
* `retransmit_removes_only_iff`: answering a pending gap leaves the rest of the flow alone
  unless the number is at or below the threshold and the flow above it; then the flow is
  reset (`retransmit_resets_flow`).
-/

namespace ShardListener

/-! ### The abstract history of a flow -/

/-- What happened to a flow since its current epoch opened. -/
structure Epoch where
  /-- The number that opened the epoch. -/
  first : UInt64
  /-- Every number observed, `first` included. -/
  seen : List UInt64
  /-- The numbers registered as gaps. -/
  registered : List UInt64
  /-- The pending numbers taken away by other calls than `Observe`. -/
  removed : List UInt64
  deriving DecidableEq

namespace Epoch

/-- An epoch that has just opened. -/
def start (s : UInt64) : Epoch := ⟨s, [s], [], []⟩

/-- The maximum of an epoch. -/
def top (ep : Epoch) : UInt64 := ep.seen.foldl max 0

/-- The epoch after the number `s`, with restart threshold `T`; `new` are the gaps
registered on its arrival. -/
def arrive (T s : UInt64) (new : List UInt64) : Option Epoch → Epoch
  | none => start s
  | some ep =>
      if s ≤ T ∧ T < ep.top then start s
      else { ep with seen := ep.seen ++ [s], registered := ep.registered ++ new }

end Epoch

namespace Tracker

/-- The keys of the pending map of flow `h`. -/
def pendingKeys (t : Tracker) (h : UInt64) : List UInt64 :=
  ((t.flows.lookup h).map fun fs => fs.pending.keys).getD []

/-- The pending keys of flow `h` that are gone in `t'`. -/
def removedBy (t t' : Tracker) (h : UInt64) : List UInt64 :=
  (t.pendingKeys h).filter fun m => m ∉ t'.pendingKeys h

/-- The pending keys of flow `h` in `t'` that were not there in `t`. -/
def registeredBy (t t' : Tracker) (h : UInt64) : List UInt64 := t'.removedBy t h

/-- How a call moves the epoch of flow `h`. Only the sweeper makes a flow disappear. -/
def followEpoch (cfg : TrackerConfig) (h : UInt64) (t : Tracker) :
    Call → Option Epoch → Option Epoch
  | .observe a, ep =>
      if a.hashKey = h ∧ a.seqNum ≠ 0 then
        some (Epoch.arrive cfg.resetThreshold a.seqNum
          (t.registeredBy (t.observe cfg a) h) ep)
      else ep
  | c, ep =>
      if h ∈ (t.step cfg c).flows then
        ep.map fun ep => { ep with removed := ep.removed ++ t.removedBy (t.step cfg c) h }
      else none

/-- The tracker and the epoch of flow `h` after a sequence of calls. -/
def epochAfter (cfg : TrackerConfig) (h : UInt64) (calls : List Call) :
    Tracker × Option Epoch :=
  Machine.run (Machine.withGhost (step cfg) (followEpoch cfg h)) (Tracker.new, none) calls

end Tracker

/-! ### Maxima -/

/-- Folding `max` from the left, extended by one number. -/
theorem Epoch.top_snoc (ep : Epoch) (s : UInt64) (new : List UInt64) :
    top { ep with seen := ep.seen ++ [s], registered := new } = max ep.top s := by
  rw [top, List.foldl_append]
  rfl

@[grind =] theorem max_eq_ite (a b : UInt64) : max a b = if a ≤ b then b else a := rfl

/-- Folding `max` bounds the start and every element from above. -/
theorem le_foldl_max (l : List UInt64) (b : UInt64) :
    b ≤ l.foldl max b ∧ ∀ s ∈ l, s ≤ l.foldl max b := by
  induction l generalizing b with
  | nil => exact ⟨by grind, by simp⟩
  | cons x l ih =>
      obtain ⟨hb, hl⟩ := ih (max b x)
      rw [List.foldl_cons]
      refine ⟨by grind, ?_⟩
      intro s hs
      rcases List.mem_cons.mp hs with rfl | hs
      · grind
      · exact hl s hs

/-- Folding `max` ends in the start or in an element. -/
theorem foldl_max_mem (l : List UInt64) (b : UInt64) :
    l.foldl max b = b ∨ l.foldl max b ∈ l := by
  induction l generalizing b with
  | nil => exact Or.inl rfl
  | cons x l ih =>
      rw [List.foldl_cons]
      rcases ih (max b x) with h | h
      · rw [h]
        by_cases hbx : b ≤ x
        · exact Or.inr (by simp [max_eq_ite, hbx])
        · exact Or.inl (by simp [max_eq_ite, hbx])
      · exact Or.inr (List.mem_cons_of_mem _ h)

/-- Everything observed in an epoch is at most its maximum. -/
theorem Epoch.le_top {ep : Epoch} {s : UInt64} (h : s ∈ ep.seen) : s ≤ ep.top :=
  (le_foldl_max ep.seen 0).2 s h

@[simp] theorem Epoch.top_start (s : UInt64) : (start s).top = s := by
  show max 0 s = s
  grind

/-! ### Keys that come and go -/

namespace Tracker

variable {t t' : Tracker} {h : UInt64} {fs fs' : FlowState}

theorem pendingKeys_of_lookup (hfs : t.flows.lookup h = some fs) :
    t.pendingKeys h = fs.pending.keys := by
  rw [pendingKeys, hfs, Option.map_some, Option.getD_some]

theorem mem_removedBy (hfs : t.flows.lookup h = some fs) (hfs' : t'.flows.lookup h = some fs')
    (m : UInt64) : m ∈ t.removedBy t' h ↔ m ∈ fs.pending ∧ m ∉ fs'.pending := by
  rw [removedBy, pendingKeys_of_lookup hfs, pendingKeys_of_lookup hfs', List.mem_filter,
    decide_eq_true_iff, ← AList.mem_keys, ← AList.mem_keys]

theorem removedBy_nodup (hfs : t.flows.lookup h = some fs) : (t.removedBy t' h).Nodup := by
  rw [removedBy, pendingKeys_of_lookup hfs]
  exact fs.pending.keys_nodup.filter _

end Tracker

/-! ### The invariant -/

/-- A flow and its epoch agree. -/
structure Agrees (fs : FlowState) (ep : Epoch) : Prop where
  last : fs.lastSeqNum = ep.top
  pos : 0 < ep.first
  first_mem : ep.first ∈ ep.seen
  pending : ∀ m, m ∈ fs.pending ↔
    ep.first < m ∧ m < ep.top ∧ m ∉ ep.seen ∧ m ∉ ep.removed
  nodup : ep.registered.Nodup
  registered_lt : ∀ m ∈ ep.registered, m < ep.top
  removed_lt : ∀ m ∈ ep.removed, m < ep.top

namespace Agrees

variable {fs fs' : FlowState} {ep : Epoch}

/-- The maximum of the epoch was observed. -/
theorem top_mem (h : Agrees fs ep) : ep.top ∈ ep.seen := by
  have hle := Epoch.le_top h.first_mem
  have hpos := h.pos
  rcases foldl_max_mem ep.seen 0 with hz | hmem
  · have : ep.top = 0 := hz
    grind
  · exact hmem

theorem last_ne_zero (h : Agrees fs ep) : fs.lastSeqNum ≠ 0 := by
  have hle := Epoch.le_top h.first_mem
  have hpos := h.pos
  have hlast := h.last
  grind

/-- Pending numbers are below the last one. -/
theorem lt_last (h : Agrees fs ep) {m : UInt64} (hm : m ∈ fs.pending) :
    m < fs.lastSeqNum := by
  rw [h.last]
  exact ((h.pending m).mp hm).2.1

/-- A flow at its first number, with nothing pending, starts an epoch. -/
theorem start {s : UInt64} (hs : s ≠ 0) (hlast : fs.lastSeqNum = s)
    (hpending : fs.pending = ∅) : Agrees fs (.start s) where
  last := by rw [hlast, Epoch.top_start]
  pos := by
    show 0 < s
    grind
  first_mem := List.mem_singleton_self s
  pending := by
    intro m
    rw [hpending, Epoch.top_start]
    constructor
    · intro hm
      exact absurd hm (AList.notMem_empty m)
    · rintro ⟨h₁, h₂, -, -⟩
      have : s < m := h₁
      exact absurd h₂ (by grind)
  nodup := List.nodup_nil
  registered_lt := by simp [Epoch.start]
  removed_lt := by simp [Epoch.start]

/-- A duplicate or retransmit extends the epoch without moving its maximum. -/
theorem old (h : Agrees fs ep) {s : UInt64} (hle : s ≤ fs.lastSeqNum)
    (hlast : fs'.lastSeqNum = fs.lastSeqNum) (hpending : fs'.pending = fs.pending.erase s) :
    Agrees fs' { ep with seen := ep.seen ++ [s], registered := ep.registered ++ [] } := by
  have htop : Epoch.top { ep with seen := ep.seen ++ [s], registered := ep.registered ++ [] }
      = ep.top := by
    rw [Epoch.top_snoc]
    have := h.last
    grind
  refine ⟨by rw [htop, hlast, h.last], h.pos, List.mem_append_left _ h.first_mem, ?_, ?_, ?_, ?_⟩
  · intro m
    rw [htop, hpending, AList.mem_erase, h.pending m]
    simp only [List.mem_append, List.mem_singleton]
    tauto
  · simpa using h.nodup
  · rw [htop]
    simpa using h.registered_lt
  · rw [htop]
    exact h.removed_lt

/-- Progress registers exactly the numbers it skips. -/
theorem new (h : Agrees fs ep) {s : UInt64} {new : List UInt64} (hlt : fs.lastSeqNum < s)
    (hlast : fs'.lastSeqNum = s)
    (hpending : ∀ m, m ∈ fs'.pending ↔ (fs.lastSeqNum < m ∧ m < s) ∨ m ∈ fs.pending)
    (hnd : new.Nodup) (hmem : ∀ m, m ∈ new ↔ m ∈ fs'.pending ∧ m ∉ fs.pending) :
    Agrees fs' { ep with
      seen := ep.seen ++ [s], registered := ep.registered ++ new } := by
  have htop : Epoch.top { ep with
      seen := ep.seen ++ [s], registered := ep.registered ++ new } = s := by
    rw [Epoch.top_snoc]
    have := h.last
    grind
  have hnew : ∀ m ∈ new, fs.lastSeqNum < m ∧ m < s := by
    intro m hm
    obtain ⟨hm', hnot⟩ := (hmem m).mp hm
    exact ((hpending m).mp hm').resolve_right hnot
  refine ⟨by rw [htop, hlast], h.pos, List.mem_append_left _ h.first_mem, ?_, ?_, ?_, ?_⟩
  · -- below the old maximum nothing changes; above it every number is new to the epoch
    intro m
    rw [htop, hpending, h.pending m]
    simp only [List.mem_append, List.mem_singleton]
    have hseen : m ∈ ep.seen → m ≤ fs.lastSeqNum := fun hm => h.last ▸ Epoch.le_top hm
    have hremoved : m ∈ ep.removed → m < fs.lastSeqNum := fun hm => h.last ▸ h.removed_lt m hm
    have hfirst : ep.first ≤ fs.lastSeqNum := h.last ▸ Epoch.le_top h.first_mem
    have htopm : fs.lastSeqNum ∈ ep.seen := h.last ▸ h.top_mem
    rw [← h.last]
    grind
  · refine List.Nodup.append h.nodup hnd ?_
    intro m hm hm'
    have h₁ := h.registered_lt m hm
    have h₂ := (hnew m hm').1
    have := h.last
    grind
  · intro m hm
    rw [htop]
    have := h.last
    rcases List.mem_append.mp hm with hm | hm
    · have := h.registered_lt m hm
      grind
    · exact (hnew m hm).2
  · intro m hm
    rw [htop]
    have := h.removed_lt m hm
    have := h.last
    grind

/-- Calls that thin the flow out remove what they take away from the exact set. -/
theorem thin {h : UInt64} {t t' : Tracker} (hfs : t.flows.lookup h = some fs)
    (hfs' : t'.flows.lookup h = some fs') (ha : Agrees fs ep)
    (hlast : fs'.lastSeqNum = fs.lastSeqNum)
    (hsub : ∀ m, m ∈ fs'.pending → m ∈ fs.pending) :
    Agrees fs' { ep with removed := ep.removed ++ t.removedBy t' h } := by
  have hmem := Tracker.mem_removedBy hfs hfs'
  refine ⟨hlast.trans ha.last, ha.pos, ha.first_mem, ?_, ha.nodup, ha.registered_lt, ?_⟩
  · intro m
    have hiff := ha.pending m
    have hs := hsub m
    show m ∈ fs'.pending ↔ ep.first < m ∧ m < ep.top ∧ m ∉ ep.seen ∧
      m ∉ ep.removed ++ t.removedBy t' h
    rw [List.mem_append, hmem]
    tauto
  · intro m hm
    show m < ep.top
    rcases List.mem_append.mp hm with hm | hm
    · exact ha.removed_lt m hm
    · exact ((ha.pending m).mp ((hmem m).mp hm).1).2.1

end Agrees

/-- The flow and its epoch agree, or neither exists. -/
def Tracks (flow : Option FlowState) (epoch : Option Epoch) : Prop :=
  match flow, epoch with
  | none, none => True
  | some fs, some ep => Agrees fs ep
  | _, _ => False

/-- A stamped frame moves a known flow and its epoch together. -/
theorem Agrees.arrive {cfg : TrackerConfig} {r : Recorder} {a : Arrival} {fs : FlowState}
    {ep : Epoch} {new : List UInt64} (ha : Agrees fs ep) (hs : a.seqNum ≠ 0) (hnd : new.Nodup)
    (hmem : ∀ m, m ∈ new ↔ m ∈ (fs.observe cfg a r).1.pending ∧ m ∉ fs.pending) :
    Agrees (fs.observe cfg a r).1 (Epoch.arrive cfg.resetThreshold a.seqNum new (some ep)) := by
  have h₀ := ha.last_ne_zero
  rw [Epoch.arrive, ← ha.last]
  by_cases hre : a.seqNum ≤ cfg.resetThreshold ∧ cfg.resetThreshold < fs.lastSeqNum
  · -- restart
    rw [if_pos hre, FlowState.observe_restart h₀ hre.1 hre.2]
    exact Agrees.start hs rfl rfl
  · rw [if_neg hre]
    by_cases hle : a.seqNum ≤ fs.lastSeqNum
    · -- duplicate or retransmit
      have hnew : new = [] := by
        refine List.eq_nil_iff_forall_not_mem.mpr ?_
        intro m hm
        obtain ⟨hm', hnot⟩ := (hmem m).mp hm
        rw [FlowState.observe_old h₀ hle hre] at hm'
        exact hnot (AList.mem_erase.mp hm').2
      rw [hnew, FlowState.observe_old h₀ hle hre]
      exact ha.old hle rfl rfl
    · -- progress
      have hlt : fs.lastSeqNum < a.seqNum := by grind
      rw [FlowState.observe_new h₀ hlt] at hmem ⊢
      refine ha.new hlt rfl ?_ hnd hmem
      intro m
      rw [mem_foldl_registerGap, AList.mem_erase, mem_missingSeqs hlt]
      refine or_congr_right ⟨And.right, fun hm => ⟨?_, hm⟩⟩
      have := ha.lt_last hm
      grind

/-- A stamped frame of the flow moves flow and epoch together. -/
theorem Tracks.arrive {cfg : TrackerConfig} {t : Tracker} {a : Arrival}
    {epoch : Option Epoch} (h : Tracks (t.flows.lookup a.hashKey) epoch)
    (hs : a.seqNum ≠ 0) :
    Tracks ((t.observe cfg a).flows.lookup a.hashKey)
      (some (Epoch.arrive cfg.resetThreshold a.seqNum
        (t.registeredBy (t.observe cfg a) a.hashKey) epoch)) := by
  have hobs : (t.observe cfg a).flows.lookup a.hashKey = some
      (((t.flows.lookup a.hashKey).getD (.fresh a)).observe cfg a t.recorder).1 :=
    Tracker.lookup_observe hs
  rw [hobs]
  match hf : t.flows.lookup a.hashKey, epoch with
  | none, none =>
      refine Agrees.start hs ?_ ?_
      · rw [Option.getD_none, FlowState.observe_first rfl]
      · rw [Option.getD_none, FlowState.observe_first rfl]
        rfl
  | none, some ep =>
      rw [hf] at h
      exact h.elim
  | some fs, none =>
      rw [hf] at h
      exact h.elim
  | some fs, some ep =>
      have ha : Agrees fs ep := by
        rw [hf] at h
        exact h
      have hmem := Tracker.mem_removedBy hobs hf
      rw [hf, Option.getD_some] at hmem
      exact ha.arrive hs (Tracker.removedBy_nodup hobs) hmem

/-- A call that is no stamped frame of the flow keeps the agreement. -/
theorem Tracks.thin {h : UInt64} {t t' : Tracker} {epoch : Option Epoch}
    (ha : Tracks (t.flows.lookup h) epoch)
    (hthin : Thins (t.flows.lookup h) (t'.flows.lookup h)) :
    Tracks (t'.flows.lookup h)
      (if h ∈ t'.flows then
        epoch.map fun ep => { ep with removed := ep.removed ++ t.removedBy t' h }
      else none) := by
  cases hfs' : t'.flows.lookup h with
  | none =>
      rw [if_neg (AList.lookup_eq_none.mp hfs')]
      trivial
  | some fs' =>
      obtain ⟨fs, hfs, hlast, -, hsub⟩ := hthin fs' hfs'
      rw [if_pos (AList.mem_iff_lookup.mpr ⟨fs', hfs'⟩)]
      rw [hfs] at ha
      cases epoch with
      | none => exact ha.elim
      | some ep =>
          have ha : Agrees fs ep := ha
          refine Agrees.thin hfs hfs' ha hlast ?_
          intro m hm
          obtain ⟨e', he'⟩ := AList.mem_iff_lookup.mp hm
          obtain ⟨e, he, -⟩ := hsub m e' he'
          exact AList.mem_iff_lookup.mpr ⟨e, he⟩

namespace Tracker

/-- The flow keeps what it has when a call does not concern it. -/
theorem tracks_step {cfg : TrackerConfig} {h : UInt64} {t : Tracker} {epoch : Option Epoch}
    (c : Call) (ha : Tracks (t.flows.lookup h) epoch) :
    Tracks ((t.step cfg c).flows.lookup h) (t.followEpoch cfg h c epoch) := by
  cases c with
  | observe a =>
      rw [followEpoch]
      by_cases hc : a.hashKey = h ∧ a.seqNum ≠ 0
      · obtain ⟨rfl, hs⟩ := hc
        rw [if_pos ⟨rfl, hs⟩]
        exact ha.arrive hs
      · have hsame : (t.step cfg (.observe a)).flows.lookup h = t.flows.lookup h := by
          by_cases hs : a.seqNum = 0
          · rw [step, observe, if_pos hs]
          · exact lookup_observe_of_ne fun heq => hc ⟨heq.symm, hs⟩
        rw [if_neg hc, hsame]
        exact ha
  | fill hashKey seqNum => exact ha.thin (step_thins _ h (by simp))
  | cancelGap e => exact ha.thin (step_thins _ h (by simp))
  | advanceEndpoint now e immediate n => exact ha.thin (step_thins _ h (by simp))
  | sweepOnce now ord => exact ha.thin (step_thins _ h (by simp))
  | dequeue => exact ha.thin (step_thins _ h (by simp))
  | nackDispatched groupIdx => exact ha.thin (step_thins _ h (by simp))

/-- **The run lemma**: after any calls, flow and epoch agree. -/
theorem epochAfter_tracks (cfg : TrackerConfig) (h : UInt64) (calls : List Call) :
    Tracks ((epochAfter cfg h calls).1.flows.lookup h) (epochAfter cfg h calls).2 := by
  refine Machine.run_invariant
    (P := fun p : Tracker × Option Epoch => Tracks (p.1.flows.lookup h) p.2) ?_ ?_ calls
  · exact trivial
  · rintro ⟨t, epoch⟩ c ha
    exact tracks_step c ha

theorem epochAfter_fst (cfg : TrackerConfig) (h : UInt64) (calls : List Call) :
    (epochAfter cfg h calls).1 = Tracker.after cfg calls :=
  Machine.run_withGhost _ _ _

/-- Every flow of a reachable tracker agrees with some epoch. -/
theorem exists_agrees {cfg : TrackerConfig} {calls : List Call} {h : UInt64} {fs : FlowState}
    (hfs : (Tracker.after cfg calls).flows.lookup h = some fs) : ∃ ep, Agrees fs ep := by
  have key := epochAfter_tracks cfg h calls
  rw [epochAfter_fst, hfs] at key
  match hep : (epochAfter cfg h calls).2 with
  | none =>
      rw [hep] at key
      exact key.elim
  | some ep =>
      rw [hep] at key
      exact ⟨ep, key⟩

/-- **Gap tracking is exact.** After any interleaving of calls on a new tracker, a flow
exists exactly when its history has an open epoch. Its `lastSeqNum` is then the maximum of
the epoch, its pending keys are the numbers strictly between the first and the maximum
that were not observed in the epoch, less those that other calls removed, and no number
was registered twice in the epoch. The registration loop, from any value below any other,
visits exactly the numbers between them and no increment in it wraps. -/
theorem gap_tracking_exact (cfg : TrackerConfig) (calls : List Call) (h : UInt64) :
    (match (Tracker.after cfg calls).flows.lookup h, (epochAfter cfg h calls).2 with
      | none, none => True
      | some fs, some ep =>
          (fs.lastSeqNum = ep.top ∧ fs.lastSeqNum ∈ ep.seen ∧
            ∀ s ∈ ep.seen, s ≤ fs.lastSeqNum) ∧
          (∀ m, m ∈ fs.pending ↔
            ep.first < m ∧ m < fs.lastSeqNum ∧ m ∉ ep.seen ∧ m ∉ ep.removed) ∧
          ep.registered.Nodup
      | _, _ => False) ∧
    ∀ last s : UInt64, last < s →
      (missingSeqs last s).map UInt64.toNat =
        List.range' (last.toNat + 1) (s.toNat - (last.toNat + 1)) ∧
      (last + 1).toNat = last.toNat + 1 ∧
      ∀ m ∈ missingSeqs last s, (m + 1).toNat = m.toNat + 1 := by
  constructor
  · have key := epochAfter_tracks cfg h calls
    rw [epochAfter_fst] at key
    match hf : (Tracker.after cfg calls).flows.lookup h, hep : (epochAfter cfg h calls).2 with
    | none, none => trivial
    | none, some ep =>
        rw [hf, hep] at key
        exact key
    | some fs, none =>
        rw [hf, hep] at key
        exact key
    | some fs, some ep =>
        rw [hf, hep] at key
        have ha : Agrees fs ep := key
        refine ⟨⟨ha.last, ha.last ▸ ha.top_mem, ?_⟩, ?_, ha.nodup⟩
        · intro s hs
          rw [ha.last]
          exact Epoch.le_top hs
        · rw [ha.last]
          exact ha.pending
  · intro last s hlt
    refine ⟨missingSeqs_toNat hlt, toNat_succ_of_lt hlt, ?_⟩
    intro m hm
    exact toNat_succ_of_lt ((mem_missingSeqs hlt).mp hm).2

/-! ### Answering a gap -/

/-- From `t` to `t'`, flow `h` lost the pending entry `s` and nothing else: its position
and every other entry are unchanged, and no gap was counted as unrecovered. -/
def RemovesOnlyGap (t t' : Tracker) (h s : UInt64) : Prop :=
  ∃ fs fs', t.flows.lookup h = some fs ∧ t'.flows.lookup h = some fs' ∧
    fs'.lastSeqNum = fs.lastSeqNum ∧ fs'.pending.lookup s = none ∧
    (∀ m, m ≠ s → fs'.pending.lookup m = fs.pending.lookup m) ∧
    t'.recorder.gapsUnrecovered = t.recorder.gapsUnrecovered

/-- A duplicate or retransmit gives up no gap. -/
theorem observe_old_gapsUnrecovered {cfg : TrackerConfig} {a : Arrival} {fs : FlowState}
    {r : Recorder} (h₀ : fs.lastSeqNum ≠ 0) (hle : a.seqNum ≤ fs.lastSeqNum)
    (hno : ¬ (a.seqNum ≤ cfg.resetThreshold ∧ cfg.resetThreshold < fs.lastSeqNum)) :
    (fs.observe cfg a r).2.gapsUnrecovered = r.gapsUnrecovered := by
  rw [FlowState.observe_eq_track, FlowState.track, if_neg h₀, if_pos hle, if_neg hno]
  simp only [FlowState.autoFill]
  split <;> rfl

/-- **When a retransmit answers a gap and nothing else.** In every reachable state, a
frame whose number is pending removes just that entry if and only if the number and the
flow's position do not straddle the restart threshold. -/
theorem retransmit_removes_only_iff (cfg : TrackerConfig) (calls : List Call) (a : Arrival)
    (fs : FlowState) (hfs : (Tracker.after cfg calls).flows.lookup a.hashKey = some fs)
    (hpending : a.seqNum ∈ fs.pending) :
    RemovesOnlyGap (Tracker.after cfg calls) ((Tracker.after cfg calls).observe cfg a)
        a.hashKey a.seqNum ↔
      ¬ (a.seqNum ≤ cfg.resetThreshold ∧ cfg.resetThreshold < fs.lastSeqNum) := by
  obtain ⟨ep, ha⟩ := exists_agrees hfs
  have h₀ := ha.last_ne_zero
  have hlt := ha.lt_last hpending
  have hs : a.seqNum ≠ 0 := by
    have := ((ha.pending _).mp hpending).1
    grind
  have hobs : ((Tracker.after cfg calls).observe cfg a).flows.lookup a.hashKey =
      some (fs.observe cfg a (Tracker.after cfg calls).recorder).1 := by
    rw [lookup_observe hs, hfs, Option.getD_some]
  constructor
  · rintro ⟨fs₀, fs', hfs₀, hfs', hlast, -, -, -⟩ ⟨hs', ht⟩
    obtain rfl : fs₀ = fs := Option.some.inj (hfs₀.symm.trans hfs)
    rw [hobs, FlowState.observe_restart h₀ hs' ht] at hfs'
    obtain rfl := Option.some.inj hfs'
    have : a.seqNum = fs₀.lastSeqNum := hlast
    grind
  · intro hno
    have hle : a.seqNum ≤ fs.lastSeqNum := by grind
    refine ⟨fs, _, hfs, hobs, ?_, ?_, ?_, ?_⟩
    · rw [FlowState.observe_old h₀ hle hno]
    · rw [FlowState.observe_old h₀ hle hno]
      exact AList.lookup_erase _ _
    · intro m hm
      rw [FlowState.observe_old h₀ hle hno]
      exact AList.lookup_erase_ne hm
    · rw [observe, if_neg hs, hfs, Option.getD_some]
      exact observe_old_gapsUnrecovered h₀ hle hno

/-- A flow that straddles the threshold with two open gaps, 100 and 101. -/
def straddlingCalls : List Call :=
  [.observe (arrivalAt 7 99 0), .observe (arrivalAt 7 102 1)]

/-- **A retransmit resets its flow.** Frame 100 is pending and arrives; the flow goes back
from 102 to 100 and the gap at 101 is given up. -/
theorem retransmit_resets_flow :
    100 ∈ (Tracker.after testConfig straddlingCalls).pendingKeys 7 ∧
    ¬ RemovesOnlyGap (Tracker.after testConfig straddlingCalls)
      ((Tracker.after testConfig straddlingCalls).observe testConfig (arrivalAt 7 100 2))
      7 100 := by
  refine ⟨by decide, ?_⟩
  rintro ⟨fs, fs', hfs, hfs', hlast, -, -, -⟩
  have h₁ : ((Tracker.after testConfig straddlingCalls).flows.lookup 7).map
      FlowState.lastSeqNum = some 102 := by decide
  have h₂ : (((Tracker.after testConfig straddlingCalls).observe testConfig
      (arrivalAt 7 100 2)).flows.lookup 7).map FlowState.lastSeqNum = some 100 := by decide
  rw [hfs, Option.map_some, Option.some.injEq] at h₁
  rw [hfs', Option.map_some, Option.some.injEq] at h₂
  rw [h₁, h₂] at hlast
  exact absurd hlast (by decide)

/-- The criterion at a flow that stays above the threshold: answering 102 in
101, 104 removes one entry of two. -/
theorem retransmit_removes_only_above_threshold :
    RemovesOnlyGap
      (Tracker.after testConfig [.observe (arrivalAt 7 101 0), .observe (arrivalAt 7 104 1)])
      ((Tracker.after testConfig
        [.observe (arrivalAt 7 101 0), .observe (arrivalAt 7 104 1)]).observe testConfig
          (arrivalAt 7 102 2)) 7 102 := by
  obtain ⟨fs, hfs⟩ := AList.mem_iff_lookup.mp (by decide : (7 : UInt64) ∈ (Tracker.after
    testConfig [.observe (arrivalAt 7 101 0), .observe (arrivalAt 7 104 1)]).flows)
  have hmem : (102 : UInt64) ∈ ((Tracker.after testConfig
      [.observe (arrivalAt 7 101 0), .observe (arrivalAt 7 104 1)]).flows.lookup 7).elim []
        fun fs => fs.pending.keys := by decide
  rw [hfs] at hmem
  refine (retransmit_removes_only_iff testConfig _ (arrivalAt 7 102 2) fs hfs hmem).mpr ?_
  rintro ⟨hle, -⟩
  exact absurd hle (by decide)

end Tracker

end ShardListener
