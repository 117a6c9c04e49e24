import ShardListener.Assembly
import ShardListener.KeyedList

/-!
# The Slots of the Reassembly Buffer

A run of the buffer is a list of `BufferOp`s: fragments, ticks and purges. Completing a slot
takes it out of the map and leaves its id on the eviction list until the next call that expires
slots, so map and list disagree in between. They are related through the **log of openings**
(`opens`), one entry for each slot ever opened: the ids on the list that have a slot stand in
the order of their last openings (`Queued`), and the expiry at the start of every call leaves
no other ids on it (`Compact`). So an id is never listed twice, at most one is listed without a
slot, and the slot given up for room is the one opened first.

## Main results

* `Queued.observe`, `queued_after`: the invariant, for one call and for every run.
* `slots_invariant`: what holds in every reachable state.
-/

namespace ShardListener.Reassembly

/-- A call of the reassembly buffer. -/
inductive BufferOp
  | observe (now : Time) (ff : FragFrame)
  | tick (now : Time)
  | purge

/-- The opening of a slot: its id and the time. -/
abbrev Opening := Bytes32 × Time

namespace Buffer

/-- One call. -/
def operate (cfg : Config) (sha256 : Bytes → Bytes32) (b : Buffer) : BufferOp → Buffer × List Event
  | .observe now ff => b.observe cfg sha256 now ff
  | .tick now => b.tick now
  | .purge => b.purge

/-- The slot that a call opens. -/
def opens (b : Buffer) : BufferOp → List Opening
  | .observe now ff =>
      match (b.evictExpired now).1.slots.lookup ff.txID with
      | some _ => []
      | none => if Rejected ff then [] else [(ff.txID, now)]
  | _ => []

/-- The buffer after some calls. -/
def run (cfg : Config) (sha256 : Bytes → Bytes32) (ops : List BufferOp) : Buffer :=
  Machine.run (Machine.next (operate cfg sha256)) new ops

/-- The buffer after some calls, with the log of openings. -/
def logged (cfg : Config) (sha256 : Bytes → Bytes32) (ops : List BufferOp) :
    Buffer × List Opening :=
  Machine.run (Machine.withGhost (Machine.next (operate cfg sha256))
    (fun b op log => log ++ b.opens op)) (.new, []) ops

/-- The log is carried along and changes nothing. -/
theorem logged_fst (cfg : Config) (sha256 : Bytes → Bytes32) (ops : List BufferOp) :
    (logged cfg sha256 ops).1 = run cfg sha256 ops := Machine.run_withGhost _ _ _

/-- The id has a slot. -/
def live (b : Buffer) (id : Bytes32) : Bool := (b.slots.lookup id).isSome

/-- The openings of the slots that are open, in order. -/
def openings (b : Buffer) (log : List Opening) : List Opening :=
  (log.latest Prod.fst).filter fun o => b.live o.1

/-! ### Sizes -/

section Sizes

variable {b : Buffer} {cfg : Config} {sha256 : Bytes → Bytes32} {s : Slot} {ff : FragFrame}

/-- Expiry opens no slots. -/
theorem size_foldl_expire (now : Time) (order : List Bytes32)
    (p : AssocMap Bytes32 Slot × List Event) :
    (order.foldl (expire now) p).1.size ≤ p.1.size := by
  induction order generalizing p with
  | nil => exact le_refl _
  | cons txID order ih =>
      refine (ih _).trans ?_
      rw [expire]
      split
      · exact le_refl _
      · rename_i s hs
        split
        · have := AList.size_erase_of_lookup hs
          dsimp only
          omega
        · exact le_refl _

/-- A fragment for an open slot opens none. -/
theorem size_accept (hopen : b.slots.lookup s.txID = some s) :
    (b.accept cfg sha256 s ff).1.slots.size ≤ b.slots.size := by
  rw [accept]
  cases hstore : s.store ff with
  | none => exact le_refl _
  | some s' =>
      have hid : s'.txID = s.txID := Slot.store_txID hstore
      dsimp only
      split
      · rw [hid]
        exact (AList.size_insert_of_lookup s' hopen).le
      · have := AList.size_erase_of_lookup hopen
        dsimp only
        rw [hid]
        omega

end Sizes

/-! ### The eviction list -/

/-- The buffer invariant, relative to the log of openings. -/
structure Queued (cfg : Config) (log : List Opening) (b : Buffer) : Prop extends Sound b where
  capacity : b.slots.size ≤ cfg.maxSlots
  nodup : b.insertOrder.Nodup
  order : b.insertOrder.filter b.live = (b.openings log).map Prod.fst
  dated : ∀ id s, b.slots.lookup id = some s →
    ∃ t, (id, t) ∈ log.latest Prod.fst ∧ s.deadline = t + cfg.ttl

/-- Every listed id has a slot. -/
def Compact (b : Buffer) : Prop := ∀ id ∈ b.insertOrder, b.live id = true

section Queued

variable {cfg : Config} {sha256 : Bytes → Bytes32} {log : List Opening} {b b' : Buffer}
  {now : Time} {s : Slot} {ff : FragFrame} {id : Bytes32}

/-- An id is live if it has a slot. -/
theorem live_iff : b.live id = true ↔ ∃ s, b.slots.lookup id = some s := Option.isSome_iff_exists

/-- A new buffer lists nothing, and nothing is in its log. -/
theorem Queued.new (cfg : Config) : Queued cfg [] new where
  toSound := Sound.new
  capacity := Nat.zero_le _
  nodup := List.nodup_nil
  order := rfl
  dated := fun _ _ h => (nomatch h)

/-- **Slots leave.** When the remaining slots keep their deadlines and the list keeps their ids,
the invariant is kept. -/
theorem Queued.shrink (h : Queued cfg log b) (hsound : b'.Sound)
    (hsub : ∀ id s, b'.slots.lookup id = some s →
      ∃ s₀, b.slots.lookup id = some s₀ ∧ s.deadline = s₀.deadline)
    (hsize : b'.slots.size ≤ b.slots.size) (hnodup : b'.insertOrder.Nodup)
    (horder : b'.insertOrder.filter b'.live = b.insertOrder.filter b'.live) :
    Queued cfg log b' where
  toSound := hsound
  capacity := hsize.trans h.capacity
  nodup := hnodup
  order := by
    have hlive : ∀ id, b'.live id = true → b.live id = true := by
      intro id hid
      obtain ⟨s, hs⟩ := live_iff.mp hid
      obtain ⟨s₀, hs₀, -⟩ := hsub id s hs
      exact live_iff.mpr ⟨s₀, hs₀⟩
    have hlist : b.insertOrder.filter b'.live = (b.insertOrder.filter b.live).filter b'.live := by
      rw [List.filter_filter]
      refine List.filter_congr fun id _ => ?_
      cases hid : b'.live id with
      | false => rw [Bool.false_and]
      | true => rw [hlive id hid, Bool.true_and]
    have hopen : b'.openings log = (b.openings log).filter fun o => b'.live o.1 := by
      rw [openings, openings, List.filter_filter]
      refine List.filter_congr fun o _ => ?_
      cases ho : b'.live o.1 with
      | false => rw [Bool.false_and]
      | true => rw [hlive o.1 ho, Bool.true_and]
    rw [horder, hlist, h.order, hopen, List.filter_map]
    rfl
  dated := by
    intro id s hs
    obtain ⟨s₀, hs₀, hdead⟩ := hsub id s hs
    obtain ⟨t, ht, hdate⟩ := h.dated id s₀ hs₀
    exact ⟨t, ht, hdead.trans hdate⟩

/-- Expiry drops from the list what has no slot any more. -/
theorem compact_evictExpired (b : Buffer) (now : Time) : Compact (b.evictExpired now).1 :=
  fun _ hid => (List.mem_filter.mp hid).2

/-- Slots that have expired leave, and the others keep their order. -/
theorem Queued.evictExpired (h : Queued cfg log b) (now : Time) :
    Queued cfg log (b.evictExpired now).1 := by
  refine h.shrink (h.toSound.evictExpired now) ?_ (size_foldl_expire now _ _) (h.nodup.filter _) ?_
  · intro id s hs
    exact ⟨s, lookup_of_lookup_evictExpired hs, rfl⟩
  · show (b.insertOrder.filter (b.evictExpired now).1.live).filter (b.evictExpired now).1.live =
      b.insertOrder.filter (b.evictExpired now).1.live
    rw [List.filter_filter]
    exact List.filter_congr fun id _ => Bool.and_self _

/-- **The slot that is given up for room** is the first one in the log that is open. -/
theorem Queued.evictOldest (h : Queued cfg log b) (hsome : 0 < b.slots.size) :
    ∃ oldest rest, b.openings log = oldest :: rest ∧
      b.evictOldest =
        (⟨b.slots.erase oldest.1, b.insertOrder.erase oldest.1⟩, [.abandoned]) ∧
      (b.slots.erase oldest.1).size + 1 = b.slots.size := by
  have hfind : b.insertOrder.find? (fun id => (b.slots.lookup id).isSome) =
      ((b.openings log).map Prod.fst).head? := by
    rw [← h.order, List.head?_filter]
    rfl
  cases hopen : b.openings log with
  | nil =>
      -- a slot is listed, so the list of openings is not empty
      exfalso
      obtain ⟨⟨id, s⟩, hmem⟩ := List.exists_mem_of_length_pos hsome
      have hs : b.slots.lookup id = some s := AList.mem_lookup_iff.mpr hmem
      have hlisted : id ∈ b.insertOrder.filter b.live :=
        List.mem_filter.mpr ⟨h.listed id s hs, live_iff.mpr ⟨s, hs⟩⟩
      rw [h.order, hopen] at hlisted
      cases hlisted
  | cons oldest rest =>
      have hlive : b.live oldest.1 = true := by
        have hmem : oldest ∈ b.openings log := hopen ▸ List.mem_cons_self
        exact (List.mem_filter.mp hmem).2
      obtain ⟨s, hs⟩ := live_iff.mp hlive
      refine ⟨oldest, rest, rfl, ?_, AList.size_erase_of_lookup hs⟩
      rw [Buffer.evictOldest, hfind, hopen]
      rfl

/-- Making room leaves a slot free, and lists nothing new. -/
theorem Queued.makeRoom (h : Queued cfg log b) :
    Queued cfg log (b.makeRoom cfg).1 ∧ (b.makeRoom cfg).1.slots.size < cfg.maxSlots ∧
      (b.makeRoom cfg).1.insertOrder ⊆ b.insertOrder := by
  have hsound : (b.makeRoom cfg).1.Sound := h.toSound.makeRoom
  rw [Buffer.makeRoom] at hsound ⊢
  by_cases hfull : cfg.maxSlots ≤ b.slots.size
  · rw [if_pos hfull] at hsound ⊢
    obtain ⟨oldest, rest, -, heq, hsize⟩ :=
      h.evictOldest (lt_of_lt_of_le cfg.maxSlots_pos hfull)
    rw [heq] at hsound ⊢
    have hcap := h.capacity
    refine ⟨h.shrink hsound ?_ ?_ (h.nodup.erase _) ?_, ?_, List.erase_subset⟩
    · intro id s hs
      exact ⟨s, AList.lookup_of_lookup_erase hs, rfl⟩
    · dsimp only
      omega
    · dsimp only
      rw [h.nodup.erase_eq_filter, List.filter_filter]
      refine List.filter_congr fun id _ => ?_
      by_cases hid : id = oldest.1
      · subst hid
        simp [live]
      · simp [hid]
    · dsimp only
      omega
  · rw [if_neg hfull] at hsound ⊢
    exact ⟨h, not_le.mp hfull, fun _ hid => hid⟩

variable (now) in
/-- **A slot is opened.** -/
theorem Queued.openSlot (h : Queued cfg log b) (hroom : b.slots.size < cfg.maxSlots)
    (hlisted : ff.txID ∉ b.insertOrder) (hok : ¬ Rejected ff) :
    Queued cfg (log ++ [(ff.txID, now)]) (b.openSlot (Slot.new cfg.ttl now ff)) := by
  have hnone : b.slots.lookup ff.txID = none := by
    by_contra hsome
    obtain ⟨s, hs⟩ := Option.ne_none_iff_exists'.mp hsome
    exact hlisted (h.listed _ s hs)
  have hlookup : ∀ id, (b.openSlot (Slot.new cfg.ttl now ff)).slots.lookup id =
      if id = ff.txID then some (Slot.new cfg.ttl now ff) else b.slots.lookup id :=
    fun id => AList.lookup_insert_ite _ _ _ _
  have hlive : ∀ id, id ≠ ff.txID →
      (b.openSlot (Slot.new cfg.ttl now ff)).live id = b.live id := by
    intro id hid
    rw [live, hlookup, if_neg hid]
    rfl
  have hself : (b.openSlot (Slot.new cfg.ttl now ff)).live ff.txID = true := by
    rw [live, hlookup, if_pos rfl]
    rfl
  have hdead : b.live ff.txID = false := by
    rw [live, hnone]
    rfl
  refine ⟨h.toSound.openSlot (new_waiting hok), ?_, ?_, ?_, ?_⟩
  · exact (AList.size_insert_of_lookup_none _ hnone).trans_le hroom
  · refine List.nodup_append.mpr ⟨h.nodup, List.nodup_singleton _, ?_⟩
    intro id hid id' hid'
    obtain rfl := List.mem_singleton.mp hid'
    rintro rfl
    exact hlisted hid
  · -- the new slot is the last one on the list and in the log
    have hlist : b.insertOrder.filter (b.openSlot (Slot.new cfg.ttl now ff)).live =
        b.insertOrder.filter b.live :=
      List.filter_congr fun id hid => hlive id fun heq => hlisted (heq ▸ hid)
    have hopen : (b.openSlot (Slot.new cfg.ttl now ff)).openings (log ++ [(ff.txID, now)]) =
        b.openings log ++ [(ff.txID, now)] := by
      have hnew : [(ff.txID, now)].filter (fun o : Opening =>
          (b.openSlot (Slot.new cfg.ttl now ff)).live o.1) = [(ff.txID, now)] :=
        List.filter_cons_of_pos hself
      rw [openings, List.latest_append_singleton, List.filter_append, List.filter_filter, openings,
        hnew]
      congr 1
      refine List.filter_congr fun o _ => ?_
      by_cases ho : o.1 = ff.txID
      · simp [ho, hdead]
      · simp [ho, hlive o.1 ho]
    rw [hopen, List.map_append, ← h.order]
    show (b.insertOrder ++ [ff.txID]).filter _ = _
    rw [List.filter_append, hlist, List.filter_cons_of_pos hself]
    rfl
  · intro id s hs
    rw [hlookup] at hs
    rw [List.latest_append_singleton]
    split at hs
    · rename_i hid
      obtain rfl := Option.some.inj hs
      subst hid
      exact ⟨now, List.mem_append_right _ List.mem_cons_self, rfl⟩
    · rename_i hid
      obtain ⟨t, ht, hdate⟩ := h.dated id s hs
      exact ⟨t, List.mem_append_left _ (List.mem_filter.mpr ⟨ht, by simpa using hid⟩), hdate⟩

/-- A fragment is stored, or completes its slot. -/
theorem Queued.accept (h : Queued cfg log b) (hopen : b.slots.lookup s.txID = some s) :
    Queued cfg log (b.accept cfg sha256 s ff).1 := by
  refine h.shrink (h.toSound.accept hopen) ?_ (size_accept hopen) ?_ ?_
  · intro id s' hs'
    by_cases hid : id = s.txID
    · subst hid
      rw [lookup_accept_self hopen] at hs'
      refine ⟨s, hopen, ?_⟩
      rcases Slot.next_eq_some hs' with ⟨-, rfl⟩ | ⟨hstore, -⟩
      · rfl
      · obtain ⟨-, -, -, _, _, rfl⟩ := Slot.store_eq_some hstore
        rfl
    · rw [lookup_accept_of_ne hid] at hs'
      exact ⟨s', hs', rfl⟩
  · rw [accept_insertOrder]
    exact h.nodup
  · rw [accept_insertOrder]

/-- At most one listed id has no slot. -/
def Tidy (b : Buffer) : Prop := ∀ id ∈ b.insertOrder, ∀ id' ∈ b.insertOrder,
  b.slots.lookup id = none → b.slots.lookup id' = none → id = id'

/-- A compact list has no id without a slot, so not two. -/
theorem Compact.tidy (h : Compact b) : Tidy b := by
  intro id hid id' _ hnone
  obtain ⟨s, hs⟩ := live_iff.mp (h id hid)
  rw [hnone] at hs
  cases hs

/-- Only the slot that a fragment completes leaves its id behind. -/
theorem Compact.accept (h : Compact b) : Tidy (b.accept cfg sha256 s ff).1 := by
  have hkey : ∀ id ∈ b.insertOrder, (b.accept cfg sha256 s ff).1.slots.lookup id = none →
      id = s.txID := by
    intro id hid hnone
    by_contra hne
    obtain ⟨s', hs'⟩ := live_iff.mp (h id hid)
    rw [lookup_accept_of_ne hne, hs'] at hnone
    cases hnone
  intro id hid id' hid' hnone hnone'
  rw [accept_insertOrder] at hid hid'
  rw [hkey id hid hnone, hkey id' hid' hnone']

/-- The id of the slot that is given up for room is dropped from the list. -/
theorem Compact.makeRoom (h : Compact b) (hq : Queued cfg log b) :
    Compact (b.makeRoom cfg).1 := by
  intro id hid
  rw [Buffer.makeRoom] at hid ⊢
  by_cases hfull : cfg.maxSlots ≤ b.slots.size
  · rw [if_pos hfull] at hid ⊢
    obtain ⟨oldest, rest, -, heq, -⟩ := hq.evictOldest (lt_of_lt_of_le cfg.maxSlots_pos hfull)
    rw [heq] at hid ⊢
    obtain ⟨hne, hid⟩ := (hq.nodup.mem_erase_iff).mp hid
    rw [live, AList.lookup_erase_ne hne]
    exact h id hid
  · rw [if_neg hfull] at hid ⊢
    exact h id hid

/-- A new slot is listed with its id. -/
theorem Compact.openSlot (h : Compact b) (s : Slot) : Compact (b.openSlot s) := by
  intro id hid
  rw [live, Buffer.openSlot, AList.lookup_insert_ite]
  split
  · rfl
  · rename_i hne
    rcases List.mem_append.mp hid with hold | hnew
    · exact h id hold
    · exact absurd (List.mem_singleton.mp hnew) hne

variable (sha256) in
/-- **The step lemma for a fragment.** -/
theorem Queued.observe (h : Queued cfg log b) (now : Time) (ff : FragFrame) :
    Queued cfg (log ++ b.opens (.observe now ff)) (b.observe cfg sha256 now ff).1 ∧
      Tidy (b.observe cfg sha256 now ff).1 := by
  have hexp := h.evictExpired now
  have hcompact := compact_evictExpired b now
  rw [opens, Buffer.observe]
  dsimp only
  cases hs : (b.evictExpired now).1.slots.lookup ff.txID with
  | some s =>
      have hid : s.txID = ff.txID := hexp.keyed _ _ hs
      dsimp only
      rw [List.append_nil]
      rw [← hid] at hs
      exact ⟨hexp.accept hs, hcompact.accept⟩
  | none =>
      dsimp only
      by_cases hrej : Rejected ff
      · rw [if_pos hrej, if_pos hrej, List.append_nil]
        exact ⟨hexp, hcompact.tidy⟩
      · rw [if_neg hrej, if_neg hrej]
        obtain ⟨hroom, hsize, hsub⟩ := hexp.makeRoom
        have hlisted : ff.txID ∉ (b.evictExpired now).1.insertOrder := by
          intro hmem
          obtain ⟨s, hs'⟩ := live_iff.mp (hcompact _ hmem)
          rw [hs] at hs'
          cases hs'
        have hopened := hroom.openSlot now hsize (fun hmem => hlisted (hsub hmem)) hrej
        have hself : (((b.evictExpired now).1.makeRoom cfg).1.openSlot
            (Slot.new cfg.ttl now ff)).slots.lookup (Slot.new cfg.ttl now ff).txID =
              some (Slot.new cfg.ttl now ff) := AList.lookup_insert _
        exact ⟨hopened.accept hself, ((hcompact.makeRoom hexp).openSlot _).accept⟩

/-- **The step lemma**: every call keeps the invariant, and logs what it opens. -/
theorem Queued.operate (h : Queued cfg log b) (op : BufferOp) :
    Queued cfg (log ++ b.opens op) (b.operate cfg sha256 op).1 ∧
      Tidy (b.operate cfg sha256 op).1 := by
  cases op with
  | observe now ff => exact h.observe sha256 now ff
  | tick now =>
      have hopens : log ++ b.opens (.tick now) = log := List.append_nil log
      rw [hopens]
      exact ⟨h.evictExpired now, (compact_evictExpired b now).tidy⟩
  | purge =>
      have hopens : log ++ b.opens .purge = log := List.append_nil log
      have hempty : (b.operate cfg sha256 .purge).1.openings log = [] :=
        List.filter_eq_nil_iff.mpr fun _ _ => Bool.false_ne_true
      rw [hopens]
      refine ⟨⟨Sound.new, Nat.zero_le _, List.nodup_nil, ?_, fun _ _ h => (nomatch h)⟩,
        fun _ h => (nomatch h)⟩
      rw [hempty]
      rfl

/-- **The run lemma**: the invariant holds after any calls. -/
theorem queued_after (cfg : Config) (sha256 : Bytes → Bytes32) (ops : List BufferOp) :
    Queued cfg (logged cfg sha256 ops).2 (logged cfg sha256 ops).1 ∧
      Tidy (logged cfg sha256 ops).1 := by
  refine Machine.run_invariant
    (P := fun p : Buffer × List Opening => Queued cfg p.2 p.1 ∧ Tidy p.1) ?_ ?_ ops
  · exact ⟨.new cfg, fun _ h => (nomatch h)⟩
  · rintro ⟨b, log⟩ op ⟨h, -⟩
    exact h.operate op

end Queued

/-- The slot a fragment meets has a place for every index that passes the checks. -/
theorem index_in_range {s : Slot} {ff : FragFrame} (h : ff.fragIndex < s.fragTotal) :
    ff.fragIndex.toNat < s.frags.length := by
  rw [s.frags_length]
  exact h

/-- **The invariant of the buffer**, after any calls. The number of slots is bounded; every slot
is stored under its id, listed, consistent, incomplete, and dated by its last opening; no id is
listed twice, those with a slot are listed in the order of their openings, and at most one is
listed without; a full buffer gives up exactly one slot, the one opened first; and no fragment
is stored outside of its slot's places. -/
theorem slots_invariant (cfg : Config) (sha256 : Bytes → Bytes32) (ops : List BufferOp) (b : Buffer)
    (log : List Opening) (hrun : logged cfg sha256 ops = (b, log)) :
    b.len ≤ cfg.maxSlots ∧
    (∀ id s, b.slots.lookup id = some s → s.txID = id ∧ id ∈ b.insertOrder ∧
      s.frags.length = s.fragTotal.toNat ∧ 1 ≤ s.fragTotal.toNat ∧
      s.received.toNat = s.frags.countP Option.isSome ∧ s.received < s.fragTotal ∧
      ∃ t, (id, t) ∈ b.openings log ∧ s.deadline = t + cfg.ttl) ∧
    b.insertOrder.Nodup ∧
    b.insertOrder.filter b.live = (b.openings log).map Prod.fst ∧
    (∀ id ∈ b.insertOrder, ∀ id' ∈ b.insertOrder,
      b.slots.lookup id = none → b.slots.lookup id' = none → id = id') ∧
    (∀ now, cfg.maxSlots ≤ (b.evictExpired now).1.len →
      ∃ oldest rest, (b.evictExpired now).1.openings log = oldest :: rest ∧
        ((b.evictExpired now).1.makeRoom cfg).1.slots =
          (b.evictExpired now).1.slots.erase oldest.1 ∧
        ((b.evictExpired now).1.makeRoom cfg).1.len + 1 = (b.evictExpired now).1.len ∧
        ((b.evictExpired now).1.makeRoom cfg).2 = [.abandoned]) ∧
    ∀ now ff s, b.slotFor cfg now ff = some s → ff.fragIndex < s.fragTotal →
      ff.fragIndex.toNat < s.frags.length := by
  obtain ⟨hq, htidy⟩ := queued_after cfg sha256 ops
  rw [hrun] at hq htidy
  refine ⟨hq.capacity, ?_, hq.nodup, hq.order, htidy, ?_, fun _ _ _ _ => index_in_range⟩
  · intro id s hs
    have hwait := hq.waiting id s hs
    obtain ⟨t, ht, hdate⟩ := hq.dated id s hs
    refine ⟨hq.keyed id s hs, hq.listed id s hs, s.frags_length, ?_, s.received_eq, hwait, t, ?_,
      hdate⟩
    · exact Nat.lt_of_le_of_lt (Nat.zero_le _) (UInt16.lt_iff_toNat_lt.mp hwait)
    · exact List.mem_filter.mpr ⟨ht, live_iff.mpr ⟨s, hs⟩⟩
  · intro now hfull
    obtain ⟨oldest, rest, hopen, heq, hsize⟩ :=
      (hq.evictExpired now).evictOldest (lt_of_lt_of_le cfg.maxSlots_pos hfull)
    have hroom : (b.evictExpired now).1.makeRoom cfg =
        (⟨(b.evictExpired now).1.slots.erase oldest.1,
          (b.evictExpired now).1.insertOrder.erase oldest.1⟩, [.abandoned]) :=
      (if_pos hfull).trans heq
    rw [hroom]
    exact ⟨oldest, rest, hopen, rfl, hsize, rfl⟩

/-- A buffer with room for one slot gives it up. -/
theorem slots_invariant_full :
    ((run (.new 1 second false true true true) (fun _ => Bytes32.ofByte 0)
      [.observe 0 (subtreeFrag 1 0 [0xA0])]).makeRoom
        (.new 1 second false true true true)).1.slots = ∅ := by
  obtain ⟨-, -, -, -, -, hroom, -⟩ := slots_invariant (.new 1 second false true true true)
    (fun _ => Bytes32.ofByte 0) [.observe 0 (subtreeFrag 1 0 [0xA0])] _ _ rfl
  obtain ⟨oldest, rest, hopen, hslots, -⟩ := hroom 0 (by decide)
  obtain ⟨rfl, -⟩ := List.cons.inj hopen
  exact hslots

end Buffer

end ShardListener.Reassembly
