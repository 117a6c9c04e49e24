import ShardListener.Slots

/-!
# Every Slot Leaves the Buffer Once

The buffer calls a hook when it opens a slot, and a hook or callback when a slot leaves: given up
by expiry, for room or by a purge, dropped with a bad hash, or completed. The calls do not say
which slot they are about, so we label them with its id (`trace`); leaving the labels out gives
back the calls (`trace_events`).

With the labels each call is a `turn` of the slot of its id: it opens a slot that is not open, or
closes one that is. The bookkeeping of a part of an operation (`Accounts`) composes, and counts
the slots at the same time.

## Main results

* `accounts_operate`: every call of the buffer only makes turns.
* `slots_accounted`: as many slots were opened as have left or are open, and none left twice.
-/

namespace ShardListener.Reassembly

/-- A hook or callback call, with the id of the slot it is about. -/
abbrev Labelled := Bytes32 × Event

/-- What an event does to the slot of its id: `started` opens it, any other closes it. -/
def turn : Bool → Event → Option Bool
  | false, .started => some true
  | true, .started => none
  | false, _ => none
  | true, _ => some false

/-- Every event but `started` closes a slot that is open. -/
theorem turn_of_ne {e : Event} (he : e ≠ .started) (isOpen : Bool) :
    turn isOpen e = if isOpen then some false else none := by
  cases e with
  | started => exact absurd rfl he
  | abandoned => cases isOpen <;> rfl
  | hashMismatch => cases isOpen <;> rfl
  | complete f => cases isOpen <;> rfl
  | completeBlock bf => cases isOpen <;> rfl
  | completeSubtree sf => cases isOpen <;> rfl

/-- The events of one id. -/
def eventsOf (id : Bytes32) (tr : List Labelled) : List Event :=
  (tr.filter fun p => p.1 = id).map Prod.snd

/-- The events of one id, part by part. -/
theorem eventsOf_append (id : Bytes32) (tr tr' : List Labelled) :
    eventsOf id (tr ++ tr') = eventsOf id tr ++ eventsOf id tr' := by
  rw [eventsOf, List.filter_append, List.map_append]
  rfl

/-- **The ledger**: the events turn the slots of `m` into those of `m'`, one slot each. -/
structure Accounts (m : AssocMap Bytes32 Slot) (tr : List Labelled) (m' : AssocMap Bytes32 Slot) :
    Prop where
  turns : ∀ id, (eventsOf id tr).foldlM turn (m.lookup id).isSome = some (m'.lookup id).isSome
  balance : tr.countP (fun p => p.2 = .started) + m.size =
    tr.countP (fun p => p.2 ≠ .started) + m'.size

section Accounts

variable {m m' m'' : AssocMap Bytes32 Slot} {tr tr' : List Labelled} {id : Bytes32} {s s' : Slot}
  {e : Event}

/-- Nothing happens and no slot changes. -/
theorem Accounts.refl (m : AssocMap Bytes32 Slot) : Accounts m [] m := ⟨fun _ => rfl, rfl⟩

/-- Two ledgers, one after the other. -/
theorem Accounts.trans (h : Accounts m tr m') (h' : Accounts m' tr' m'') :
    Accounts m (tr ++ tr') m'' where
  turns := by
    intro id
    rw [eventsOf_append, List.foldlM_append, h.turns id]
    exact h'.turns id
  balance := by
    have := h.balance
    have := h'.balance
    rw [List.countP_append, List.countP_append]
    omega

/-- A slot is rewritten. -/
theorem Accounts.rewritten (hs : m.lookup id = some s) (s' : Slot) :
    Accounts m [] (m.insert id s') where
  turns := by
    intro id'
    rw [AList.lookup_insert_ite]
    split
    · rename_i hid
      subst hid
      rw [hs]
      rfl
    · rfl
  balance := by
    rw [AList.size_insert_of_lookup s' hs]
    rfl

/-- A single event is one of its own id. -/
theorem eventsOf_singleton (id' : Bytes32) :
    eventsOf id' [(id, e)] = if id' = id then [e] else [] := by
  by_cases hid : id' = id
  · subst hid
    simp [eventsOf]
  · simp [eventsOf, hid, Ne.symm hid]

/-- A slot is opened. -/
theorem Accounts.opened (hnone : m.lookup id = none) (s : Slot) :
    Accounts m [(id, .started)] (m.insert id s) where
  turns := by
    intro id'
    rw [AList.lookup_insert_ite, eventsOf_singleton]
    split
    · rename_i hid
      subst hid
      rw [hnone]
      rfl
    · rfl
  balance := by
    rw [AList.size_insert_of_lookup_none s hnone]
    simp [Nat.add_comm]

/-- A slot leaves. -/
theorem Accounts.closed (hs : m.lookup id = some s) (he : e ≠ .started) :
    Accounts m [(id, e)] (m.erase id) where
  turns := by
    intro id'
    rw [AList.lookup_erase_ite, eventsOf_singleton]
    split
    · rename_i hid
      subst hid
      rw [hs]
      exact congrArg (fun o => o.bind fun b => some b) (turn_of_ne he true)
    · rfl
  balance := by
    have := AList.size_erase_of_lookup hs
    simp only [List.countP_singleton, he, decide_false, Bool.false_eq_true, if_false, ne_eq,
      not_false_eq_true, decide_true, if_true]
    omega

/-- When some ids are given up, each of them is given up once. -/
theorem eventsOf_abandoned {ids : List Bytes32} (hnd : ids.Nodup) (id : Bytes32) :
    eventsOf id (ids.map fun id => (id, .abandoned)) = if id ∈ ids then [.abandoned] else [] := by
  induction ids with
  | nil => rfl
  | cons x ids ih =>
      obtain ⟨hx, hnd⟩ := List.nodup_cons.mp hnd
      rw [List.map_cons, ← List.singleton_append, eventsOf_append, eventsOf_singleton, ih hnd]
      by_cases hid : id = x
      · subst hid
        simp [hx]
      · simp [hid]

/-- All slots leave. -/
theorem Accounts.cleared (m : AssocMap Bytes32 Slot) :
    Accounts m (m.keys.map fun id => (id, .abandoned)) ∅ where
  turns := by
    intro id
    rw [eventsOf_abandoned m.keys_nodup]
    split
    · rename_i hid
      obtain ⟨s, hs⟩ := AList.mem_iff_lookup.mp (AList.mem_keys.mpr hid)
      rw [hs]
      rfl
    · rename_i hid
      rw [AList.lookup_eq_none.mpr fun hmem => hid (AList.mem_keys.mp hmem)]
      rfl
  balance := by
    simp [List.countP_map, Function.comp_def, AList.keys, List.keys, AList.size]

end Accounts

/-- All callbacks are set. -/
def Config.AllSet (cfg : Config) : Prop :=
  cfg.onComplete = true ∧ cfg.onCompleteBlock = true ∧ cfg.onCompleteSubtree = true

namespace Buffer

variable (cfg : Config) (sha256 : Bytes → Bytes32)

/-! ### The labels -/

/-- The slots that the expiry loop gives up. -/
def expiries (now : Time) : AssocMap Bytes32 Slot → List Bytes32 → List Labelled
  | _, [] => []
  | m, txID :: order =>
      match m.lookup txID with
      | none => expiries now m order
      | some s =>
          if s.deadline < now then (txID, .abandoned) :: expiries now (m.erase txID) order
          else expiries now m order

/-- The slot that is given up for room. -/
def displaced (b : Buffer) : List Labelled :=
  if cfg.maxSlots ≤ b.slots.size then
    match b.insertOrder.find? fun txID => (b.slots.lookup txID).isSome with
    | none => []
    | some txID => [(txID, .abandoned)]
  else []

/-- The slot that a fragment completes. -/
def completed (b : Buffer) (s : Slot) (ff : FragFrame) : List Labelled :=
  (b.accept cfg sha256 s ff).2.map fun e => (s.txID, e)

/-- The hook and callback calls of an operation, with the id of the slot. -/
def trace (b : Buffer) : BufferOp → List Labelled
  | .observe now ff =>
      expiries now b.slots b.insertOrder ++
        match (b.evictExpired now).1.slots.lookup ff.txID with
        | some s => (b.evictExpired now).1.completed cfg sha256 s ff
        | none =>
            if Rejected ff then []
            else
              (b.evictExpired now).1.displaced cfg ++ (ff.txID, .started) ::
                (((b.evictExpired now).1.makeRoom cfg).1.openSlot
                  (Slot.new cfg.ttl now ff)).completed cfg sha256 (Slot.new cfg.ttl now ff) ff
  | .tick now => expiries now b.slots b.insertOrder
  | .purge => b.slots.keys.map fun id => (id, .abandoned)

variable {cfg sha256} {b : Buffer} {s : Slot} {ff : FragFrame}

/-! Without the labels these are the events. -/

/-- The expiry loop calls the hook for each of the slots it gives up. -/
theorem events_expiries (now : Time) (order : List Bytes32)
    (p : AssocMap Bytes32 Slot × List Event) :
    (order.foldl (expire now) p).2 = p.2 ++ (expiries now p.1 order).map Prod.snd := by
  induction order generalizing p with
  | nil => exact (List.append_nil _).symm
  | cons txID order ih =>
      rw [List.foldl_cons, ih, expire, expiries]
      cases p.1.lookup txID with
      | none => rfl
      | some s =>
          dsimp only
          split
          · rw [List.map_cons, List.append_assoc]
            rfl
          · rfl

/-- Making room calls the hook for the slot it gives up. -/
theorem events_displaced : (b.displaced cfg).map Prod.snd = (b.makeRoom cfg).2 := by
  rw [displaced, makeRoom, evictOldest]
  split
  · cases b.insertOrder.find? fun txID => (b.slots.lookup txID).isSome <;> rfl
  · rfl

/-- A fragment that fills its slot causes the calls of that slot. -/
theorem events_completed :
    (b.completed cfg sha256 s ff).map Prod.snd = (b.accept cfg sha256 s ff).2 := by
  rw [completed, List.map_map]
  exact List.map_id _

/-- **The labels are an addition**: without them the trace is what the operation emits. -/
theorem trace_events (b : Buffer) (op : BufferOp) :
    (b.trace cfg sha256 op).map Prod.snd = (b.operate cfg sha256 op).2 := by
  have hexp : ∀ now, (expiries now b.slots b.insertOrder).map Prod.snd = (b.evictExpired now).2 :=
    fun now => (events_expiries now b.insertOrder (b.slots, [])).symm
  cases op with
  | observe now ff =>
      rw [trace, operate, observe, List.map_append, hexp]
      dsimp only
      cases (b.evictExpired now).1.slots.lookup ff.txID with
      | some s => rw [events_completed]
      | none =>
          dsimp only
          split
          · exact List.append_nil _
          · rw [List.map_append, List.map_cons, events_displaced, events_completed,
              List.append_assoc]
  | tick now => exact hexp now
  | purge =>
      have hlen : b.slots.keys.length = b.slots.size := List.length_map _
      rw [trace, operate, purge, List.map_map, ← hlen]
      exact List.map_const'

/-! ### The ledger of an operation -/

/-- The expiry loop closes the slots it gives up, and no other. -/
theorem accounts_expiries (now : Time) (order : List Bytes32)
    (p : AssocMap Bytes32 Slot × List Event) :
    Accounts p.1 (expiries now p.1 order) (order.foldl (expire now) p).1 := by
  induction order generalizing p with
  | nil => exact .refl _
  | cons txID order ih =>
      have hrest := ih (expire now p txID)
      rw [List.foldl_cons, expiries]
      cases hs : p.1.lookup txID with
      | none =>
          simp only [expire, hs] at hrest ⊢
          exact hrest
      | some s =>
          by_cases hdead : s.deadline < now
          · simp only [expire, hs, if_pos hdead] at hrest ⊢
            exact (Accounts.closed (e := .abandoned) hs (by simp)).trans hrest
          · simp only [expire, hs, if_neg hdead] at hrest ⊢
            exact hrest

/-- Making room closes one slot at most. -/
theorem accounts_displaced : Accounts b.slots (b.displaced cfg) (b.makeRoom cfg).1.slots := by
  rw [displaced, makeRoom, evictOldest]
  split
  · cases hfind : b.insertOrder.find? fun txID => (b.slots.lookup txID).isSome with
    | none => exact .refl _
    | some txID =>
        have hlive : (b.slots.lookup txID).isSome = true := by
          have := List.find?_some hfind
          exact this
        obtain ⟨s, hs⟩ := Option.isSome_iff_exists.mp hlive
        exact .closed hs (by simp)
  · exact .refl _

variable (sha256) in
/-- With all callbacks set, a full slot causes one call. -/
theorem complete_eq_singleton (hall : cfg.AllSet) (s : Slot) :
    ∃ e, s.complete cfg sha256 = [e] ∧ e ≠ .started := by
  obtain ⟨hcomplete, hblock, hsubtree⟩ := hall
  rw [Slot.complete]
  by_cases hV4 : s.origFrameVer = frameVerV4
  · rw [if_pos hV4, if_pos hblock]
    exact ⟨_, rfl, by simp⟩
  by_cases hV5 : s.origFrameVer = frameVerV5
  · rw [if_neg hV4, if_pos hV5, if_pos hsubtree]
    exact ⟨_, rfl, by simp⟩
  rw [if_neg hV4, if_neg hV5, if_pos hcomplete]
  split
  · exact ⟨_, rfl, by simp⟩
  · exact ⟨_, rfl, by simp⟩

variable (sha256 ff) in
/-- A fragment closes its slot when it fills it, and rewrites it otherwise. -/
theorem accounts_completed (hall : cfg.AllSet) (hopen : b.slots.lookup s.txID = some s) :
    Accounts b.slots (b.completed cfg sha256 s ff) (b.accept cfg sha256 s ff).1.slots := by
  rw [completed, accept]
  cases hstore : s.store ff with
  | none => exact .refl _
  | some s' =>
      have hid : s'.txID = s.txID := Slot.store_txID hstore
      dsimp only
      rw [hid]
      split
      · exact .rewritten hopen s'
      · obtain ⟨e, he, hne⟩ := complete_eq_singleton sha256 hall s'
        dsimp only
        rw [he]
        exact .closed hopen hne

/-- **The ledger of one call.** -/
theorem accounts_operate (hall : cfg.AllSet) (hsound : b.Sound) (op : BufferOp) :
    Accounts b.slots (b.trace cfg sha256 op) (b.operate cfg sha256 op).1.slots := by
  have hexp : ∀ now, Accounts b.slots (expiries now b.slots b.insertOrder)
      (b.evictExpired now).1.slots := fun now => accounts_expiries now b.insertOrder (b.slots, [])
  cases op with
  | observe now ff =>
      rw [trace, operate, observe]
      refine (hexp now).trans ?_
      dsimp only
      cases hs : (b.evictExpired now).1.slots.lookup ff.txID with
      | some s =>
          have hid : s.txID = ff.txID := (hsound.evictExpired now).keyed _ _ hs
          exact accounts_completed sha256 ff hall (hid ▸ hs)
      | none =>
          dsimp only
          by_cases hrej : Rejected ff
          · rw [if_pos hrej, if_pos hrej]
            exact .refl _
          · rw [if_neg hrej, if_neg hrej]
            have hnone : ((b.evictExpired now).1.makeRoom cfg).1.slots.lookup ff.txID = none := by
              by_contra hsome
              obtain ⟨s, hs'⟩ := Option.ne_none_iff_exists'.mp hsome
              rw [lookup_of_lookup_makeRoom hs'] at hs
              cases hs
            have hself : (((b.evictExpired now).1.makeRoom cfg).1.openSlot
                (Slot.new cfg.ttl now ff)).slots.lookup (Slot.new cfg.ttl now ff).txID =
                  some (Slot.new cfg.ttl now ff) := AList.lookup_insert _
            have hopened := Accounts.opened hnone (Slot.new cfg.ttl now ff)
            exact accounts_displaced.trans
              (hopened.trans (accounts_completed sha256 ff hall hself))
  | tick now => exact hexp now
  | purge => exact .cleared b.slots

/-! ### Runs -/

variable (cfg sha256) in
/-- The hook and callback calls of a run, with the ids of the slots. -/
def traceOf (ops : List BufferOp) : List Labelled :=
  Machine.outputs (fun b op => ((b.operate cfg sha256 op).1, b.trace cfg sha256 op)) new ops

/-- The last call is traced from the buffer the others left. -/
theorem traceOf_snoc (ops : List BufferOp) (op : BufferOp) :
    traceOf cfg sha256 (ops ++ [op]) =
      traceOf cfg sha256 ops ++ (run cfg sha256 ops).trace cfg sha256 op :=
  Machine.outputs_snoc ops op

/-- The last call is made on the buffer the others left. -/
theorem run_snoc (ops : List BufferOp) (op : BufferOp) :
    run cfg sha256 (ops ++ [op]) = ((run cfg sha256 ops).operate cfg sha256 op).1 :=
  Machine.run_snoc _ _ _ _

/-- Without its labels the trace of a run is what the run emits. -/
theorem traceOf_events (ops : List BufferOp) :
    (traceOf cfg sha256 ops).map Prod.snd = Machine.outputs (operate cfg sha256) new ops := by
  induction ops using List.reverseRecOn with
  | nil => rfl
  | append_singleton ops op ih =>
      rw [traceOf_snoc, List.map_append, ih, trace_events, Machine.outputs_snoc]
      rfl

/-- The buffer is sound after any calls. -/
theorem sound_run (ops : List BufferOp) : (run cfg sha256 ops).Sound := by
  rw [← logged_fst]
  exact (queued_after cfg sha256 ops).1.toSound

/-- **The run lemma**: openings and closings alternate along every run. -/
theorem accounts_run (hall : cfg.AllSet) (ops : List BufferOp) :
    Accounts ∅ (traceOf cfg sha256 ops) (run cfg sha256 ops).slots := by
  induction ops using List.reverseRecOn with
  | nil => exact .refl _
  | append_singleton ops op ih =>
      rw [traceOf_snoc, run_snoc]
      exact ih.trans (accounts_operate hall (sound_run ops) op)

end Buffer

/-- A slot that is not open does not leave. -/
theorem foldlM_turn_closed {evs evs' : List Event} {e : Event} {last : Bool}
    (hevs : .started ∉ evs) (he : e ≠ .started) :
    (evs ++ e :: evs').foldlM turn false ≠ some last := by
  intro h
  cases evs with
  | nil =>
      rw [List.nil_append, List.foldlM_cons, turn_of_ne he] at h
      cases h
  | cons x evs =>
      have hx : x ≠ .started := fun heq => hevs (heq ▸ List.mem_cons_self)
      rw [List.cons_append, List.foldlM_cons, turn_of_ne hx] at h
      cases h

/-- **A slot that has left is opened before it leaves again.** -/
theorem started_of_turns {id : Bytes32} {pre between post : List Labelled} {e e' : Event}
    {isOpen last : Bool}
    (h : (eventsOf id (pre ++ (id, e) :: (between ++ (id, e') :: post))).foldlM turn isOpen =
      some last) (he : e ≠ .started) (he' : e' ≠ .started) : (id, .started) ∈ between := by
  have hcons : ∀ x tr, eventsOf id ((id, x) :: tr) = x :: eventsOf id tr := by
    intro x tr
    simp [eventsOf]
  rw [eventsOf_append, hcons, eventsOf_append, hcons, List.foldlM_append] at h
  obtain ⟨before, -, h⟩ := Option.bind_eq_some_iff.mp h
  rw [List.foldlM_cons] at h
  obtain ⟨closed, hclosed, h⟩ := Option.bind_eq_some_iff.mp h
  have hfalse : closed = false := by
    rw [turn_of_ne he] at hclosed
    split at hclosed
    · exact (Option.some.inj hclosed).symm
    · cases hclosed
  subst hfalse
  by_contra hnone
  refine foldlM_turn_closed ?_ he' h
  intro hmem
  obtain ⟨p, hp, hstarted⟩ := List.mem_map.mp hmem
  obtain ⟨hin, hid⟩ := List.mem_filter.mp hp
  have hlabel : p = (id, .started) := Prod.ext (of_decide_eq_true hid) hstarted
  exact hnone (hlabel ▸ hin)

/-- The events other than openings. -/
theorem countP_ne_started (evs : List Event) :
    evs.countP (fun e => e ≠ .started) =
      evs.count .abandoned + evs.count .hashMismatch + (deliveries evs).length := by
  induction evs with
  | nil => rfl
  | cons e evs ih =>
      have hdel : (deliveries (e :: evs)).length =
          (deliveries evs).length + if e.delivery.isSome then 1 else 0 := by
        cases e <;> rfl
      rw [List.countP_cons, ih, hdel, List.count_cons, List.count_cons]
      cases e <;> simp [Event.delivery] <;> omega

/-- **Every slot is accounted for.** After any calls of a buffer with all callbacks set, as many
slots have been opened as were given up, dropped with a bad hash or completed, or are open. The
calls that open or close slots, labelled with the ids of the slots, never close a slot twice: in
particular no slot is completed and given up. -/
theorem slots_accounted (cfg : Config) (hall : cfg.AllSet) (sha256 : Bytes → Bytes32)
    (ops : List BufferOp) (evs : List Event)
    (hevs : Machine.outputs (Buffer.operate cfg sha256) .new ops = evs) :
    evs.count .started = evs.count .abandoned + evs.count .hashMismatch +
      (deliveries evs).length + (Buffer.run cfg sha256 ops).len ∧
    (Buffer.traceOf cfg sha256 ops).map Prod.snd = evs ∧
    ∀ id pre e between e' post,
      Buffer.traceOf cfg sha256 ops = pre ++ (id, e) :: (between ++ (id, e') :: post) →
      e ≠ .started → e' ≠ .started → (id, .started) ∈ between := by
  have hledger : Accounts ∅ (Buffer.traceOf cfg sha256 ops) (Buffer.run cfg sha256 ops).slots :=
    Buffer.accounts_run hall ops
  have hlabels : (Buffer.traceOf cfg sha256 ops).map Prod.snd = evs :=
    (Buffer.traceOf_events ops).trans hevs
  refine ⟨?_, hlabels, ?_⟩
  · have hbalance := hledger.balance
    rw [← countP_ne_started, ← hlabels, List.countP_map, List.count_eq_countP', List.countP_map]
    exact hbalance
  · intro id pre e between e' post htrace he he'
    have hturns := hledger.turns id
    rw [htrace] at hturns
    exact started_of_turns hturns he he'

/-- A slot is completed, opened again by a late copy, and expires. -/
theorem slots_accounted_late_copy :
    (Machine.outputs (Buffer.operate testConfig fun _ => Bytes32.ofByte 0) .new
      [.observe 0 (subtreeFrag 1 0 [0xA0]), .observe 1 (subtreeFrag 1 1 [0xA1]),
        .observe 2 (subtreeFrag 1 0 [0xA0]), .tick (2 * second)]).count .started = 2 ∧
    (Buffer.run testConfig (fun _ => Bytes32.ofByte 0)
      [.observe 0 (subtreeFrag 1 0 [0xA0]), .observe 1 (subtreeFrag 1 1 [0xA1]),
        .observe 2 (subtreeFrag 1 0 [0xA0]), .tick (2 * second)]).len = 0 := by
  obtain ⟨hcount, -⟩ := slots_accounted testConfig ⟨rfl, rfl, rfl⟩ (fun _ => Bytes32.ofByte 0)
    [.observe 0 (subtreeFrag 1 0 [0xA0]), .observe 1 (subtreeFrag 1 1 [0xA1]),
      .observe 2 (subtreeFrag 1 0 [0xA0]), .tick (2 * second)] _ rfl
  exact ⟨hcount, rfl⟩

end ShardListener.Reassembly
