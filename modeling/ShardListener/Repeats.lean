import ShardListener.InOrder

/-!
# Copies that Come Too Late

A copy of a fragment is ignored as long as the slot of its message is open. Completing the slot
removes it, and nothing is left that remembers the message, so the next copy opens a slot again:
it holds this copy until it expires, or, when the message has one fragment only, is completed and
delivered again at once. A message is therefore delivered at most once, with no slot left over,
exactly when no copy comes after the last missing fragment; apart from messages that the buffer
does not take at all and single fragments that are not delivered.

## Main results

* `exists_completion`: the point of a run at which all fragments have arrived, if any.
* `delivered_at_most_once_iff`: when repeated fragments do no harm.
* `late_copy_reopens`: a late copy opens a slot again, and a single fragment is delivered twice.
-/

namespace ShardListener.Reassembly

/-- The payload `P` cut into the fragments `parts` with common metadata, of which there is at
least one. Unlike for `Split`, the buffer need not accept them. -/
structure Pieces (id : Bytes32) (P : Bytes) (ver msgType : UInt8) (parts : List FragFrame) :
    Prop where
  ne_nil : parts ≠ []
  payload : (parts.map fun ff => ff.fragData).flatten = P
  part : ∀ p ∈ parts.zipIdx, p.1.txID = id ∧ p.1.fragIndex.toNat = p.2 ∧
    p.1.fragTotal.toNat = parts.length ∧ p.1.origPayloadLen.toNat = P.length ∧
    p.1.origFrameVer = ver ∧ p.1.msgType = msgType

/-- The callback is invoked at most once, and no slot is open once all fragments have been
observed. -/
def AtMostOnce (cfg : Config) (sha256 : Bytes → Bytes32) (parts : List FragFrame)
    (os : List Observation) : Prop :=
  (deliveries (Machine.outputs (step cfg sha256) .new os)).length ≤ 1 ∧
    ∀ pre, pre <+: os → (∀ ff ∈ parts, ∃ o ∈ pre, o.2 = ff) → (after cfg sha256 pre).len = 0

section Pieces

variable {id : Bytes32} {P : Bytes} {ver msgType : UInt8} {parts : List FragFrame}

/-- Pieces that the buffer accepts are a split payload. -/
theorem Pieces.split (h : Pieces id P ver msgType parts)
    (hok : ∃ ff ∈ parts, ¬ Buffer.Rejected ff) : Split id P ver msgType parts := by
  obtain ⟨ff, hff, hok⟩ := hok
  obtain ⟨i, hi⟩ := List.mem_iff_getElem?.mp hff
  obtain ⟨-, -, htotal, hlen, -, -⟩ := h.part (ff, i) (List.mem_zipIdx_iff_getElem?.mpr hi)
  dsimp only at htotal hlen
  have hK : ff.fragTotal.toNat < 65536 := ff.fragTotal.toNat_lt
  have hL : ff.origPayloadLen.toNat < 4294967296 := ff.origPayloadLen.toNat_lt
  have hpos : 0 < parts.length := List.length_pos_of_mem hff
  obtain ⟨-, hbounds⟩ := not_or.mp hok
  obtain ⟨hzero, hover⟩ := not_or.mp hbounds
  have hzero' : ff.origPayloadLen.toNat ≠ 0 := fun heq => hzero (UInt32.toNat_inj.mp heq)
  rw [UInt32.not_lt, UInt32.le_iff_toNat_le, UInt32.toNat_add, UInt16.toNat_toUInt32,
    show (1 : UInt32).toNat = 1 from rfl] at hover
  exact ⟨by omega, by omega, by omega, by omega, h.payload, h.part⟩

end Pieces

/-! ### Buffers without slots -/

theorem Buffer.Idle.len {b : Buffer} (h : b.Idle) : b.len = 0 := by
  by_contra hne
  obtain ⟨⟨id, s⟩, hmem⟩ := List.exists_mem_of_length_pos (Nat.pos_of_ne_zero hne)
  have hs : b.slots.lookup id = some s := AList.mem_lookup_iff.mpr hmem
  rw [h id] at hs
  cases hs

theorem Buffer.len_ne_zero {b : Buffer} {id : Bytes32} (h : (b.slots.lookup id).isSome) :
    b.len ≠ 0 := by
  intro hzero
  rw [AList.lookup_eq_none_of_size_eq_zero hzero] at h
  cases h

section Runs

variable {cfg : Config} {sha256 : Bytes → Bytes32} {id : Bytes32} {P : Bytes}
  {ver msgType : UInt8} {parts : List FragFrame} {os es rest : List Observation}
  {o last : Observation} {b : Buffer}

variable (cfg sha256) in
/-- A rejected fragment leaves a buffer without slots as it is. -/
theorem Buffer.Idle.rejected (h : b.Idle) (hrej : Rejected o.2) :
    (step cfg sha256 b o).1.Idle ∧ deliveries (step cfg sha256 b o).2 = [] := by
  have hfor : b.slotFor cfg o.1 o.2 = none := slotFor_of_rejected o.1 (h o.2.txID) hrej
  constructor
  · intro id'
    by_contra hsome
    obtain ⟨s, hs⟩ := Option.ne_none_iff_exists'.mp hsome
    rcases lookup_observe_cases h.sound hs with ⟨-, hold⟩ | ⟨-, s₀, hfor', -⟩
    · have hopen := lookup_of_lookup_evictExpired hold
      rw [h id'] at hopen
      cases hopen
    · rw [hfor] at hfor'
      cases hfor'
  · rw [step, deliveries_observe h.sound, hfor]
    rfl

/-- Silent fragments deliver nothing. -/
theorem deliveries_of_silent
    (h : Machine.Guarded (Machine.next (step cfg sha256)) (Silent cfg sha256) b os) :
    deliveries (Machine.outputs (step cfg sha256) b os) = [] := by
  induction os generalizing b with
  | nil => rfl
  | cons o os ih =>
      rw [Machine.outputs, deliveries_append, ih h.2, List.append_nil]
      exact h.1

/-- What a full slot delivers. -/
theorem Slot.deliveries_complete_eq (s : Slot) :
    deliveries (s.complete cfg sha256) =
      if cfg.registered s.origFrameVer = true ∧
          cfg.Verifies sha256 s.origFrameVer s.txID s.payload then
        [(s.txID, s.payload)]
      else [] := by
  split
  · rename_i h
    exact deliveries_complete h.1 h.2
  · rename_i h
    rw [Config.registered, Config.Verifies] at h
    rw [complete]
    by_cases hV4 : s.origFrameVer = frameVerV4
    · rw [if_pos hV4] at h ⊢
      rw [if_neg fun hreg => h ⟨hreg, fun hne => absurd hV4 hne⟩]
      rfl
    by_cases hV5 : s.origFrameVer = frameVerV5
    · rw [if_neg hV4, if_pos hV5] at h ⊢
      rw [if_neg fun hreg => h ⟨hreg, fun _ hne => absurd hV5 hne⟩]
      rfl
    rw [if_neg hV4, if_neg hV5] at h ⊢
    split
    · rfl
    · rename_i hbad
      rw [if_neg fun hreg => h ⟨hreg, fun _ _ hverify =>
        not_not.mp fun hne => hbad ⟨hverify, hne⟩⟩]
      rfl

/-- What the message delivers when it is completed. -/
def delivered (cfg : Config) (sha256 : Bytes → Bytes32) (id : Bytes32) (P : Bytes) (ver : UInt8) :
    List (Bytes32 × Bytes) :=
  if cfg.registered ver = true ∧ cfg.Verifies sha256 ver id P then [(id, P)] else []

theorem length_delivered_le : (delivered cfg sha256 id P ver).length ≤ 1 := by
  rw [delivered]
  split
  · exact le_refl 1
  · exact Nat.zero_le 1

variable (sha256) in
/-- The fragment that was missing last delivers the message and leaves no slot. -/
theorem CopiesOf.completed (h : CopiesOf cfg parts (es ++ [last]))
    (hparts : Fragmented id P ver msgType parts) (hmissing : ∃ ff ∈ parts, ∀ o ∈ es, o.2 ≠ ff)
    (hall : ∀ ff ∈ parts, ∃ o ∈ es ++ [last], o.2 = ff) (hidle : b.Idle) :
    (Machine.run (Machine.next (step cfg sha256)) b (es ++ [last])).Idle ∧
      deliveries (Machine.outputs (step cfg sha256) b (es ++ [last])) =
        delivered cfg sha256 id P ver := by
  obtain ⟨-, hsilent, -⟩ := h.left.unfinished sha256 hparts hmissing hidle
  obtain ⟨hidle', evs, s, first, hfirst, hevs, hevents, hopened, hpayload⟩ :=
    h.finished sha256 hparts hmissing hall hidle
  obtain ⟨hid, -, -, hver, -⟩ := hparts.get
    (hparts.getElem?_of_mem (h.only first (List.mem_of_mem_head? hfirst)))
  rw [Machine.run_snoc, Machine.outputs_snoc, deliveries_append, deliveries_of_silent hsilent,
    List.nil_append, hevents, deliveries_append, hevs, List.nil_append, s.deliveries_complete_eq,
    hopened.txID, hopened.origFrameVer, hpayload, hid, hver]
  exact ⟨hidle', rfl⟩

variable (cfg sha256) in
/-- Copies of the only fragment are completed and delivered one by one. -/
theorem single_run (hparts : Fragmented id P ver msgType parts) (hone : parts.length = 1)
    (hidle : b.Idle) (honly : ∀ o ∈ os, o.2 ∈ parts) :
    (Machine.run (Machine.next (step cfg sha256)) b os).Idle ∧
      deliveries (Machine.outputs (step cfg sha256) b os) =
        (os.map fun _ => delivered cfg sha256 id P ver).flatten := by
  induction os generalizing b with
  | nil => exact ⟨hidle, rfl⟩
  | cons o os ih =>
      obtain ⟨part, rfl⟩ := List.length_eq_one_iff.mp hone
      have hpart : o.2 = part := List.mem_singleton.mp (honly o List.mem_cons_self)
      have hcopies : CopiesOf cfg [part] ([] ++ [o]) := by
        refine ⟨fun o' ho' => honly o' (List.mem_cons.mpr (Or.inl (List.mem_singleton.mp ho'))), ?_⟩
        rintro first ⟨⟩ o' ho'
        obtain rfl := List.mem_singleton.mp ho'
        exact Int.le_add_of_nonneg_right (Int.le_of_lt cfg.ttl_pos)
      obtain ⟨hidle', hdel⟩ := hcopies.completed sha256 hparts
        ⟨part, List.mem_singleton_self part, fun _ ho' => (nomatch ho')⟩
        (fun ff hff => ⟨o, List.mem_singleton_self o, hpart.trans (List.mem_singleton.mp hff).symm⟩)
        hidle
      obtain ⟨hrun, hrest⟩ := ih hidle' fun o' ho' => honly o' (List.mem_cons_of_mem _ ho')
      refine ⟨hrun, ?_⟩
      have hfirst : deliveries (step cfg sha256 b o).2 = delivered cfg sha256 id P ver := by
        rwa [List.nil_append, Machine.outputs, Machine.outputs, List.append_nil] at hdel
      rw [Machine.outputs, deliveries_append, hfirst, List.map_cons, List.flatten_cons]
      exact congrArg _ hrest

/-- A copy opens a slot in a buffer without one, when there are other fragments. -/
theorem reopened (hparts : Fragmented id P ver msgType parts) (htwo : 2 ≤ parts.length)
    (hidle : b.Idle) (ho : o.2 ∈ parts) : (step cfg sha256 b o).1.len ≠ 0 := by
  -- some other fragment is missing
  have hmissing : ∃ ff ∈ parts, ∀ o' ∈ [o], o'.2 ≠ ff := by
    obtain ⟨x, y, l, rfl⟩ : ∃ x y l, parts = x :: y :: l := by
      match parts, htwo with
      | x :: y :: l, _ => exact ⟨x, y, l, rfl⟩
    have hxy : x ≠ y := by
      have hnodup := hparts.nodup
      exact fun heq => (List.nodup_cons.mp hnodup).1 (heq ▸ List.mem_cons_self)
    by_cases hx : o.2 = x
    · refine ⟨y, by simp, fun o' ho' => ?_⟩
      rw [List.mem_singleton.mp ho', hx]
      exact hxy
    · refine ⟨x, by simp, fun o' ho' => ?_⟩
      rwa [List.mem_singleton.mp ho']
  have hcopies : CopiesOf cfg parts [o] := by
    refine ⟨fun o' ho' => (List.mem_singleton.mp ho') ▸ ho, ?_⟩
    rintro first ⟨⟩ o' ho'
    obtain rfl := List.mem_singleton.mp ho'
    exact Int.le_add_of_nonneg_right (Int.le_of_lt cfg.ttl_pos)
  obtain ⟨hkeep, -, -⟩ := hcopies.unfinished sha256 hparts hmissing hidle
  obtain ⟨hprog, -⟩ := inProgress_run hparts hidle.sound (hidle id) [o] hkeep
    (fun o' ho' _ => hcopies.only o' ho') hmissing
  exact Buffer.len_ne_zero (hprog.opened o (List.mem_singleton_self o)
    (hcopies.txID hparts (List.mem_singleton_self o)))

/-- Rejected fragments do nothing. -/
theorem rejected_run (hidle : b.Idle) (hrej : ∀ o ∈ os, Buffer.Rejected o.2) :
    (Machine.run (Machine.next (step cfg sha256)) b os).Idle ∧
      deliveries (Machine.outputs (step cfg sha256) b os) = [] := by
  induction os generalizing b with
  | nil => exact ⟨hidle, rfl⟩
  | cons o os ih =>
      obtain ⟨hidle', hdel⟩ := hidle.rejected cfg sha256 (hrej o List.mem_cons_self)
      obtain ⟨hrun, hrest⟩ := ih hidle' fun o' ho' => hrej o' (List.mem_cons_of_mem _ ho')
      refine ⟨hrun, ?_⟩
      rw [Machine.outputs, deliveries_append, hdel]
      exact hrest

/-! ### The point of completion -/

/-- Either a fragment is missing at the end, or there is a first point at which none is. -/
theorem exists_completion (hne : parts ≠ []) (os : List Observation) :
    (∃ ff ∈ parts, ∀ o ∈ os, o.2 ≠ ff) ∨
      ∃ es last rest, os = es ++ last :: rest ∧ (∃ ff ∈ parts, ∀ o ∈ es, o.2 ≠ ff) ∧
        ∀ ff ∈ parts, ∃ o ∈ es ++ [last], o.2 = ff := by
  induction os using List.reverseRecOn with
  | nil =>
      obtain ⟨ff, hff⟩ := List.exists_mem_of_ne_nil parts hne
      exact Or.inl ⟨ff, hff, fun _ ho => (nomatch ho)⟩
  | append_singleton os o ih =>
      rcases ih with hmissing | ⟨es, last, rest, rfl, hmissing, hall⟩
      · by_cases hmore : ∃ ff ∈ parts, ∀ o' ∈ os ++ [o], o'.2 ≠ ff
        · exact Or.inl hmore
        · refine Or.inr ⟨os, o, [], rfl, hmissing, ?_⟩
          intro ff hff
          by_contra hnone
          exact hmore ⟨ff, hff, fun o' ho' heq => hnone ⟨o', ho', heq⟩⟩
      · refine Or.inr ⟨es, last, rest ++ [o], ?_, hmissing, hall⟩
        rw [List.append_assoc, List.cons_append]

/-- No copy comes after the last missing fragment. -/
def NoneLate (parts : List FragFrame) (os : List Observation) : Prop :=
  ∀ pre o post, os = pre ++ o :: post → ∃ ff ∈ parts, ∀ o' ∈ pre, o'.2 ≠ ff

theorem NoneLate.of_dropLast (h : ∃ ff ∈ parts, ∀ o ∈ os.dropLast, o.2 ≠ ff) :
    NoneLate parts os := by
  obtain ⟨ff, hff, hne⟩ := h
  rintro pre o post rfl
  rw [List.dropLast_append_of_ne_nil (List.cons_ne_nil o post)] at hne
  exact ⟨ff, hff, fun o' ho' => hne o' (List.mem_append_left _ ho')⟩

/-- A message that stays incomplete. -/
theorem CopiesOf.incomplete (h : CopiesOf cfg parts os) (hparts : Fragmented id P ver msgType parts)
    (hmissing : ∃ ff ∈ parts, ∀ o ∈ os, o.2 ≠ ff) :
    AtMostOnce cfg sha256 parts os ∧ NoneLate parts os := by
  obtain ⟨ff, hff, hne⟩ := hmissing
  refine ⟨⟨?_, ?_⟩, .of_dropLast ⟨ff, hff, fun o ho => hne o (List.dropLast_subset os ho)⟩⟩
  · obtain ⟨-, hsilent, -⟩ := h.unfinished sha256 hparts ⟨ff, hff, hne⟩ Buffer.Idle.new
    rw [deliveries_of_silent hsilent]
    exact Nat.zero_le 1
  · intro pre hpre hall
    obtain ⟨o, ho, heq⟩ := hall ff hff
    exact absurd heq (hne o (hpre.subset ho))

/-- A message that is completed by the last copy of the run. -/
theorem CopiesOf.just_completed (h : CopiesOf cfg parts (es ++ [last]))
    (hparts : Fragmented id P ver msgType parts) (hmissing : ∃ ff ∈ parts, ∀ o ∈ es, o.2 ≠ ff)
    (hall : ∀ ff ∈ parts, ∃ o ∈ es ++ [last], o.2 = ff) :
    AtMostOnce cfg sha256 parts (es ++ [last]) ∧ NoneLate parts (es ++ [last]) := by
  obtain ⟨ff, hff, hne⟩ := hmissing
  obtain ⟨hidle, hdel⟩ := h.completed sha256 hparts ⟨ff, hff, hne⟩ hall Buffer.Idle.new
  refine ⟨⟨?_, ?_⟩, .of_dropLast ⟨ff, hff, by rwa [List.dropLast_concat]⟩⟩
  · rw [hdel]
    exact length_delivered_le
  · intro pre hpre hcover
    rcases List.prefix_concat_iff.mp hpre with rfl | hpre
    · exact hidle.len
    · obtain ⟨o, ho, heq⟩ := hcover ff hff
      exact absurd heq (hne o (hpre.subset ho))

/-- A copy after the last missing fragment. -/
theorem CopiesOf.late_iff (h : CopiesOf cfg parts (es ++ last :: o :: rest))
    (hparts : Fragmented id P ver msgType parts) (hmissing : ∃ ff ∈ parts, ∀ o ∈ es, o.2 ≠ ff)
    (hall : ∀ ff ∈ parts, ∃ o ∈ es ++ [last], o.2 = ff) :
    AtMostOnce cfg sha256 parts (es ++ last :: o :: rest) ↔
      parts.length = 1 ∧ ¬ (cfg.registered ver = true ∧ cfg.Verifies sha256 ver id P) := by
  by_cases hone : parts.length = 1
  · obtain ⟨-, hdel⟩ := single_run cfg sha256 hparts hone Buffer.Idle.new h.only
    rw [and_iff_right hone]
    constructor
    · rintro ⟨hcount, -⟩ hdelivers
      -- two copies and more, and each is delivered
      rw [hdel, delivered, if_pos hdelivers] at hcount
      simp at hcount
      omega
    · intro hsilent
      refine ⟨?_, ?_⟩
      · rw [hdel, delivered, if_neg hsilent]
        simp
      · intro pre hpre _
        exact (single_run cfg sha256 hparts hone Buffer.Idle.new
          fun o' ho' => h.only o' (hpre.subset ho')).1.len
  · refine iff_of_false ?_ fun hcond => hone hcond.1
    rintro ⟨-, hlen⟩
    have htwo : 2 ≤ parts.length := by
      obtain ⟨ff, hff, -⟩ := hmissing
      have hpos := List.length_pos_of_mem hff
      omega
    have hsplitRun : es ++ last :: o :: rest = (es ++ [last]) ++ ([o] ++ rest) := by simp
    rw [hsplitRun] at h hlen
    obtain ⟨hidle, -⟩ := h.left.completed sha256 hparts hmissing hall Buffer.Idle.new
    have hzero := hlen (es ++ [last] ++ [o]) (by simp) fun ff hff => by
      obtain ⟨o', ho', heq⟩ := hall ff hff
      exact ⟨o', List.mem_append_left _ ho', heq⟩
    rw [after, Machine.run_snoc] at hzero
    exact reopened hparts htwo hidle (h.only o (by simp)) hzero

end Runs

/-- **When repeated fragments do no harm.** Copies of the fragments of one message, all within
one `ttl` of the first, deliver it at most once and leave no slot open once all fragments have
been observed, exactly when none comes after the last missing fragment; or the buffer rejects
them; or there is one fragment only, and it is not delivered. -/
theorem delivered_at_most_once_iff (cfg : Config) (sha256 : Bytes → Bytes32) (id : Bytes32)
    (P : Bytes) (ver msgType : UInt8) (parts : List FragFrame)
    (hparts : Pieces id P ver msgType parts) (os : List Observation)
    (honly : ∀ o ∈ os, o.2 ∈ parts)
    (hkept : ∀ first ∈ os.head?, ∀ o ∈ os, o.1 ≤ first.1 + cfg.ttl) :
    AtMostOnce cfg sha256 parts os ↔
      NoneLate parts os ∨ (∀ ff ∈ parts, Buffer.Rejected ff) ∨
        (parts.length = 1 ∧ ¬ (cfg.registered ver = true ∧ cfg.Verifies sha256 ver id P)) := by
  have hcopies : CopiesOf cfg parts os := ⟨honly, hkept⟩
  by_cases hrej : ∀ ff ∈ parts, Buffer.Rejected ff
  · refine iff_of_true ⟨?_, ?_⟩ (Or.inr (Or.inl hrej))
    · rw [(rejected_run Buffer.Idle.new fun o ho => hrej _ (honly o ho)).2]
      exact Nat.zero_le 1
    · intro pre hpre _
      exact (rejected_run Buffer.Idle.new
        fun o ho => hrej _ (honly o (hpre.subset ho))).1.len
  have hok : ∃ ff ∈ parts, ¬ Buffer.Rejected ff := by
    by_contra hnone
    exact hrej fun ff hff => not_not.mp fun hne => hnone ⟨ff, hff, hne⟩
  have hsplit := (hparts.split hok).fragmented
  rcases exists_completion hparts.ne_nil os with
    hmissing | ⟨es, last, rest, rfl, hmissing, hall⟩
  · obtain ⟨honce, hnone⟩ := hcopies.incomplete hsplit hmissing
    exact iff_of_true honce (Or.inl hnone)
  · cases rest with
    | nil =>
        obtain ⟨honce, hnone⟩ := hcopies.just_completed hsplit hmissing hall
        exact iff_of_true honce (Or.inl hnone)
    | cons o rest =>
        have hlate : ¬ NoneLate parts (es ++ last :: o :: rest) := by
          intro hnone
          obtain ⟨ff, hff, hne⟩ := hnone (es ++ [last]) o rest (by simp)
          obtain ⟨o', ho', heq⟩ := hall ff hff
          exact hne o' ho' heq
        rw [hcopies.late_iff hsplit hmissing hall, or_iff_right hlate, or_iff_right hrej]

/-! ### Late copies -/

/-- A fragment that is a message of its own. -/
def wholeFrag (data : Bytes) : FragFrame := { subtreeFrag 1 0 data with fragTotal := 1 }

/-- A copy of the first of two fragments comes after the second: both have been observed, and a
slot is open. A copy of an only fragment is delivered again. -/
theorem late_copy_reopens :
    (after testConfig (fun _ => Bytes32.ofByte 0) [(0, subtreeFrag 1 0 [0xA0]),
      (1, subtreeFrag 1 1 [0xA1]), (2, subtreeFrag 1 0 [0xA0])]).len = 1 ∧
    deliveries (Machine.outputs (step testConfig fun _ => Bytes32.ofByte 0) .new
      [(0, wholeFrag [0xA0, 0xA1]), (1, wholeFrag [0xA0, 0xA1])]) =
        [(Bytes32.ofByte 7, [0xA0, 0xA1]), (Bytes32.ofByte 7, [0xA0, 0xA1])] := by
  decide

/-- A copy of the first of two fragments comes before the second. -/
theorem delivered_at_most_once_iff_early_copy :
    AtMostOnce testConfig (fun _ => Bytes32.ofByte 0)
      [subtreeFrag 1 0 [0xA0], subtreeFrag 1 1 [0xA1]]
      [(0, subtreeFrag 1 0 [0xA0]), (1, subtreeFrag 1 0 [0xA0]), (2, subtreeFrag 1 1 [0xA1])] := by
  refine (delivered_at_most_once_iff testConfig _ (Bytes32.ofByte 7) [0xA0, 0xA1] frameVerV5 1
    [subtreeFrag 1 0 [0xA0], subtreeFrag 1 1 [0xA1]] ⟨by decide, by decide, by decide⟩
    [(0, subtreeFrag 1 0 [0xA0]), (1, subtreeFrag 1 0 [0xA0]), (2, subtreeFrag 1 1 [0xA1])]
    (by decide) (by decide)).mpr (Or.inl (.of_dropLast ?_))
  exact ⟨subtreeFrag 1 1 [0xA1], by decide, by decide⟩

end ShardListener.Reassembly
