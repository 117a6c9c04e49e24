import ShardListener.Assembly

/-!
# Every Complete Set of Fragments is Delivered

A payload split into fragments (`Split`) whose fragments all arrive (`Arrives`), in any
order, repeated and among fragments of other messages, while the slot is kept (`Retained`).
Until the last fragment the slot stays open, and its history holds everything that arrived
for the message (`InProgress`); so one more fragment fills it exactly when no fragment is
missing any more (`Slot.Holds.waiting_iff`), and the first copies are the fragments
themselves.

## Main results

* `InProgress.step`: the slot stays open while a fragment is missing.
* `delivered_once`: the message is delivered once, by the last fragment.
* `reassembly_sound_and_complete`: both directions, for every run.
-/

namespace ShardListener.Reassembly

/-! ### Full slots -/

/-- A slot waits exactly as long as the first copy of some fragment is missing. -/
theorem Slot.Holds.waiting_iff {s : Slot} {hist : List Observation} (h : s.Holds hist) :
    s.received < s.fragTotal ↔
      ∃ i < s.fragTotal.toNat, firstCopy s.txID s.fragTotal hist i = none := by
  have hcount : s.received.toNat = (s.copies hist).countP Option.isSome := by
    rw [s.received_eq, h, List.countP_map]
    congr 1
    funext o
    exact Option.isSome_map
  have hlen : (s.copies hist).length = s.fragTotal.toNat := FirstWrite.length_array _
  rw [UInt16.lt_iff_toNat_lt, hcount, ← hlen,
    List.countP_le_length.lt_iff_ne, Ne, List.countP_eq_length, hlen, Slot.copies, array_writes]
  simp only [List.mem_map, List.mem_range]
  constructor
  · intro hsome
    by_contra hnone
    refine hsome ?_
    rintro x ⟨i, hi, rfl⟩
    exact Option.isSome_iff_ne_none.mpr fun hx => hnone ⟨i, hi, hx⟩
  · rintro ⟨i, hi, hnone⟩ hsome
    have := hsome _ ⟨i, hi, rfl⟩
    rw [hnone] at this
    cases this

/-! ### A message and its fragments -/

/-- The payload `P` split into the fragments `parts` with common metadata. The buffer accepts one
fragment more than the payload has bytes. -/
structure Split (id : Bytes32) (P : Bytes) (ver msgType : UInt8) (parts : List FragFrame) :
    Prop where
  nonempty : 1 ≤ P.length
  short : P.length < 2 ^ 32 - 1
  count : parts.length ≤ P.length + 1
  count_short : parts.length ≤ 65535
  payload : (parts.map fun ff => ff.fragData).flatten = P
  part : ∀ p ∈ parts.zipIdx, p.1.txID = id ∧ p.1.fragIndex.toNat = p.2 ∧
    p.1.fragTotal.toNat = parts.length ∧ p.1.origPayloadLen.toNat = P.length ∧
    p.1.origFrameVer = ver ∧ p.1.msgType = msgType

/-- The fragments `parts`, which the buffer accepts, carry the payload `P`. What they announce
as its length is not compared with it. -/
structure Fragmented (id : Bytes32) (P : Bytes) (ver msgType : UInt8) (parts : List FragFrame) :
    Prop where
  payload : (parts.map fun ff => ff.fragData).flatten = P
  part : ∀ p ∈ parts.zipIdx, p.1.txID = id ∧ p.1.fragIndex.toNat = p.2 ∧
    p.1.fragTotal.toNat = parts.length ∧ p.1.origFrameVer = ver ∧ p.1.msgType = msgType
  accepted : ∀ ff ∈ parts, ¬ Buffer.Rejected ff

section Split

variable {id : Bytes32} {P : Bytes} {ver msgType : UInt8} {parts : List FragFrame}
  {ff : FragFrame}

/-- A fragment of a split payload opens a slot. -/
theorem Split.not_rejected (h : Split id P ver msgType parts) (hmem : ff ∈ parts) :
    ¬ Buffer.Rejected ff := by
  obtain ⟨i, hi⟩ := List.mem_iff_getElem?.mp hmem
  obtain ⟨-, hindex, htotal, hlen, -, -⟩ := h.part (ff, i) (List.mem_zipIdx_iff_getElem?.mpr hi)
  dsimp only at hindex htotal hlen
  have hlt : i < parts.length := (List.getElem?_eq_some_iff.mp hi).1
  have hnonempty := h.nonempty
  have hshort := h.short
  have hcount := h.count
  rintro ((hzero | hrange) | (hzero | hover))
  · rw [hzero] at htotal
    change 0 = _ at htotal
    omega
  · rw [UInt16.le_iff_toNat_le] at hrange
    omega
  · rw [hzero] at hlen
    change 0 = _ at hlen
    omega
  · rw [UInt32.lt_iff_toNat_lt, UInt32.toNat_add, UInt16.toNat_toUInt32, hlen, htotal,
      show (1 : UInt32).toNat = 1 from rfl] at hover
    omega

/-- A split payload is made of its fragments. -/
theorem Split.fragmented (h : Split id P ver msgType parts) :
    Fragmented id P ver msgType parts where
  payload := h.payload
  part := by
    intro p hp
    obtain ⟨hid, hindex, htotal, -, hver, htype⟩ := h.part p hp
    exact ⟨hid, hindex, htotal, hver, htype⟩
  accepted := fun _ hmem => h.not_rejected hmem

end Split

section Fragmented

variable {id : Bytes32} {P : Bytes} {ver msgType : UInt8} {parts : List FragFrame}
  {ff : FragFrame} {hist : List Observation} {K : UInt16} {i : ℕ}

/-- The metadata of a fragment of the message. -/
theorem Fragmented.get (h : Fragmented id P ver msgType parts) (hi : parts[i]? = some ff) :
    ff.txID = id ∧ ff.fragIndex.toNat = i ∧ ff.fragTotal.toNat = parts.length ∧
      ff.origFrameVer = ver ∧ ff.msgType = msgType :=
  h.part (ff, i) (List.mem_zipIdx_iff_getElem?.mpr hi)

/-- A fragment stands at its index. -/
theorem Fragmented.getElem?_of_mem (h : Fragmented id P ver msgType parts) (hmem : ff ∈ parts) :
    parts[ff.fragIndex.toNat]? = some ff := by
  obtain ⟨i, hi⟩ := List.mem_iff_getElem?.mp hmem
  rw [(h.get hi).2.1, hi]

/-- A copy of a fragment is that fragment. -/
theorem Fragmented.of_firstCopy (h : Fragmented id P ver msgType parts)
    (honly : ∀ o ∈ hist, o.2.txID = id → o.2 ∈ parts) {c : Observation}
    (hc : firstCopy id K hist i = some c) : parts[i]? = some c.2 := by
  have hmatch : c.2.txID = id ∧ c.2.fragTotal = K ∧ c.2.fragIndex.toNat = i := by
    have := List.find?_some hc
    exact of_decide_eq_true this
  rw [← hmatch.2.2]
  exact h.getElem?_of_mem (honly c (List.mem_of_find?_eq_some hc) hmatch.1)

/-- The first copy of a fragment is missing when the fragment has not arrived. -/
theorem Fragmented.firstCopy_eq_none (h : Fragmented id P ver msgType parts)
    (hK : K.toNat = parts.length) (honly : ∀ o ∈ hist, o.2.txID = id → o.2 ∈ parts)
    (hi : parts[i]? = some ff) :
    firstCopy id K hist i = none ↔ ∀ o ∈ hist, o.2 ≠ ff := by
  obtain ⟨hid, hindex, htotal, -⟩ := h.get hi
  constructor
  · rintro hnone o ho rfl
    have hcopy := List.find?_eq_none.mp hnone o ho
    refine hcopy (decide_eq_true ⟨hid, ?_, hindex⟩)
    exact UInt16.toNat_inj.mp (htotal.trans hK.symm)
  · intro hmissing
    by_contra hsome
    obtain ⟨c, hc⟩ := Option.ne_none_iff_exists'.mp hsome
    have hpart := h.of_firstCopy honly hc
    rw [hi] at hpart
    exact hmissing c (List.mem_of_find?_eq_some hc) (Option.some.inj hpart).symm

/-- The slot of the message waits exactly as long as a fragment has not arrived. -/
theorem Fragmented.waiting_iff (h : Fragmented id P ver msgType parts) {s : Slot}
    (hid : s.txID = id) (hK : s.fragTotal.toNat = parts.length)
    (honly : ∀ o ∈ hist, o.2.txID = id → o.2 ∈ parts) (hholds : s.Holds hist) :
    s.received < s.fragTotal ↔ ∃ ff ∈ parts, ∀ o ∈ hist, o.2 ≠ ff := by
  rw [hholds.waiting_iff, hid, hK]
  constructor
  · rintro ⟨i, hi, hnone⟩
    have hget : parts[i]? = some parts[i] := List.getElem?_eq_getElem hi
    exact ⟨parts[i], List.getElem_mem hi, (h.firstCopy_eq_none hK honly hget).mp hnone⟩
  · rintro ⟨ff, hmem, hmissing⟩
    have hget := h.getElem?_of_mem hmem
    refine ⟨_, (List.getElem?_eq_some_iff.mp hget).1, ?_⟩
    exact (h.firstCopy_eq_none hK honly hget).mpr hmissing

/-- The first copies of all fragments add up to the payload. -/
theorem Fragmented.payload_of_full (h : Fragmented id P ver msgType parts) {s : Slot}
    (hid : s.txID = id) (hK : s.fragTotal.toNat = parts.length)
    (honly : ∀ o ∈ hist, o.2.txID = id → o.2 ∈ parts) (hholds : s.Holds hist)
    (hfull : ¬ s.received < s.fragTotal) : s.payload = P := by
  obtain ⟨copies, hcopies, hpayload⟩ := hholds.full hfull
  have hlen : copies.length = parts.length := by
    have := congrArg List.length hcopies
    simp only [List.length_map, List.length_range] at this
    omega
  have hparts : copies.map (fun c => c.2) = parts := by
    apply List.ext_getElem?
    intro i
    rw [List.getElem?_map]
    cases hc : copies[i]? with
    | none =>
        have : copies.length ≤ i := List.getElem?_eq_none_iff.mp hc
        exact (List.getElem?_eq_none_iff.mpr (by omega)).symm
    | some c =>
        have hi : i < s.fragTotal.toNat := by
          have := (List.getElem?_eq_some_iff.mp hc).1
          omega
        have hcopy : firstCopy s.txID s.fragTotal hist i = some c := by
          have := congrArg (fun l => l[i]?) hcopies
          simpa [hi, hc] using this
        rw [hid] at hcopy
        exact (h.of_firstCopy honly hcopy).symm
  rw [hpayload, ← h.payload, ← hparts, List.map_map]
  rfl

/-- The slot of the message stays open with one more fragment while another has not
arrived. -/
theorem Fragmented.next_waiting (h : Fragmented id P ver msgType parts) {s : Slot}
    (hkey : s.txID = id) (hK : s.fragTotal.toNat = parts.length) (hholds : s.Holds hist)
    {o : Observation} (hid : o.2.txID = id)
    (honly : ∀ o' ∈ hist ++ [o], o'.2.txID = id → o'.2 ∈ parts)
    (hmissing : ∃ ff ∈ parts, ∀ o' ∈ hist ++ [o], o'.2 ≠ ff) :
    ∃ s', s.next o.2 = some s' ∧ s'.fragTotal = s.fragTotal ∧
      s'.origFrameVer = s.origFrameVer := by
  rw [Slot.next]
  cases hstore : s.store o.2 with
  | none => exact ⟨s, rfl, rfl, rfl⟩
  | some s' =>
      have hholds' := hholds.store (hid.trans hkey.symm) hstore
      have hkey' : s'.txID = id := (Slot.store_txID hstore).trans hkey
      obtain ⟨-, -, -, _, _, hs'⟩ := Slot.store_eq_some hstore
      have htotal : s'.fragTotal = s.fragTotal := by rw [hs']
      have hwait : s'.received < s'.fragTotal :=
        (h.waiting_iff hkey' (by rw [htotal, hK]) honly hholds').mpr hmissing
      exact ⟨s', if_pos hwait, htotal, by rw [hs']⟩

/-- The fragment that was missing fills the slot of the message. -/
theorem Fragmented.filled_of_last (h : Fragmented id P ver msgType parts) {s : Slot}
    (hkey : s.txID = id) (hK : s.fragTotal.toNat = parts.length) (hholds : s.Holds hist)
    {o : Observation} (honly : ∀ o' ∈ hist ++ [o], o'.2.txID = id → o'.2 ∈ parts)
    (hmem : o.2 ∈ parts)
    (hmissing : ∀ o' ∈ hist, o'.2 ≠ o.2)
    (hall : ∀ ff ∈ parts, ∃ o' ∈ hist ++ [o], o'.2 = ff) :
    ∃ s', s.filled o.2 = some s' ∧ s'.txID = id ∧ s'.origFrameVer = s.origFrameVer ∧
      s'.payload = P := by
  have hget := h.getElem?_of_mem hmem
  obtain ⟨hid, -, htotal, -⟩ := h.get hget
  have htotal' : o.2.fragTotal = s.fragTotal := UInt16.toNat_inj.mp (htotal.trans hK.symm)
  have honly' : ∀ o' ∈ hist, o'.2.txID = id → o'.2 ∈ parts :=
    fun o' ho' => honly o' (List.mem_append_left _ ho')
  -- the place of the missing fragment is empty, so it is stored
  have hstore : ∃ s', s.store o.2 = some s' := by
    rw [← Option.ne_none_iff_exists']
    intro hnone
    refine Slot.store_eq_none hnone htotal' ((hholds.free_iff _).mpr ?_)
    have hlt := (List.getElem?_eq_some_iff.mp hget).1
    rw [Slot.copies, FirstWrite.getElem?_array_eq_free, lookup_writes, hkey, hK]
    exact ⟨hlt, (h.firstCopy_eq_none hK honly' hget).mpr hmissing⟩
  obtain ⟨s', hs'⟩ := hstore
  have hholds' := hholds.store (hid.trans hkey.symm) hs'
  have hkey' : s'.txID = id := (Slot.store_txID hs').trans hkey
  obtain ⟨-, -, -, _, _, heq⟩ := Slot.store_eq_some hs'
  have hK' : s'.fragTotal.toNat = parts.length := by rw [heq, ← hK]
  have hfull : ¬ s'.received < s'.fragTotal := by
    rw [h.waiting_iff hkey' hK' honly hholds']
    rintro ⟨ff, hff, hne⟩
    obtain ⟨o', ho', rfl⟩ := hall ff hff
    exact hne o' ho' rfl
  refine ⟨s', ?_, hkey', by rw [heq], h.payload_of_full hkey' hK' honly hholds' hfull⟩
  exact Option.filter_eq_some_iff.mpr ⟨hs', decide_eq_true hfull⟩

end Fragmented

/-! ### A message in progress -/

/-- The slot of `id` is neither expired nor evicted for capacity by the observation. -/
def Retained (cfg : Config) (id : Bytes32) (b : Buffer) (o : Observation) : Prop :=
  (b.slots.lookup id).isSome → ((b.clear cfg o.1 o.2).slots.lookup id).isSome

instance (cfg : Config) (id : Bytes32) (b : Buffer) (o : Observation) :
    Decidable (Retained cfg id b o) := inferInstanceAs (Decidable (_ → _))

/-- A retained slot is the same slot, and is still there once the others have expired. -/
theorem Retained.lookup {cfg : Config} {id : Bytes32} {b : Buffer} {o : Observation}
    (h : Retained cfg id b o) {s : Slot} (hs : b.slots.lookup id = some s) :
    (b.clear cfg o.1 o.2).slots.lookup id = some s ∧
      (b.evictExpired o.1).1.slots.lookup id = some s := by
  obtain ⟨s', hs'⟩ := Option.isSome_iff_exists.mp (h (Option.isSome_iff_exists.mpr ⟨s, hs⟩))
  have hexp := Buffer.lookup_of_lookup_clear hs'
  have hold := Buffer.lookup_of_lookup_evictExpired hexp
  rw [hs] at hold
  obtain rfl := Option.some.inj hold
  exact ⟨hs', hexp⟩

/-- A fragment of another message leaves a retained slot alone. -/
theorem Retained.lookup_observe {cfg : Config} {sha256 : Bytes → Bytes32} {id : Bytes32}
    {b : Buffer} {o : Observation} (h : Retained cfg id b o) (hsound : b.Sound)
    (hne : o.2.txID ≠ id) :
    (b.observe cfg sha256 o.1 o.2).1.slots.lookup id = b.slots.lookup id := by
  rw [Buffer.lookup_observe_of_ne hsound (Ne.symm hne)]
  cases hs : b.slots.lookup id with
  | some s => exact (h.lookup hs).1
  | none =>
      by_contra hsome
      obtain ⟨s, hs'⟩ := Option.ne_none_iff_exists'.mp hsome
      rw [Buffer.lookup_of_lookup_evictExpired (Buffer.lookup_of_lookup_clear hs')] at hs
      cases hs

/-- After the observations `es`, the slot of `id` is open if a fragment has arrived, and its
history has everything that arrived for it. -/
structure InProgress (cfg : Config) (id : Bytes32) (ver : UInt8) (parts : List FragFrame)
    (es : List Observation) (p : Buffer × List Observation) : Prop extends Traced cfg id p where
  within : ∀ o ∈ p.2, o ∈ es
  opened : ∀ o ∈ es, o.2.txID = id → (p.1.slots.lookup id).isSome
  fits : ∀ s, p.1.slots.lookup id = some s → s.fragTotal.toNat = parts.length ∧
    s.origFrameVer = ver ∧ ∀ o ∈ es, o.2.txID = id → o ∈ p.2

section InProgress

variable {cfg : Config} {sha256 : Bytes → Bytes32} {id : Bytes32} {P : Bytes}
  {ver msgType : UInt8} {parts : List FragFrame} {es : List Observation} {o : Observation}
  {p : Buffer × List Observation}

/-- The slot a fragment of the message meets, and the history it extends. -/
theorem InProgress.met (h : InProgress cfg id ver parts es p)
    (hparts : Fragmented id P ver msgType parts) (hkeep : Retained cfg id p.1 o)
    (hmem : o.2 ∈ parts) :
    ∃ s hist, p.1.slotFor cfg o.1 o.2 = some s ∧ follow id p.1 o p.2 = hist ++ [o] ∧
      s.txID = id ∧ s.Holds hist ∧ s.Dated cfg.ttl (hist ++ [o]) ∧
      s.fragTotal.toNat = parts.length ∧ s.origFrameVer = ver ∧
      (∀ o' ∈ hist, o' ∈ es) ∧ ∀ o' ∈ es, o'.2.txID = id → o' ∈ hist := by
  obtain ⟨hid, -, htotal, hver, -⟩ := hparts.get (hparts.getElem?_of_mem hmem)
  have hslot : ∃ s hist, p.1.slotFor cfg o.1 o.2 = some s ∧ follow id p.1 o p.2 = hist ++ [o] ∧
      s.fragTotal.toNat = parts.length ∧ s.origFrameVer = ver ∧
      (∀ o' ∈ hist, o' ∈ es) ∧ ∀ o' ∈ es, o'.2.txID = id → o' ∈ hist := by
    cases hs : p.1.slots.lookup id with
    | some s =>
        obtain ⟨-, hexp⟩ := hkeep.lookup hs
        obtain ⟨hK, hsver, hall⟩ := h.fits s hs
        refine ⟨s, p.2, ?_, ?_, hK, hsver, h.within, hall⟩
        · rw [← hid] at hexp
          simp only [Buffer.slotFor, hexp]
        · simp [follow, hexp]
    | none =>
        have hexp := Buffer.lookup_evictExpired_of_none o.1 hs
        refine ⟨Slot.new cfg.ttl o.1 o.2, [], ?_, ?_, htotal, hver,
          fun _ h => absurd h List.not_mem_nil, ?_⟩
        · rw [← hid] at hexp
          simp only [Buffer.slotFor, hexp, if_neg (hparts.accepted _ hmem)]
        · simp [follow, hexp]
        · intro o' ho' hid'
          have := h.opened o' ho' hid'
          rw [hs] at this
          cases this
  obtain ⟨s, hist, hfor, hfollow, hrest⟩ := hslot
  obtain ⟨hist', hfollow', hkey, hholds, hdated⟩ := h.toTraced.met hid hfor
  obtain rfl := List.append_cancel_right (hfollow.symm.trans hfollow')
  exact ⟨s, hist, hfor, hfollow, hkey, hholds, hdated, hrest⟩

/-- The history of the slot has only what was observed. -/
theorem InProgress.follow_within (h : InProgress cfg id ver parts es p) :
    ∀ o' ∈ follow id p.1 o p.2, o' ∈ es ++ [o] := by
  intro o' ho'
  rw [follow] at ho'
  split at ho'
  · rcases List.mem_append.mp ho' with hold | hnew
    · exact List.mem_append_left _ (h.within o' hold)
    · exact List.mem_append_right _ hnew
  · exact List.mem_append_right _ ho'

variable (sha256) in
/-- A fragment of another message leaves a retained slot as it is. -/
theorem InProgress.other (h : InProgress cfg id ver parts es p) (hkeep : Retained cfg id p.1 o)
    (hid : o.2.txID ≠ id) :
    InProgress cfg id ver parts (es ++ [o])
      (Machine.withGhost (Machine.next (step cfg sha256)) (follow id) p o) := by
  have hold : ∀ o' ∈ es ++ [o], o'.2.txID = id → o' ∈ es := by
    intro o' ho' hid'
    rcases List.mem_append.mp ho' with hold | hnew
    · exact hold
    · obtain rfl := List.mem_singleton.mp hnew
      exact absurd hid' hid
  have hlookup : (p.1.observe cfg sha256 o.1 o.2).1.slots.lookup id = p.1.slots.lookup id :=
    hkeep.lookup_observe h.sound hid
  refine ⟨h.toTraced.step, h.follow_within, ?_, ?_⟩
  · intro o' ho' hid'
    exact (congrArg Option.isSome hlookup).trans (h.opened o' (hold o' ho' hid') hid')
  · intro s hs
    have hs' : p.1.slots.lookup id = some s := hlookup.symm.trans hs
    obtain ⟨hK, hver, hall⟩ := h.fits s hs'
    refine ⟨hK, hver, ?_⟩
    intro o' ho' hid'
    show o' ∈ follow id p.1 o p.2
    rw [follow, if_pos (Option.isSome_iff_exists.mpr ⟨s, (hkeep.lookup hs').2⟩)]
    exact List.mem_append_left _ (hall o' (hold o' ho' hid') hid')

variable (sha256) in
/-- **The slot stays open** while a fragment is missing. -/
theorem InProgress.step (h : InProgress cfg id ver parts es p)
    (hparts : Fragmented id P ver msgType parts) (hkeep : Retained cfg id p.1 o)
    (honly : ∀ o' ∈ es ++ [o], o'.2.txID = id → o'.2 ∈ parts)
    (hmissing : ∃ ff ∈ parts, ∀ o' ∈ es ++ [o], o'.2 ≠ ff) :
    InProgress cfg id ver parts (es ++ [o])
      (Machine.withGhost (Machine.next (step cfg sha256)) (follow id) p o) := by
  by_cases hid : o.2.txID = id
  · have hmem : o.2 ∈ parts := honly o (List.mem_append_right _ (List.mem_singleton.mpr rfl)) hid
    obtain ⟨s, hist, hfor, hfollow, hkey, hholds, -, hK, hver, -, hall⟩ :=
      h.met hparts hkeep hmem
    have hwithin : ∀ o' ∈ hist ++ [o], o' ∈ es ++ [o] := hfollow ▸ h.follow_within
    have hmissing' : ∃ ff ∈ parts, ∀ o' ∈ hist ++ [o], o'.2 ≠ ff := by
      obtain ⟨ff, hff, hne⟩ := hmissing
      exact ⟨ff, hff, fun o' ho' => hne o' (hwithin o' ho')⟩
    obtain ⟨s', hs', htotal, hver'⟩ := hparts.next_waiting hkey hK hholds hid
      (fun o' ho' => honly o' (hwithin o' ho')) hmissing'
    have hlookup : (p.1.observe cfg sha256 o.1 o.2).1.slots.lookup id = some s' := by
      rw [← hid, Buffer.lookup_observe_self h.sound, hfor]
      exact hs'
    refine ⟨h.toTraced.step, h.follow_within,
      fun _ _ _ => Option.isSome_iff_exists.mpr ⟨s', hlookup⟩, ?_⟩
    intro s₁ hs₁
    obtain rfl := Option.some.inj (hlookup.symm.trans hs₁)
    refine ⟨by rw [htotal, hK], by rw [hver', hver], ?_⟩
    intro o' ho' hid'
    show o' ∈ follow id p.1 o p.2
    rw [hfollow]
    rcases List.mem_append.mp ho' with hold | hnew
    · exact List.mem_append_left _ (hall o' hold hid')
    · exact List.mem_append_right _ hnew
  · exact h.other sha256 hkeep hid

end InProgress

/-! ### Deliveries of one message -/

/-- The payloads delivered for `id`. -/
def deliveriesTo (id : Bytes32) (evs : List Event) : List Bytes :=
  (deliveries evs).filterMap fun d => if d.1 = id then some d.2 else none

theorem deliveriesTo_append (id : Bytes32) (evs evs' : List Event) :
    deliveriesTo id (evs ++ evs') = deliveriesTo id evs ++ deliveriesTo id evs' := by
  rw [deliveriesTo, deliveries_append, List.filterMap_append]
  rfl

/-- The callback of the version is registered. -/
def Config.registered (cfg : Config) (ver : UInt8) : Bool :=
  if ver = frameVerV4 then cfg.onCompleteBlock
  else if ver = frameVerV5 then cfg.onCompleteSubtree
  else cfg.onComplete

/-- The payload passes the verification of a message of the version. -/
def Config.Verifies (cfg : Config) (sha256 : Bytes → Bytes32) (ver : UInt8) (id : Bytes32)
    (P : Bytes) : Prop :=
  ver ≠ frameVerV4 → ver ≠ frameVerV5 → cfg.verifyHash = true → sha256d sha256 P = id

section Deliveries

variable {cfg : Config} {sha256 : Bytes → Bytes32} {id : Bytes32} {P : Bytes}
  {ver msgType : UInt8} {parts : List FragFrame} {b : Buffer} {o : Observation}

/-- A full slot delivers its payload to a registered callback, if it is verified. -/
theorem Slot.deliveries_complete {s : Slot} (hreg : cfg.registered s.origFrameVer = true)
    (hver : cfg.Verifies sha256 s.origFrameVer s.txID s.payload) :
    deliveries (s.complete cfg sha256) = [(s.txID, s.payload)] := by
  rw [Config.registered] at hreg
  rw [Slot.complete]
  split
  · rename_i hV4
    rw [if_pos hV4] at hreg
    rw [if_pos hreg]
    rfl
  · rename_i hV4
    rw [if_neg hV4] at hreg
    split
    · rename_i hV5
      rw [if_pos hV5] at hreg
      rw [if_pos hreg]
      rfl
    · rename_i hV5
      rw [if_neg hV5] at hreg
      rw [if_neg, if_pos hreg]
      · rfl
      · rintro ⟨hverify, hne⟩
        exact hne (hver hV4 hV5 hverify)

/-- Fragments of other messages deliver nothing for `id`. -/
theorem deliveriesTo_of_ne (h : b.Sound) (hne : o.2.txID ≠ id) :
    deliveriesTo id (step cfg sha256 b o).2 = [] := by
  rw [deliveriesTo, List.filterMap_eq_nil_iff]
  intro d hd
  obtain ⟨e, he, hdel⟩ := List.mem_filterMap.mp hd
  rw [if_neg]
  intro hid
  exact hne ((delivery_id h he hdel).trans hid)

/-- A fragment that leaves its slot open delivers nothing. -/
theorem deliveries_of_next (h : b.Sound) {s s' : Slot}
    (hfor : b.slotFor cfg o.1 o.2 = some s) (hnext : s.next o.2 = some s') :
    deliveries (step cfg sha256 b o).2 = [] := by
  have hfilled : s.filled o.2 = none := by
    rw [Slot.filled]
    rcases Slot.next_eq_some hnext with ⟨hstore, -⟩ | ⟨hstore, hwait⟩
    · rw [hstore]
      rfl
    · rw [hstore]
      exact Option.filter_eq_none_iff.mpr fun _ h => by
        obtain rfl := Option.some.inj h
        simp [hwait]
  rw [step, Buffer.deliveries_observe h, hfor]
  simp [hfilled]

variable (sha256) in
/-- A fragment that leaves another one missing delivers nothing. -/
theorem InProgress.deliveries_eq_nil {es : List Observation} {p : Buffer × List Observation}
    (h : InProgress cfg id ver parts es p) (hparts : Fragmented id P ver msgType parts)
    (hkeep : Retained cfg id p.1 o) (honly : ∀ o' ∈ es ++ [o], o'.2.txID = id → o'.2 ∈ parts)
    (hmissing : ∃ ff ∈ parts, ∀ o' ∈ es ++ [o], o'.2 ≠ ff) (hid : o.2.txID = id) :
    deliveries (Reassembly.step cfg sha256 p.1 o).2 = [] := by
  have hopen := (h.step sha256 hparts hkeep honly hmissing).opened o
    (List.mem_append_right _ (List.mem_singleton.mpr rfl)) hid
  obtain ⟨s', hs'⟩ := Option.isSome_iff_exists.mp hopen
  rcases Buffer.lookup_observe_cases h.sound hs' with ⟨hne, -⟩ | ⟨-, s, hfor, hnext⟩
  · exact absurd hid hne
  · exact deliveries_of_next h.sound hfor hnext

/-- While a fragment of the message is missing, nothing is delivered for it. -/
theorem InProgress.deliveriesTo {es : List Observation} {p : Buffer × List Observation}
    (h : InProgress cfg id ver parts es p) (hparts : Fragmented id P ver msgType parts)
    (hkeep : Retained cfg id p.1 o) (honly : ∀ o' ∈ es ++ [o], o'.2.txID = id → o'.2 ∈ parts)
    (hmissing : ∃ ff ∈ parts, ∀ o' ∈ es ++ [o], o'.2 ≠ ff) :
    Reassembly.deliveriesTo id (Reassembly.step cfg sha256 p.1 o).2 = [] := by
  by_cases hid : o.2.txID = id
  · rw [Reassembly.deliveriesTo, h.deliveries_eq_nil sha256 hparts hkeep honly hmissing hid]
    rfl
  · exact deliveriesTo_of_ne h.sound hid

/-- A buffer without a slot for `id`, before anything arrives. -/
theorem InProgress.start (h : b.Sound) (hnone : b.slots.lookup id = none) :
    InProgress cfg id ver parts [] (b, []) := by
  have hno : ∀ {C : Slot → Prop} s, b.slots.lookup id = some s → C s := by
    intro C s hs
    rw [hnone] at hs
    cases hs
  exact
    { sound := h
      holds := hno
      dated := hno
      within := fun _ h => (nomatch h)
      opened := fun _ h => (nomatch h)
      fits := hno }

/-- While a fragment is missing, the message stays in progress and nothing is delivered. -/
theorem inProgress_run (hparts : Fragmented id P ver msgType parts) (hsound : b.Sound)
    (hnone : b.slots.lookup id = none) (es : List Observation)
    (hkeep : Machine.Guarded (Machine.next (step cfg sha256)) (Retained cfg id) b es)
    (honly : ∀ o ∈ es, o.2.txID = id → o.2 ∈ parts)
    (hmissing : ∃ ff ∈ parts, ∀ o ∈ es, o.2 ≠ ff) :
    InProgress cfg id ver parts es
        (Machine.run (Machine.withGhost (Machine.next (step cfg sha256)) (follow id)) (b, []) es) ∧
      deliveriesTo id (Machine.outputs (step cfg sha256) b es) = [] := by
  induction es using List.reverseRecOn with
  | nil => exact ⟨.start hsound hnone, rfl⟩
  | append_singleton es o ih =>
      obtain ⟨hkeep', hlast⟩ := Machine.guarded_snoc.mp hkeep
      obtain ⟨ff, hff, hne⟩ := hmissing
      obtain ⟨hprog, hdel⟩ := ih hkeep' (fun o' ho' => honly o' (List.mem_append_left _ ho'))
        ⟨ff, hff, fun o' ho' => hne o' (List.mem_append_left _ ho')⟩
      rw [← Machine.run_withGhost (follow id) []] at hlast
      refine ⟨?_, ?_⟩
      · rw [Machine.run_snoc]
        exact hprog.step sha256 hparts hlast honly ⟨ff, hff, hne⟩
      · rw [Machine.outputs_snoc, deliveriesTo_append, hdel, List.nil_append,
          ← Machine.run_withGhost (follow id) []]
        exact hprog.deliveriesTo hparts hlast honly ⟨ff, hff, hne⟩

/-- Fragments of other messages deliver nothing for `id`, however many. -/
theorem deliveriesTo_outputs_of_ne (hsound : b.Sound) {es : List Observation}
    (hne : ∀ o ∈ es, o.2.txID ≠ id) :
    deliveriesTo id (Machine.outputs (step cfg sha256) b es) = [] := by
  induction es generalizing b with
  | nil => rfl
  | cons o es ih =>
      rw [Machine.outputs, deliveriesTo_append,
        deliveriesTo_of_ne hsound (hne o List.mem_cons_self),
        ih (sound_step hsound o) fun o' ho' => hne o' (List.mem_cons_of_mem _ ho')]
      rfl

end Deliveries

/-- The fragments `parts` of `id` arrive: `first` is all that comes before the fragment that
was missing last, `last` is that fragment, and none comes after it. -/
structure Arrives (id : Bytes32) (parts : List FragFrame) (first : List Observation)
    (last : Observation) (rest : List Observation) : Prop where
  only : ∀ o ∈ first ++ [last], o.2.txID = id → o.2 ∈ parts
  all : ∀ ff ∈ parts, ∃ o ∈ first ++ [last], o.2 = ff
  missing : ∃ ff ∈ parts, ∀ o ∈ first, o.2 ≠ ff
  ended : ∀ o ∈ rest, o.2.txID ≠ id

/-- The fragment that was missing is the last one. -/
theorem Arrives.last_missing {id : Bytes32} {parts : List FragFrame}
    {first rest : List Observation} {last : Observation}
    (h : Arrives id parts first last rest) :
    last.2 ∈ parts ∧ ∀ o ∈ first, o.2 ≠ last.2 := by
  obtain ⟨ff, hff, hne⟩ := h.missing
  obtain ⟨o, ho, rfl⟩ := h.all ff hff
  rcases List.mem_append.mp ho with hold | hnew
  · exact absurd rfl (hne o hold)
  · obtain rfl := List.mem_singleton.mp hnew
    exact ⟨hff, hne⟩

section Completion

variable {cfg : Config} {sha256 : Bytes → Bytes32} {id : Bytes32} {P : Bytes}
  {ver msgType : UInt8} {parts : List FragFrame} {first rest : List Observation}
  {last : Observation}

/-- The last fragment fills the slot. -/
theorem InProgress.filled_last {p : Buffer × List Observation}
    (h : InProgress cfg id ver parts first p) (hparts : Fragmented id P ver msgType parts)
    (harr : Arrives id parts first last rest) (hkeep : Retained cfg id p.1 last) :
    ∃ s s', p.1.slotFor cfg last.1 last.2 = some s ∧ s.filled last.2 = some s' ∧
      s'.txID = id ∧ s'.origFrameVer = ver ∧ s'.payload = P ∧
      s'.Dated cfg.ttl (follow id p.1 last p.2) := by
  obtain ⟨hmem, hmissing⟩ := harr.last_missing
  obtain ⟨s, hist, hfor, hfollow, hkey, hholds, hdated, hK, hsver, hhist, hall⟩ :=
    h.met hparts hkeep hmem
  have hsub : ∀ o ∈ hist ++ [last], o ∈ first ++ [last] := by
    intro o ho
    rcases List.mem_append.mp ho with hold | hnew
    · exact List.mem_append_left _ (hhist o hold)
    · exact List.mem_append_right _ hnew
  have hcover : ∀ ff ∈ parts, ∃ o ∈ hist ++ [last], o.2 = ff := by
    intro ff hff
    obtain ⟨o, ho, rfl⟩ := harr.all ff hff
    rcases List.mem_append.mp ho with hold | hnew
    · have hid := (hparts.get (hparts.getElem?_of_mem hff)).1
      exact ⟨o, List.mem_append_left _ (hall o hold hid), rfl⟩
    · exact ⟨o, List.mem_append_right _ hnew, rfl⟩
  obtain ⟨s', hfilled, hkey', hsver', hpayload⟩ := hparts.filled_of_last hkey hK hholds
    (fun o ho => harr.only o (hsub o ho)) hmem (fun o ho => hmissing o (hhist o ho)) hcover
  refine ⟨s, s', hfor, hfilled, hkey', hsver'.trans hsver, hpayload, ?_⟩
  rw [hfollow]
  exact hdated.store (Slot.filled_eq_some hfilled).1

/-- The last fragment completes the slot and delivers the payload. -/
theorem InProgress.deliveries_last {p : Buffer × List Observation}
    (h : InProgress cfg id ver parts first p) (hparts : Fragmented id P ver msgType parts)
    (harr : Arrives id parts first last rest) (hkeep : Retained cfg id p.1 last)
    (hreg : cfg.registered ver = true) (hver : cfg.Verifies sha256 ver id P) :
    deliveries (Reassembly.step cfg sha256 p.1 last).2 = [(id, P)] := by
  obtain ⟨s, s', hfor, hfilled, hkey, hsver, hpayload, -⟩ := h.filled_last hparts harr hkeep
  rw [Reassembly.step, Buffer.deliveries_observe h.sound, hfor]
  simp only [Option.bind_some, hfilled, Option.map_some, Option.getD_some]
  rw [← hkey, ← hpayload]
  refine Slot.deliveries_complete ?_ ?_
  · rwa [hsver]
  · rwa [hsver, hkey, hpayload]

/-- **A message all of whose fragments arrive is delivered once.** -/
theorem delivered_once {b : Buffer} (hparts : Fragmented id P ver msgType parts) (hsound : b.Sound)
    (hnone : b.slots.lookup id = none) (harr : Arrives id parts first last rest)
    (hkeep : Machine.Guarded (Machine.next (step cfg sha256)) (Retained cfg id) b
      (first ++ [last]))
    (hreg : cfg.registered ver = true) (hver : cfg.Verifies sha256 ver id P) :
    deliveriesTo id (Machine.outputs (step cfg sha256) b (first ++ last :: rest)) = [P] := by
  obtain ⟨hkeep', hlast⟩ := Machine.guarded_snoc.mp hkeep
  obtain ⟨hprog, hdel⟩ := inProgress_run hparts hsound hnone first hkeep'
    (fun o ho => harr.only o (List.mem_append_left _ ho)) harr.missing
  have hstate : (Machine.run (Machine.withGhost (Machine.next (step cfg sha256)) (follow id))
      (b, []) first).1 = Machine.run (Machine.next (step cfg sha256)) b first :=
    Machine.run_withGhost _ _ _
  have hsound' := hprog.sound
  rw [hstate] at hsound'
  have hrest : deliveriesTo id (Machine.outputs (step cfg sha256)
      (step cfg sha256 (Machine.run (Machine.next (step cfg sha256)) b first) last).1 rest) = [] :=
    deliveriesTo_outputs_of_ne (sound_step hsound' last) harr.ended
  have hlastdel := hprog.deliveries_last hparts harr (hstate ▸ hlast) hreg hver
  rw [hstate] at hlastdel
  rw [Machine.outputs_append, deliveriesTo_append, hdel, List.nil_append, Machine.outputs,
    deliveriesTo_append, hrest, List.append_nil, deliveriesTo, hlastdel]
  simp

end Completion

/-- **Reassembly is sound and complete.** In every run whose clock does not go backwards, a
delivered payload is the concatenation of first copies received since the slot was opened,
and verified if it is a transaction; and a message all of whose fragments arrive while its
slot is kept is delivered exactly once. -/
theorem reassembly_sound_and_complete (cfg : Config) (sha256 : Bytes → Bytes32)
    (os : List Observation) (hclock : Clocked os) :
    (∀ pre o post e id payload, os = pre ++ o :: post →
      e ∈ (step cfg sha256 (after cfg sha256 pre) o).2 → e.delivery = some (id, payload) →
      sinceOpened cfg sha256 id (pre ++ [o]) <:+ pre ++ [o] ∧
      Assembled cfg.ttl id (sinceOpened cfg sha256 id (pre ++ [o])) payload ∧
      ∀ f, e = .complete f → cfg.verifyHash = true → sha256d sha256 payload = id) ∧
    (∀ pre first last rest id P ver msgType parts, os = pre ++ (first ++ last :: rest) →
      Split id P ver msgType parts → (after cfg sha256 pre).slots.lookup id = none →
      Arrives id parts first last rest →
      Machine.Guarded (Machine.next (step cfg sha256)) (Retained cfg id)
        (after cfg sha256 pre) (first ++ [last]) →
      cfg.registered ver = true → cfg.Verifies sha256 ver id P →
      deliveriesTo id (Machine.outputs (step cfg sha256) (after cfg sha256 pre)
        (first ++ last :: rest)) = [P]) := by
  constructor
  · intro pre o post e id payload hos he hd
    rw [List.append_cons] at hos
    have hclock' : Clocked (pre ++ [o]) :=
      hclock.sublist (hos ▸ List.sublist_append_left _ _)
    exact ⟨sinceOpened_suffix cfg sha256 id _, assembled_of_delivery hclock' he hd⟩
  · intro pre first last rest id P ver msgType parts _ hsplit hnone harr hkeep hreg hver
    exact delivered_once hsplit.fragmented (sound_after cfg sha256 pre) hnone harr hkeep hreg hver

/-- Two fragments out of order, with a repetition and a fragment of another message between
them. -/
theorem reassembly_sound_and_complete_pair :
    Assembled testConfig.ttl (Bytes32.ofByte 7)
      (sinceOpened testConfig (fun _ => Bytes32.ofByte 0) (Bytes32.ofByte 7)
        [(0, subtreeFrag 1 1 [0xA1]), (1, { subtreeFrag 1 0 [0xC0] with txID := Bytes32.ofByte 9 }),
          (2, subtreeFrag 1 1 [0xA1]), (3, subtreeFrag 1 0 [0xA0])]) [0xA0, 0xA1] ∧
    deliveriesTo (Bytes32.ofByte 7) (Machine.outputs (step testConfig fun _ => Bytes32.ofByte 0)
      .new [(0, subtreeFrag 1 1 [0xA1]),
        (1, { subtreeFrag 1 0 [0xC0] with txID := Bytes32.ofByte 9 }),
        (2, subtreeFrag 1 1 [0xA1]), (3, subtreeFrag 1 0 [0xA0])]) = [[0xA0, 0xA1]] := by
  have hclock : Clocked [(0, subtreeFrag 1 1 [0xA1]),
      (1, { subtreeFrag 1 0 [0xC0] with txID := Bytes32.ofByte 9 }),
      (2, subtreeFrag 1 1 [0xA1]), (3, subtreeFrag 1 0 [0xA0])] := by decide
  obtain ⟨hsound, hcomplete⟩ :=
    reassembly_sound_and_complete testConfig (fun _ => Bytes32.ofByte 0) _ hclock
  constructor
  · exact (hsound [(0, subtreeFrag 1 1 [0xA1]),
      (1, { subtreeFrag 1 0 [0xC0] with txID := Bytes32.ofByte 9 }),
      (2, subtreeFrag 1 1 [0xA1])] (3, subtreeFrag 1 0 [0xA0]) []
      (.completeSubtree ⟨1, Bytes32.ofByte 7, 1, 0, [0xA0, 0xA1]⟩) _ _ rfl (by decide) rfl).2.1
  · refine hcomplete [] [(0, subtreeFrag 1 1 [0xA1]),
      (1, { subtreeFrag 1 0 [0xC0] with txID := Bytes32.ofByte 9 }),
      (2, subtreeFrag 1 1 [0xA1])] (3, subtreeFrag 1 0 [0xA0]) [] (Bytes32.ofByte 7)
      [0xA0, 0xA1] frameVerV5 1 [subtreeFrag 1 0 [0xA0], subtreeFrag 1 1 [0xA1]] rfl ?_ rfl ?_ ?_
      rfl ?_
    · exact ⟨by decide, by decide, by decide, by decide, by decide, by decide⟩
    · exact ⟨by decide, by decide, by decide, fun _ h => (nomatch h)⟩
    · decide
    · exact fun _ h => absurd rfl h

end ShardListener.Reassembly
