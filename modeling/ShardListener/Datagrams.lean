import ShardListener.ByteBuffer
import ShardListener.Dispatch

/-!
# Control Datagrams on the Wire

The datagrams between the listener and the retry endpoints: the NACK and its MISS or ACK
response of `nack/wire.go`, and the ADVERT beacon of `discovery/advert.go`. Each has a fixed
size and is written field by field, at explicit offsets, into a buffer that may be longer.

An encoder indexes the last byte of the fixed size first, so that a buffer that is too short
makes it panic before it writes anything; here it returns nothing then. The decoders do not
look at the protocol version.

## Main results

* `Nack.inverse`, `Response.inverse`, `Advert.inverse`: encoder and decoder are inverse of
  each other.
* `datagrams_inverse`: the three together, with the bytes that are accepted written out.
-/

namespace ShardListener

open ByteBuffer

/-- Why a datagram is not decoded. -/
inductive DecodeError
  /-- "nack: invalid datagram". -/
  | badNACK
  /-- "nack: invalid response datagram". -/
  | badResponse
  /-- "discovery: invalid ADVERT datagram". -/
  | badADVERT
  /-- The same, wrapped with ": NACKAddr is all zeros". -/
  | zeroNACKAddr
  deriving DecidableEq

/-! ### Fields -/

section Fields

variable {i n : ℕ} {buf : Bytes}

/-- A byte of a datagram. -/
def byteAt (i : ℕ) (buf : Bytes) : UInt8 := buf.getD i 0

/-- `binary.BigEndian.Uint16`. -/
def uint16At (i : ℕ) (buf : Bytes) : UInt16 := UInt16.ofNat (number i 2 buf)

/-- `binary.BigEndian.Uint32`. -/
def uint32At (i : ℕ) (buf : Bytes) : UInt32 := UInt32.ofNat (number i 4 buf)

/-- `binary.BigEndian.Uint64`. -/
def uint64At (i : ℕ) (buf : Bytes) : UInt64 := UInt64.ofNat (number i 8 buf)

/-- The bytes copied into an array. -/
def arrayAt (i n : ℕ) (buf : Bytes) (h : i + n ≤ buf.length) : List.Vector UInt8 n :=
  ⟨get i n buf, length_get h⟩

/-- A byte that is read is the byte at its place. -/
theorem byteAt_eq_iff {b : UInt8} (h : i < buf.length) : byteAt i buf = b ↔ get i 1 buf = [b] := by
  rw [get_one h, List.singleton_inj]
  rfl

/-- A number of two bytes is read as it is written. -/
theorem uint16At_eq_iff {k : UInt16} (h : i + 2 ≤ buf.length) :
    uint16At i buf = k ↔ get i 2 buf = bigEndian 2 k.toNat := by
  have hlt : number i 2 buf < 2 ^ 16 := number_lt h
  rw [← number_eq_iff h k.toNat_lt, uint16At, ← UInt16.toNat_inj, UInt16.toNat_ofNat_of_lt' hlt]

/-- A number of four bytes is read as it is written. -/
theorem uint32At_eq_iff {k : UInt32} (h : i + 4 ≤ buf.length) :
    uint32At i buf = k ↔ get i 4 buf = bigEndian 4 k.toNat := by
  have hlt : number i 4 buf < 2 ^ 32 := number_lt h
  rw [← number_eq_iff h k.toNat_lt, uint32At, ← UInt32.toNat_inj, UInt32.toNat_ofNat_of_lt' hlt]

/-- A number of eight bytes is read as it is written. -/
theorem uint64At_eq_iff {k : UInt64} (h : i + 8 ≤ buf.length) :
    uint64At i buf = k ↔ get i 8 buf = bigEndian 8 k.toNat := by
  have hlt : number i 8 buf < 2 ^ 64 := number_lt h
  rw [← number_eq_iff h k.toNat_lt, uint64At, ← UInt64.toNat_inj, UInt64.toNat_ofNat_of_lt' hlt]

/-- An array is read as it is written. -/
theorem arrayAt_eq_iff {v : List.Vector UInt8 n} (h : i + n ≤ buf.length) :
    arrayAt i n buf h = v ↔ get i n buf = v.toList :=
  Subtype.ext_iff

end Fields

/-! ### Checks -/

section Checks

variable {α : Type} {p : Prop} [Decidable p] {err : DecodeError} {a : α} {size : ℕ} {buf : Bytes}

/-- A decoder goes on when a check finds nothing wrong. -/
theorem check_eq_ok {rest : Except DecodeError α} :
    (if p then .error err else rest) = .ok a ↔ ¬ p ∧ rest = .ok a := by
  by_cases hp : p
  · rw [if_pos hp]
    exact iff_of_false (fun h => nomatch h) fun h => h.1 hp
  · rw [if_neg hp, and_iff_right hp]

/-- The length check, which the rest of a decoder relies on. -/
theorem checkSize_eq_ok {rest : ¬ buf.length < size → Except DecodeError α} :
    (if h : buf.length < size then .error err else rest h) = .ok a ↔
      ∃ h : size ≤ buf.length, rest (not_lt.mpr h) = .ok a := by
  by_cases h : buf.length < size
  · rw [dif_pos h]
    exact iff_of_false (fun hok => nomatch hok) fun hok => absurd h (not_lt.mpr hok.1)
  · rw [dif_neg h]
    exact ⟨fun hok => ⟨not_lt.mp h, hok⟩, fun hok => hok.2⟩

end Checks

/-! ### NACK -/

/-- Size of a NACK datagram. -/
def nackSize : ℕ := 64

/-- Size of a MISS or ACK datagram. -/
def responseSize : ℕ := 16

/-- Message type of a MISS. -/
def msgTypeMISS : UInt8 := 0x11

/-- Message type of an ACK. -/
def msgTypeACK : UInt8 := 0x12

/-- The first four bytes. -/
def nackMagic : UInt32 := 0xE3E1F3E8

/-- The protocol version, which is written but not checked. -/
def nackProtoVer : UInt16 := 0x02BF

namespace Nack

/-- The fields of a NACK. -/
def fields (n : Nack) : List (ℕ × Bytes) :=
  [(0, bigEndian 4 nackMagic.toNat), (4, bigEndian 2 nackProtoVer.toNat), (6, [n.msgType]),
    (7, [0]), (8, bigEndian 8 n.hashKey.toNat), (16, bigEndian 8 n.startSeq.toNat),
    (24, bigEndian 8 n.endSeq.toNat), (32, n.subtreeID.toList)]

/-- `Encode`. -/
def encode (n : Nack) (buf : Bytes) : Option Bytes :=
  if buf.length < nackSize then none else some (write n.fields buf)

/-- `Decode`. -/
def decode (buf : Bytes) : Except DecodeError Nack :=
  if h : buf.length < nackSize then .error .badNACK
  else if uint32At 0 buf ≠ nackMagic then .error .badNACK
  else if byteAt 6 buf ≠ msgTypeNACK then .error .badNACK
  else
    .ok
      { msgType := byteAt 6 buf
        hashKey := uint64At 8 buf
        startSeq := uint64At 16 buf
        endSeq := uint64At 24 buf
        subtreeID := arrayAt 32 32 buf (not_lt.mp h) }

/-- The fields leave no hole. -/
def format : Format Nack where
  size := nackSize
  fields := fields
  tiles := by
    intro n
    simp [fields, Tiles, nackSize]

/-- What the decoder does not look at. -/
def canonical : List (ℕ × Bytes) := [(4, bigEndian 2 nackProtoVer.toNat), (7, [0])]

/-- **What is decoded**: a datagram that shows the fields of a NACK. -/
theorem decode_eq_ok (buf : Bytes) (n : Nack) :
    decode buf = .ok n ↔
      nackSize ≤ buf.length ∧ n.msgType = msgTypeNACK ∧ format.Shows canonical buf n := by
  have hshows : format.Shows canonical buf n ↔
      get 0 4 buf = bigEndian 4 nackMagic.toNat ∧ get 6 1 buf = [n.msgType] ∧
      get 8 8 buf = bigEndian 8 n.hashKey.toNat ∧ get 16 8 buf = bigEndian 8 n.startSeq.toNat ∧
      get 24 8 buf = bigEndian 8 n.endSeq.toNat ∧ get 32 32 buf = n.subtreeID.toList := by
    simp [Format.Shows, format, fields, canonical]
  rw [hshows, decode, checkSize_eq_ok, ← exists_prop]
  refine exists_congr fun (hlen : 64 ≤ buf.length) => ?_
  rw [check_eq_ok, check_eq_ok, not_not, not_not, Except.ok.injEq, ← byteAt_eq_iff (by omega),
    ← uint32At_eq_iff (by omega), ← uint64At_eq_iff (by omega), ← uint64At_eq_iff (by omega),
    ← uint64At_eq_iff (by omega), ← arrayAt_eq_iff hlen]
  cases n
  simp only [mk.injEq]
  constructor
  · rintro ⟨hmagic, htype, rfl, hrest⟩
    exact ⟨htype, hmagic, rfl, hrest⟩
  · rintro ⟨rfl, hmagic, htype, hrest⟩
    exact ⟨hmagic, htype, htype, hrest⟩

/-- What is accepted. -/
theorem decode_accepts (buf : Bytes) :
    (∃ n, decode buf = .ok n) ↔ nackSize ≤ buf.length ∧
      get 0 4 buf = bigEndian 4 nackMagic.toNat ∧ get 6 1 buf = [msgTypeNACK] := by
  simp only [decode, checkSize_eq_ok, check_eq_ok, not_not]
  rw [exists_comm, ← exists_prop]
  refine exists_congr fun (hlen : 64 ≤ buf.length) => ?_
  rw [← byteAt_eq_iff (by omega), ← uint32At_eq_iff (by omega)]
  simp

/-- **The NACK codec.** -/
theorem inverse :
    Inverse nackSize encode decode (fun n => n.msgType = msgTypeNACK)
      (fun buf => nackSize ≤ buf.length ∧ get 0 4 buf = bigEndian 4 nackMagic.toNat ∧
        get 6 1 buf = [msgTypeNACK]) canonical :=
  .of_format (F := format) (fun _ _ => rfl) decode_eq_ok
    (fun n => by simp [canonical, format, fields]) decode_accepts

end Nack

/-! ### Response -/

/-- A decoded MISS or ACK. -/
structure Response where
  msgType : UInt8
  flags : UInt8
  seqNum : UInt64
  deriving DecidableEq

namespace Response

/-- The fields of a response. -/
def fields (r : Response) : List (ℕ × Bytes) :=
  [(0, bigEndian 4 nackMagic.toNat), (4, bigEndian 2 nackProtoVer.toNat), (6, [r.msgType]),
    (7, [r.flags]), (8, bigEndian 8 r.seqNum.toNat)]

/-- `EncodeResponse`. -/
def encode (r : Response) (buf : Bytes) : Option Bytes :=
  if buf.length < responseSize then none else some (write r.fields buf)

/-- `DecodeResponse`. -/
def decode (buf : Bytes) : Except DecodeError Response :=
  if buf.length < responseSize then .error .badResponse
  else if uint32At 0 buf ≠ nackMagic then .error .badResponse
  else if byteAt 6 buf ≠ msgTypeMISS ∧ byteAt 6 buf ≠ msgTypeACK then .error .badResponse
  else .ok { msgType := byteAt 6 buf, flags := byteAt 7 buf, seqNum := uint64At 8 buf }

/-- The fields leave no hole. -/
def format : Format Response where
  size := responseSize
  fields := fields
  tiles := by
    intro r
    simp [fields, Tiles, responseSize]

/-- What the decoder does not look at. -/
def canonical : List (ℕ × Bytes) := [(4, bigEndian 2 nackProtoVer.toNat)]

/-- **What is decoded**: a datagram that shows the fields of a response. -/
theorem decode_eq_ok (buf : Bytes) (r : Response) :
    decode buf = .ok r ↔
      responseSize ≤ buf.length ∧ (r.msgType = msgTypeMISS ∨ r.msgType = msgTypeACK) ∧
        format.Shows canonical buf r := by
  have hshows : format.Shows canonical buf r ↔
      get 0 4 buf = bigEndian 4 nackMagic.toNat ∧ get 6 1 buf = [r.msgType] ∧
      get 7 1 buf = [r.flags] ∧ get 8 8 buf = bigEndian 8 r.seqNum.toNat := by
    simp [Format.Shows, format, fields, canonical]
  rw [hshows, decode, check_eq_ok, not_lt]
  refine and_congr_right fun (hlen : 16 ≤ buf.length) => ?_
  rw [check_eq_ok, check_eq_ok, not_not, ← not_or, not_not, Except.ok.injEq,
    ← byteAt_eq_iff (by omega), ← byteAt_eq_iff (by omega), ← uint32At_eq_iff (by omega),
    ← uint64At_eq_iff hlen]
  cases r
  simp only [mk.injEq]
  constructor
  · rintro ⟨hmagic, htype, rfl, hrest⟩
    exact ⟨htype, hmagic, rfl, hrest⟩
  · rintro ⟨htype, hmagic, rfl, hrest⟩
    exact ⟨hmagic, htype, rfl, hrest⟩

/-- What is accepted. -/
theorem decode_accepts (buf : Bytes) :
    (∃ r, decode buf = .ok r) ↔ responseSize ≤ buf.length ∧
      get 0 4 buf = bigEndian 4 nackMagic.toNat ∧
      (get 6 1 buf = [msgTypeMISS] ∨ get 6 1 buf = [msgTypeACK]) := by
  simp only [decode, check_eq_ok, not_lt, not_not, exists_and_left]
  refine and_congr_right fun (hlen : 16 ≤ buf.length) => ?_
  rw [← byteAt_eq_iff (by omega), ← byteAt_eq_iff (by omega), ← uint32At_eq_iff (by omega),
    ← not_or, not_not]
  simp

/-- **The response codec.** -/
theorem inverse :
    Inverse responseSize encode decode
      (fun r => r.msgType = msgTypeMISS ∨ r.msgType = msgTypeACK)
      (fun buf => responseSize ≤ buf.length ∧ get 0 4 buf = bigEndian 4 nackMagic.toNat ∧
        (get 6 1 buf = [msgTypeMISS] ∨ get 6 1 buf = [msgTypeACK])) canonical :=
  .of_format (F := format) (fun _ _ => rfl) decode_eq_ok
    (fun r => by simp [canonical, format, fields]) decode_accepts

end Response

/-! ### ADVERT -/

/-- Size of an ADVERT datagram. -/
def advertSize : ℕ := 56

/-- Message type of an ADVERT. -/
def msgTypeADVERT : UInt8 := 0x20

/-- The first four bytes. -/
def advertMagic : UInt32 := 0xE3E1F3E8

/-- The protocol version, which is written but not checked. -/
def advertProtoVer : UInt16 := 0x02BF

namespace Advert

/-- The fields of an ADVERT. -/
def fields (a : Advert) : List (ℕ × Bytes) :=
  [(0, bigEndian 4 advertMagic.toNat), (4, bigEndian 2 advertProtoVer.toNat),
    (6, [msgTypeADVERT]), (7, [a.scope]), (8, a.nackAddr.toList),
    (24, bigEndian 2 a.nackPort.toNat), (26, [a.tier]), (27, [a.preference]),
    (28, bigEndian 2 a.beaconInterval.toNat), (30, bigEndian 2 a.flags.toNat),
    (32, bigEndian 4 a.instanceID.toNat), (36, bigEndian 4 0), (40, List.replicate 16 0)]

/-- `EncodeADVERT`. -/
def encode (a : Advert) (buf : Bytes) : Option Bytes :=
  if buf.length < advertSize then none else some (write a.fields buf)

/-- `DecodeADVERT`. -/
def decode (buf : Bytes) : Except DecodeError Advert :=
  if h : buf.length < advertSize then .error .badADVERT
  else if uint32At 0 buf ≠ advertMagic then .error .badADVERT
  else if byteAt 6 buf ≠ msgTypeADVERT then .error .badADVERT
  else if (get 8 16 buf).all (· == 0) then .error .zeroNACKAddr
  else
    .ok
      { scope := byteAt 7 buf
        nackAddr := arrayAt 8 16 buf (Nat.le_trans (by decide) (Nat.not_lt.mp h))
        nackPort := uint16At 24 buf
        tier := byteAt 26 buf
        preference := byteAt 27 buf
        beaconInterval := uint16At 28 buf
        flags := uint16At 30 buf
        instanceID := uint32At 32 buf }

/-- The fields leave no hole. -/
def format : Format Advert where
  size := advertSize
  fields := fields
  tiles := by
    intro a
    simp [fields, Tiles, advertSize]

/-- What the decoder does not look at: the version and the reserved bytes. -/
def canonical : List (ℕ × Bytes) :=
  [(4, bigEndian 2 advertProtoVer.toNat), (36, bigEndian 4 0), (40, List.replicate 16 0)]

/-- **What is decoded**: a datagram that shows the fields of an ADVERT. -/
theorem decode_eq_ok (buf : Bytes) (a : Advert) :
    decode buf = .ok a ↔
      advertSize ≤ buf.length ∧ (∃ b ∈ a.nackAddr.toList, b ≠ 0) ∧
        format.Shows canonical buf a := by
  have hshows : format.Shows canonical buf a ↔
      get 0 4 buf = bigEndian 4 advertMagic.toNat ∧ get 6 1 buf = [msgTypeADVERT] ∧
      get 7 1 buf = [a.scope] ∧ get 8 16 buf = a.nackAddr.toList ∧
      get 24 2 buf = bigEndian 2 a.nackPort.toNat ∧ get 26 1 buf = [a.tier] ∧
      get 27 1 buf = [a.preference] ∧ get 28 2 buf = bigEndian 2 a.beaconInterval.toNat ∧
      get 30 2 buf = bigEndian 2 a.flags.toNat ∧ get 32 4 buf = bigEndian 4 a.instanceID.toNat := by
    simp [Format.Shows, format, fields, canonical]
  rw [hshows, decode, checkSize_eq_ok, ← exists_prop]
  refine exists_congr fun (hlen : 56 ≤ buf.length) => ?_
  simp only [check_eq_ok, List.all_eq_true, beq_iff_eq]
  rw [not_not, not_not, Except.ok.injEq, not_forall₂,
    ← uint32At_eq_iff (by omega), ← byteAt_eq_iff (by omega), ← byteAt_eq_iff (by omega),
    ← uint16At_eq_iff (by omega), ← byteAt_eq_iff (by omega), ← byteAt_eq_iff (by omega),
    ← uint16At_eq_iff (by omega), ← uint16At_eq_iff (by omega), ← uint32At_eq_iff (by omega),
    ← arrayAt_eq_iff (by omega)]
  cases a
  simp only [mk.injEq]
  constructor
  · rintro ⟨hmagic, htype, ⟨b, hb, hne⟩, rfl, rfl, hrest⟩
    exact ⟨⟨b, hb, hne⟩, hmagic, htype, rfl, rfl, hrest⟩
  · rintro ⟨⟨b, hb, hne⟩, hmagic, htype, rfl, rfl, hrest⟩
    exact ⟨hmagic, htype, ⟨b, hb, hne⟩, rfl, rfl, hrest⟩

/-- What is accepted. -/
theorem decode_accepts (buf : Bytes) :
    (∃ a, decode buf = .ok a) ↔ advertSize ≤ buf.length ∧
      get 0 4 buf = bigEndian 4 advertMagic.toNat ∧ get 6 1 buf = [msgTypeADVERT] ∧
      ∃ b ∈ get 8 16 buf, b ≠ 0 := by
  simp only [decode, checkSize_eq_ok, check_eq_ok, not_not]
  rw [exists_comm, ← exists_prop]
  refine exists_congr fun (hlen : 56 ≤ buf.length) => ?_
  rw [← byteAt_eq_iff (by omega), ← uint32At_eq_iff (by omega)]
  simp

/-- What the decoder does not look at are fields of the layout. -/
theorem canonical_sublist (a : Advert) : canonical.Sublist a.fields := by
  refine .cons _ (.cons_cons _ ?_)
  -- between the version and the reserved bytes are the nine fields of the message
  exact List.sublist_append_right ((a.fields.drop 2).take 9) _

/-- **The ADVERT codec.** -/
theorem inverse :
    Inverse advertSize encode decode (fun a => ∃ b ∈ a.nackAddr.toList, b ≠ 0)
      (fun buf => advertSize ≤ buf.length ∧ get 0 4 buf = bigEndian 4 advertMagic.toNat ∧
        get 6 1 buf = [msgTypeADVERT] ∧ ∃ b ∈ get 8 16 buf, b ≠ 0) canonical :=
  .of_format (F := format) (fun _ _ => rfl) decode_eq_ok
    canonical_sublist decode_accepts

end Advert

/-! ### The three codecs -/

/-- **The wire codecs are inverse over the whole format.** A valid NACK, response or ADVERT
that is encoded into a buffer of at least 64, 16 or 56 bytes is decoded from it, and the bytes
behind are not touched; a byte string is accepted exactly when it is long enough, starts with
the magic, has the message type at offset 6 and, for an ADVERT, an address that is not all
zeros; and encoding what was decoded gives the same bytes again, with the version and the
reserved bytes made canonical. -/
theorem datagrams_inverse :
    Inverse 64 Nack.encode Nack.decode (fun n => n.msgType = 0x10)
      (fun buf => 64 ≤ buf.length ∧ get 0 4 buf = [0xE3, 0xE1, 0xF3, 0xE8] ∧
        get 6 1 buf = [0x10])
      [(4, [0x02, 0xBF]), (7, [0])] ∧
    Inverse 16 Response.encode Response.decode (fun r => r.msgType = 0x11 ∨ r.msgType = 0x12)
      (fun buf => 16 ≤ buf.length ∧ get 0 4 buf = [0xE3, 0xE1, 0xF3, 0xE8] ∧
        (get 6 1 buf = [0x11] ∨ get 6 1 buf = [0x12]))
      [(4, [0x02, 0xBF])] ∧
    Inverse 56 Advert.encode Advert.decode (fun a => ∃ b ∈ a.nackAddr.toList, b ≠ 0)
      (fun buf => 56 ≤ buf.length ∧ get 0 4 buf = [0xE3, 0xE1, 0xF3, 0xE8] ∧
        get 6 1 buf = [0x20] ∧ ∃ b ∈ get 8 16 buf, b ≠ 0)
      [(4, [0x02, 0xBF]), (36, List.replicate 4 0), (40, List.replicate 16 0)] :=
  ⟨Nack.inverse, Response.inverse, Advert.inverse⟩

end ShardListener
