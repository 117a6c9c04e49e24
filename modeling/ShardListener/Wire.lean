import ShardListener.ByteBuffer
import ShardListener.Worker

/-!
# Frames on the Wire

The frame codec is a parameter of the worker (`Codec`), since it lives in another repository.
What is known of its layouts makes a codec (`Codec.wire`), and concrete datagrams are run
through the worker with it.

* `docs/architecture.md` has the fields of the 92-byte header of BRC-124/BRC-128, and
  `listener/listener_test.go` those of BRC-12.
* BRC-131 and BRC-132 headers have the same size, with the message type in byte 7 and the
  ContentID or SubtreeID in the place of the TxID. Packet types other than the documented
  `0x01` and `0x02` are rejected.
* A BRC-130 fragment has these two fields in the same places. Where the fields of its own are is
  not documented: they are put in the order of the decoded fragment, in a header of 104 bytes.

## Main results

* `Wire.read_encode`: a frame that is written is read back.
* `Wire.decode_encode`: a BRC-124 frame that is encoded is decoded again.
-/

namespace ShardListener

namespace Wire

open ByteBuffer

/-- Network magic and protocol version, with which every frame starts. -/
def preamble : Bytes := [0xE3, 0xE1, 0xF3, 0xE8, 0x02, 0xBF]

/-- Version byte of a BRC-12 frame. -/
def frameVerV1 : UInt8 := 0x01

/-- Version byte of a BRC-130 fragment. -/
def frameVerV3 : UInt8 := 0x03

/-- Size of the BRC-12 frame header. -/
def headerSizeLegacy : ℕ := 44

/-- Size of the BRC-130 fragment header. -/
def fragHeaderSize : ℕ := 104

/-- What the headers have in common. `id` is the TxID, ContentID or SubtreeID. -/
structure Header where
  version : UInt8
  msgType : UInt8
  id : Bytes32
  hashKey : UInt64
  seqNum : UInt64
  subtreeID : Bytes32

/-- A frame of any kind, those of BRC-12 apart, as it is on the wire. -/
structure Packet extends Header where
  payload : Bytes

/-- The fields of a header, by offset. -/
def Header.fields (h : Header) : List (ℕ × Bytes) :=
  [(0, preamble), (6, [h.version]), (7, [h.msgType]), (8, h.id.toList),
    (40, bigEndian 8 h.hashKey.toNat), (48, bigEndian 8 h.seqNum.toNat),
    (56, h.subtreeID.toList)]

/-- The fields of a frame, by offset. -/
def Packet.fields (p : Packet) : List (ℕ × Bytes) :=
  p.toHeader.fields ++ [(88, bigEndian 4 p.payload.length), (headerSize, p.payload)]

/-- A buffer of length `n` with the frame in it. -/
def Packet.fill (p : Packet) (n : ℕ) : Bytes := write p.fields (List.replicate n 0)

/-- Write a frame into a buffer of length `n`. -/
def encode (p : Packet) (n : ℕ) : Option Bytes :=
  if p.payload.length < 2 ^ 32 ∧ headerSize + p.payload.length ≤ n then some (p.fill n) else none

/-- The version byte, if the datagram has one. -/
def version (raw : Bytes) : Bytes := get 6 1 raw

/-- The 32-byte array at an offset. -/
def get32 (i : ℕ) (raw : Bytes) (h : i + 32 ≤ raw.length) : Bytes32 := ⟨get i 32 raw, length_get h⟩

/-- The 64-bit number at an offset. -/
def getUint64 (i : ℕ) (raw : Bytes) : UInt64 := UInt64.ofNat (ofBigEndian (get i 8 raw))

/-- Read a header. -/
def readHeader (raw : Bytes) : Option Header :=
  if h : get 0 6 raw = preamble ∧ 88 ≤ raw.length then
    some
      { version := raw.getD 6 0
        msgType := raw.getD 7 0
        id := get32 8 raw (by omega)
        hashKey := getUint64 40 raw
        seqNum := getUint64 48 raw
        subtreeID := get32 56 raw (by omega) }
  else none

/-- Read a frame. -/
def read (raw : Bytes) : Option Packet :=
  if headerSize + ofBigEndian (get 88 4 raw) ≤ raw.length then
    (readHeader raw).map fun h => ⟨h, get headerSize (ofBigEndian (get 88 4 raw)) raw⟩
  else none

/-! ### The kinds of frames -/

/-- A BRC-124/BRC-128 frame. -/
def Packet.ofFrame (f : Frame) : Packet :=
  ⟨⟨frameVerV2, 0, f.txID, f.hashKey, f.seqNum, f.subtreeID⟩, f.payload⟩

/-- A BRC-131 frame. -/
def Packet.ofBlock (bf : BlockFrame) : Packet :=
  ⟨⟨frameVerV4, bf.msgType, bf.contentID, bf.hashKey, bf.seqNum, Bytes32.ofByte 0⟩, bf.payload⟩

/-- A BRC-132 frame. -/
def Packet.ofSubtreeData (sf : SubtreeDataFrame) : Packet :=
  ⟨⟨frameVerV5, sf.msgType, sf.subtreeID, sf.hashKey, sf.seqNum, Bytes32.ofByte 0⟩, sf.payload⟩

/-- The packet as a transaction. -/
def Packet.transaction (p : Packet) : Option Frame :=
  if p.version = frameVerV2 then
    some ⟨frameVerV2, p.id, p.hashKey, p.seqNum, p.subtreeID, p.payload⟩
  else none

/-- The packet as a block control frame. -/
def Packet.block (p : Packet) : Option BlockFrame :=
  if p.version = frameVerV4 ∧ (p.msgType = 0x01 ∨ p.msgType = 0x02) then
    some ⟨p.msgType, p.id, p.hashKey, p.seqNum, p.payload⟩
  else none

/-- The packet as a subtree data frame. -/
def Packet.subtreeData (p : Packet) : Option SubtreeDataFrame :=
  if p.version = frameVerV5 ∧ (p.msgType = 0x01 ∨ p.msgType = 0x02) then
    some ⟨p.msgType, p.id, p.hashKey, p.seqNum, p.payload⟩
  else none

/-- Read a BRC-12 frame. The fields it does not have are zero. -/
def decodeV1 (raw : Bytes) : Option Frame :=
  if h : get 0 6 raw = preamble ∧ headerSizeLegacy + ofBigEndian (get 40 4 raw) ≤ raw.length then
    some
      { version := frameVerV1
        txID := get32 8 raw (by unfold headerSizeLegacy at h; omega)
        hashKey := 0
        seqNum := 0
        subtreeID := Bytes32.ofByte 0
        payload := get headerSizeLegacy (ofBigEndian (get 40 4 raw)) raw }
  else none

/-- Read a transaction frame. -/
def decode (raw : Bytes) : Option Frame :=
  if version raw = [frameVerV1] then decodeV1 raw else (read raw).bind Packet.transaction

/-- A fragment on the wire. -/
def fragment (ff : FragFrame) : Bytes :=
  let h : Header := ⟨frameVerV3, ff.msgType, ff.txID, ff.hashKey, ff.seqNum, ff.subtreeID⟩
  write (h.fields ++
      [(88, bigEndian 4 ff.origPayloadLen.toNat), (92, bigEndian 2 ff.fragIndex.toNat),
        (94, bigEndian 2 ff.fragTotal.toNat), (96, bigEndian 4 ff.fragData.length),
        (100, [ff.origFrameVer]), (fragHeaderSize, ff.fragData)])
    (List.replicate (fragHeaderSize + ff.fragData.length) 0)

/-- Read a fragment. -/
def decodeFragment (raw : Bytes) : Option FragFrame :=
  if fragHeaderSize + ofBigEndian (get 96 4 raw) ≤ raw.length then
    (readHeader raw).map fun h =>
      { txID := h.id
        subtreeID := h.subtreeID
        hashKey := h.hashKey
        seqNum := h.seqNum
        origPayloadLen := UInt32.ofNat (ofBigEndian (get 88 4 raw))
        fragIndex := UInt16.ofNat (ofBigEndian (get 92 2 raw))
        fragTotal := UInt16.ofNat (ofBigEndian (get 94 2 raw))
        fragData := get fragHeaderSize (ofBigEndian (get 96 4 raw)) raw
        origFrameVer := raw.getD 100 0
        msgType := h.msgType }
  else none

/-! ### Round trips -/

/-- The fields of a packet do not overlap, and there is room for them. -/
theorem layout (p : Packet) {n : ℕ} (hn : headerSize + p.payload.length ≤ n) :
    Layout p.fields n where
  ordered := by
    simp [Packet.fields, Header.fields, preamble, headerSize]
  fits := by
    unfold headerSize at hn
    simp [Packet.fields, Header.fields, preamble, headerSize]
    omega

section RoundTrip

variable {p : Packet} {n : ℕ} {raw : Bytes}

/-- What `encode` checks, and what it writes. -/
theorem encode_eq_some (h : encode p n = some raw) :
    p.payload.length < 2 ^ 32 ∧ headerSize + p.payload.length ≤ n ∧ raw.length = n ∧
      raw = p.fill n := by
  rw [encode] at h
  split at h
  · rename_i hfits
    obtain rfl := Option.some.inj h
    refine ⟨hfits.1, hfits.2, ?_, rfl⟩
    rw [Packet.fill, length_write, List.length_replicate]
    rw [List.length_replicate]
    exact (layout p hfits.2).fits
  · cases h

/-- A field of a frame that was written. -/
theorem get_of_encode (h : encode p n = some raw) {i len : ℕ} {bs : Bytes}
    (hmem : (i, bs) ∈ p.fields) (hlen : bs.length = len) : get i len raw = bs := by
  obtain ⟨-, hn, -, rfl⟩ := encode_eq_some h
  subst hlen
  exact get_write (by rw [List.length_replicate]; exact layout p hn) hmem

/-- The version of a frame that was written. -/
theorem version_of_encode (h : encode p n = some raw) : version raw = [p.version] :=
  get_of_encode h (by simp [Packet.fields, Header.fields]) rfl

/-- A field of one byte is read back. -/
theorem byte_of_encode (h : encode p n = some raw) {i : ℕ} {b : UInt8}
    (hmem : (i, [b]) ∈ p.fields) (hi : i < raw.length) : raw.getD i 0 = b := by
  have hget := get_of_encode h hmem rfl
  rw [List.length_singleton, get_one hi] at hget
  exact List.cons.inj hget |>.1

/-- A field of 32 bytes is read back. -/
theorem get32_of_encode (h : encode p n = some raw) {i : ℕ} {id : Bytes32}
    (hi : i + 32 ≤ raw.length) (hmem : (i, id.toList) ∈ p.fields) : get32 i raw hi = id :=
  Subtype.ext (get_of_encode h hmem id.toList_length)

/-- A number of eight bytes is read back. -/
theorem getUint64_of_encode (h : encode p n = some raw) {i : ℕ} {k : UInt64}
    (hmem : (i, bigEndian 8 k.toNat) ∈ p.fields) : getUint64 i raw = k := by
  have hmod : k.toNat % 256 ^ 8 = k.toNat := Nat.mod_eq_of_lt k.toNat_lt
  rw [getUint64, get_of_encode h hmem (length_bigEndian 8 _), ofBigEndian_bigEndian, hmod,
    UInt64.ofNat_toNat]

/-- The header of a frame that was written. -/
theorem readHeader_encode (h : encode p n = some raw) : readHeader raw = some p.toHeader := by
  obtain ⟨-, hn, hraw, -⟩ := encode_eq_some h
  have hlong : 88 ≤ raw.length := by
    unfold headerSize at hn
    omega
  have hpre : get 0 6 raw = preamble :=
    get_of_encode h (by simp [Packet.fields, Header.fields]) rfl
  have hversion : raw.getD 6 0 = p.version :=
    byte_of_encode h (by simp [Packet.fields, Header.fields]) (by omega)
  have hmsgType : raw.getD 7 0 = p.msgType :=
    byte_of_encode h (by simp [Packet.fields, Header.fields]) (by omega)
  have hid : ∀ hi, get32 8 raw hi = p.id :=
    fun hi => get32_of_encode h hi (by simp [Packet.fields, Header.fields])
  have hsubtree : ∀ hi, get32 56 raw hi = p.subtreeID :=
    fun hi => get32_of_encode h hi (by simp [Packet.fields, Header.fields])
  have hkey : getUint64 40 raw = p.hashKey :=
    getUint64_of_encode h (by simp [Packet.fields, Header.fields])
  have hseq : getUint64 48 raw = p.seqNum :=
    getUint64_of_encode h (by simp [Packet.fields, Header.fields])
  rw [readHeader, dif_pos ⟨hpre, hlong⟩, hversion, hmsgType, hid, hsubtree, hkey, hseq]

/-- **A frame that is written is read back.** -/
theorem read_encode (h : encode p n = some raw) : read raw = some p := by
  obtain ⟨hsmall, hn, hraw, -⟩ := encode_eq_some h
  have hlen : ofBigEndian (get 88 4 raw) = p.payload.length := by
    rw [get_of_encode h (by simp [Packet.fields]) (length_bigEndian 4 p.payload.length),
      ofBigEndian_bigEndian]
    exact Nat.mod_eq_of_lt hsmall
  have hpayload : get headerSize p.payload.length raw = p.payload :=
    get_of_encode h (by simp [Packet.fields]) rfl
  rw [read, hlen, if_pos (by omega), readHeader_encode h, hpayload]
  rfl

/-- **An encoded transaction is decoded again.** -/
theorem decode_encode {f : Frame} (hver : f.version = frameVerV2)
    (h : encode (.ofFrame f) n = some raw) : decode raw = some f := by
  have hversion : version raw ≠ [frameVerV1] := by
    rw [version_of_encode h]
    exact (by decide : [frameVerV2] ≠ [frameVerV1])
  have hframe : (Packet.ofFrame f).transaction = some f := by
    rw [Packet.transaction, ← hver]
    exact if_pos hver.symm
  rw [decode, if_neg hversion, read_encode h, Option.bind_some, hframe]

end RoundTrip

end Wire

/-- The codec with these layouts, for the default of two shard bits. SHA-256 is not computed, so
it is for workers that do not verify payloads. -/
def Codec.wire : Codec where
  isBlockFrame := fun raw => Wire.version raw = [frameVerV4]
  isSubtreeDataFrame := fun raw => Wire.version raw = [frameVerV5]
  isFragment := fun raw => Wire.version raw = [Wire.frameVerV3]
  decode := Wire.decode
  decodeBlock := fun raw => (Wire.read raw).bind Wire.Packet.block
  decodeSubtreeData := fun raw => (Wire.read raw).bind Wire.Packet.subtreeData
  decodeFragment := Wire.decodeFragment
  encode := fun f => Wire.encode (.ofFrame f)
  encodeBlock := fun bf => Wire.encode (.ofBlock bf)
  encodeSubtreeData := fun sf => Wire.encode (.ofSubtreeData sf)
  groupIndex := fun txID => UInt32.ofNat (txID.head.toNat / 64)
  sha256 := fun _ => Bytes32.ofByte 0

end ShardListener
