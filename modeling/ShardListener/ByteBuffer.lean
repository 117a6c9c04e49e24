import Mathlib.Algebra.Ring.Nat
import Mathlib.Data.List.Basic
import Mathlib.Data.List.Induction
import Mathlib.Data.List.Pairwise

/-!
# Byte Buffers of Fixed Layout

A message of fixed layout is a list of **fields**, each some bytes at an offset, that are
written one after the other into a buffer (`write`) and read back by offset and length
(`get`). As long as the fields are laid out in order without overlap, each is read back as it
was written, whatever the buffer held before (`get_write`).

Numbers are stored most significant byte first (`bigEndian`).

A `Format` is a layout without holes: the fields of a value tile the buffer up to a fixed
size. Two buffers that agree on the fields then agree up to there (`Format.take_write`), and
writing touches nothing behind it (`Format.drop_write`). `Inverse` is what one expects of an
encoder and a decoder for such a format, and `Inverse.of_format` the rule to prove it: say
which fields an accepted datagram shows.
-/

universe u v

namespace ByteBuffer

variable {i j n : ℕ} {bs buf : List UInt8}

/-! ### Reading and writing -/

/-- Overwrite the buffer from the offset `i` on. -/
def put (i : ℕ) (bs buf : List UInt8) : List UInt8 :=
  buf.take i ++ (bs ++ buf.drop (i + bs.length))

/-- The `n` bytes from the offset `i` on. -/
def get (i n : ℕ) (buf : List UInt8) : List UInt8 := (buf.drop i).take n

theorem length_get (h : i + n ≤ buf.length) : (get i n buf).length = n := by
  rw [get, List.length_take, List.length_drop]
  omega

theorem length_put (h : i + bs.length ≤ buf.length) : (put i bs buf).length = buf.length := by
  rw [put, List.length_append, List.length_append, List.length_take, List.length_drop]
  omega

/-- What was written is read back. -/
theorem get_put (h : i ≤ buf.length) : get i bs.length (put i bs buf) = bs := by
  rw [get, put, List.drop_left' (List.length_take_of_le h), List.take_left]

/-- A write does not touch what is before it. -/
theorem get_put_of_le (h : i ≤ buf.length) (hle : j + n ≤ i) :
    get j n (put i bs buf) = get j n buf := by
  have hlen : (buf.take i).length = i := List.length_take_of_le h
  rw [get, put, List.drop_append_of_le_length (by omega),
    List.take_append_of_le_length (by rw [List.length_drop]; omega), List.drop_take, List.take_take,
    Nat.min_eq_left (by omega), get]

/-- A write does not touch what is behind it. -/
theorem get_put_of_ge (h : i + bs.length ≤ buf.length) (hle : i + bs.length ≤ j) :
    get j n (put i bs buf) = get j n buf := by
  have hlen : (buf.take i ++ bs).length = i + bs.length := by
    rw [List.length_append, List.length_take_of_le (by omega)]
  rw [get, put, ← List.append_assoc, List.drop_append, List.drop_eq_nil_of_le (by omega), hlen,
    List.nil_append, List.drop_drop, get, show i + bs.length + (j - (i + bs.length)) = j by omega]

/-- A read splits at any point. -/
theorem get_add (i m n : ℕ) (buf : List UInt8) :
    get i (m + n) buf = get i m buf ++ get (i + m) n buf := by
  rw [get, List.take_add, List.drop_drop]
  rfl

/-- A single byte. -/
theorem get_one (h : i < buf.length) : get i 1 buf = [buf.getD i 0] := by
  rw [get, List.take_one, List.head?_drop, List.getD_eq_getElem?_getD, List.getElem?_eq_getElem h]
  rfl

/-- A slice of a first part. -/
theorem get_take {k : ℕ} (h : i + n ≤ k) : get i n (buf.take k) = get i n buf := by
  rw [get, get, List.drop_take, List.take_take, Nat.min_eq_left (by omega)]

/-! ### Layouts -/

/-- Write the fields one after the other. -/
def write (fields : List (ℕ × List UInt8)) (buf : List UInt8) : List UInt8 :=
  fields.foldl (fun buf field => put field.1 field.2 buf) buf

/-- The fields fit into a buffer of length `n`, in order and without overlap. -/
structure Layout (fields : List (ℕ × List UInt8)) (n : ℕ) : Prop where
  ordered : fields.Pairwise fun field field' => field.1 + field.2.length ≤ field'.1
  fits : ∀ field ∈ fields, field.1 + field.2.length ≤ n

theorem length_write {fields : List (ℕ × List UInt8)}
    (h : ∀ field ∈ fields, field.1 + field.2.length ≤ buf.length) :
    (write fields buf).length = buf.length := by
  induction fields generalizing buf with
  | nil => rfl
  | cons field fields ih =>
      have hput := length_put (h field List.mem_cons_self)
      rw [write, List.foldl_cons, ← write, ih, hput]
      intro field' hmem
      rw [hput]
      exact h field' (List.mem_cons_of_mem _ hmem)

/-- Writing fields does not touch what is before them. -/
theorem get_write_of_le {fields : List (ℕ × List UInt8)}
    (h : ∀ field ∈ fields, field.1 + field.2.length ≤ buf.length)
    (hle : ∀ field ∈ fields, j + n ≤ field.1) : get j n (write fields buf) = get j n buf := by
  induction fields generalizing buf with
  | nil => rfl
  | cons field fields ih =>
      have hfield := h field List.mem_cons_self
      rw [write, List.foldl_cons, ← write, ih]
      · exact get_put_of_le (by omega) (hle field List.mem_cons_self)
      · intro field' hmem
        rw [length_put hfield]
        exact h field' (List.mem_cons_of_mem _ hmem)
      · exact fun field' hmem => hle field' (List.mem_cons_of_mem _ hmem)

/-- Writing fields does not touch what is beside them. -/
theorem get_write_of_disjoint {fields : List (ℕ × List UInt8)}
    (h : ∀ field ∈ fields, field.1 + field.2.length ≤ buf.length)
    (hdis : ∀ field ∈ fields, j + n ≤ field.1 ∨ field.1 + field.2.length ≤ j) :
    get j n (write fields buf) = get j n buf := by
  induction fields generalizing buf with
  | nil => rfl
  | cons field fields ih =>
      have hfield := h field List.mem_cons_self
      rw [write, List.foldl_cons, ← write, ih]
      · rcases hdis field List.mem_cons_self with hle | hge
        · exact get_put_of_le (by omega) hle
        · exact get_put_of_ge hfield hge
      · intro field' hmem
        rw [length_put hfield]
        exact h field' (List.mem_cons_of_mem _ hmem)
      · exact fun field' hmem => hdis field' (List.mem_cons_of_mem _ hmem)

/-- **Every field is read back as it was written.** -/
theorem get_write {fields : List (ℕ × List UInt8)} (h : Layout fields buf.length)
    (hmem : (i, bs) ∈ fields) : get i bs.length (write fields buf) = bs := by
  induction fields generalizing buf with
  | nil => cases hmem
  | cons field fields ih =>
      obtain ⟨hbefore, hordered⟩ := List.pairwise_cons.mp h.ordered
      have hfield := h.fits field List.mem_cons_self
      have hlen := length_put hfield
      have hrest : ∀ field' ∈ fields,
          field'.1 + field'.2.length ≤ (put field.1 field.2 buf).length := by
        intro field' hmem'
        rw [hlen]
        exact h.fits field' (List.mem_cons_of_mem _ hmem')
      rw [write, List.foldl_cons, ← write]
      rcases List.mem_cons.mp hmem with rfl | hmem
      · rw [get_write_of_le hrest hbefore]
        exact get_put (by omega)
      · exact ih ⟨hordered, hrest⟩ hmem

/-! ### Numbers -/

/-- The last `w` bytes of a number, the most significant one first. -/
def bigEndian : ℕ → ℕ → List UInt8
  | 0, _ => []
  | w + 1, n => bigEndian w (n / 256) ++ [UInt8.ofNat n]

/-- The number with the given bytes, the most significant one first. -/
def ofBigEndian (bs : List UInt8) : ℕ := bs.foldl (fun acc b => acc * 256 + b.toNat) 0

@[simp] theorem length_bigEndian (w n : ℕ) : (bigEndian w n).length = w := by
  induction w generalizing n with
  | zero => rfl
  | succ w ih => rw [bigEndian, List.length_append, ih, List.length_singleton]

/-- A number that fits is read back as it was written. -/
theorem ofBigEndian_bigEndian (w n : ℕ) : ofBigEndian (bigEndian w n) = n % 256 ^ w := by
  induction w generalizing n with
  | zero => rw [Nat.pow_zero, Nat.mod_one]; rfl
  | succ w ih =>
      have hlast : ofBigEndian (bigEndian w (n / 256) ++ [UInt8.ofNat n]) =
          ofBigEndian (bigEndian w (n / 256)) * 256 + (UInt8.ofNat n).toNat := List.foldl_append
      have hsplit : n % 256 ^ (w + 1) = n % 256 + 256 * (n / 256 % 256 ^ w) := by
        rw [Nat.pow_succ', Nat.mod_mul]
      rw [bigEndian, hlast, ih, UInt8.toNat_ofNat', hsplit]
      omega

/-- As many bytes hold numbers up to a power of 256. -/
theorem ofBigEndian_lt (bs : List UInt8) : ofBigEndian bs < 256 ^ bs.length := by
  induction bs using List.reverseRecOn with
  | nil => exact Nat.one_pos
  | append_singleton bs b ih =>
      have hb : b.toNat < 256 := b.toNat_lt
      have hlast : ofBigEndian (bs ++ [b]) = ofBigEndian bs * 256 + b.toNat := List.foldl_append
      rw [hlast, List.length_append, List.length_singleton, Nat.pow_succ]
      omega

/-- Bytes that are read as a number are written again. -/
theorem bigEndian_ofBigEndian (bs : List UInt8) : bigEndian bs.length (ofBigEndian bs) = bs := by
  induction bs using List.reverseRecOn with
  | nil => rfl
  | append_singleton bs b ih =>
      have hb : b.toNat < 256 := b.toNat_lt
      have hlast : ofBigEndian (bs ++ [b]) = ofBigEndian bs * 256 + b.toNat := List.foldl_append
      have hdiv : (ofBigEndian bs * 256 + b.toNat) / 256 = ofBigEndian bs := by omega
      have hbyte : UInt8.ofNat (ofBigEndian bs * 256 + b.toNat) = b := by
        apply UInt8.toNat_inj.mp
        rw [UInt8.toNat_ofNat']
        omega
      rw [List.length_append, List.length_singleton, bigEndian, hlast, hdiv, ih, hbyte]

/-- The number at an offset, in `w` bytes. -/
def number (i w : ℕ) (buf : List UInt8) : ℕ := ofBigEndian (get i w buf)

/-- The bytes of a number that is read are those of the buffer. -/
theorem bigEndian_number (h : i + n ≤ buf.length) : bigEndian n (number i n buf) = get i n buf := by
  have hbytes := bigEndian_ofBigEndian (get i n buf)
  rwa [length_get h] at hbytes

theorem number_lt (h : i + n ≤ buf.length) : number i n buf < 256 ^ n := by
  have hlt := ofBigEndian_lt (get i n buf)
  rwa [length_get h] at hlt

/-- A number is found exactly where its bytes are. -/
theorem number_eq_iff {k : ℕ} (h : i + n ≤ buf.length) (hk : k < 256 ^ n) :
    number i n buf = k ↔ get i n buf = bigEndian n k := by
  constructor
  · rintro rfl
    exact (bigEndian_number h).symm
  · intro hget
    rw [number, hget, ofBigEndian_bigEndian, Nat.mod_eq_of_lt hk]

/-! ### Formats without holes -/

/-- Regions, given by offset and length, that cover the buffer from `i` to `n` one after the
other. -/
def Tiles : ℕ → List (ℕ × ℕ) → ℕ → Prop
  | i, [], n => i = n
  | i, (j, len) :: regions, n => j = i ∧ Tiles (i + len) regions n

/-- Tiles end where they should. -/
theorem Tiles.le {regions : List (ℕ × ℕ)} (h : Tiles i regions n) : i ≤ n := by
  induction regions generalizing i with
  | nil => exact le_of_eq h
  | cons region regions ih =>
      have := ih h.2
      omega

/-- A tile lies between the ends. -/
theorem Tiles.within {regions : List (ℕ × ℕ)} (h : Tiles i regions n) :
    ∀ region ∈ regions, i ≤ region.1 ∧ region.1 + region.2 ≤ n := by
  induction regions generalizing i with
  | nil => exact fun _ hmem => nomatch hmem
  | cons region regions ih =>
      obtain ⟨hstart, hrest⟩ := h
      have hle := hrest.le
      intro region' hmem
      rcases List.mem_cons.mp hmem with rfl | hmem
      · omega
      · have := ih hrest region' hmem
        omega

/-- No two tiles overlap. -/
theorem Tiles.ordered {regions : List (ℕ × ℕ)} (h : Tiles i regions n) :
    regions.Pairwise fun region region' => region.1 + region.2 ≤ region'.1 := by
  induction regions generalizing i with
  | nil => exact .nil
  | cons region regions ih =>
      obtain ⟨hstart, hrest⟩ := h
      refine .cons ?_ (ih hrest)
      intro region' hmem
      have := (hrest.within region' hmem).1
      omega

/-- Buffers that agree on the tiles agree on what they cover. -/
theorem Tiles.get_eq {regions : List (ℕ × ℕ)} (h : Tiles i regions n) {buf' : List UInt8}
    (hget : ∀ region ∈ regions, get region.1 region.2 buf = get region.1 region.2 buf') :
    get i (n - i) buf = get i (n - i) buf' := by
  induction regions generalizing i with
  | nil =>
      rw [show n - i = 0 by rw [show i = n from h, Nat.sub_self]]
      rfl
  | cons region regions ih =>
      obtain ⟨hstart, hrest⟩ := h
      have hle := hrest.le
      have hfirst := hget region List.mem_cons_self
      rw [hstart] at hfirst
      rw [show n - i = region.2 + (n - (i + region.2)) by omega, get_add, get_add, hfirst,
        ih hrest fun region' hmem => hget region' (List.mem_cons_of_mem _ hmem)]

/-- A format of fixed size: the fields that are written for a value, without a hole. -/
structure Format (α : Type u) where
  size : ℕ
  fields : α → List (ℕ × List UInt8)
  tiles : ∀ a, Tiles 0 ((fields a).map fun field => (field.1, field.2.length)) size

namespace Format

variable {α : Type u} (F : Format α) (a : α)

theorem layout (h : F.size ≤ n) : Layout (F.fields a) n where
  ordered := List.pairwise_map.mp (F.tiles a).ordered
  fits := by
    intro field hmem
    have := ((F.tiles a).within _ (List.mem_map_of_mem hmem)).2
    dsimp only at this
    omega

theorem length_write (h : F.size ≤ buf.length) :
    (write (F.fields a) buf).length = buf.length := ByteBuffer.length_write (F.layout a h).fits

/-- A field of a value that was written. -/
theorem get_write (h : F.size ≤ buf.length) {len : ℕ} (hmem : (i, bs) ∈ F.fields a)
    (hlen : bs.length = len) : get i len (write (F.fields a) buf) = bs := by
  subst hlen
  exact ByteBuffer.get_write (F.layout a h) hmem

/-- **Nothing behind the fixed size is touched.** -/
theorem drop_write (h : F.size ≤ buf.length) :
    (write (F.fields a) buf).drop F.size = buf.drop F.size := by
  have hget : get F.size buf.length (write (F.fields a) buf) = get F.size buf.length buf := by
    refine get_write_of_disjoint (F.layout a h).fits ?_
    intro field hmem
    exact .inr ((F.tiles a).within _ (List.mem_map_of_mem hmem)).2
  have hall : ∀ buf' : List UInt8, buf'.length = buf.length →
      get F.size buf.length buf' = buf'.drop F.size := by
    intro buf' hlen
    refine List.take_of_length_le ?_
    rw [List.length_drop]
    omega
  rwa [hall _ (F.length_write a h), hall _ rfl] at hget

/-- Two fields with nothing in common. -/
def Apart (field field' : ℕ × List UInt8) : Prop :=
  field.1 + field.2.length ≤ field'.1 ∨ field'.1 + field'.2.length ≤ field.1

instance : Std.Symm Apart := ⟨fun _ _ => Or.symm⟩

/-- Different fields lie beside each other. -/
theorem apart {field field' : ℕ × List UInt8} (hmem : field ∈ F.fields a)
    (hmem' : field' ∈ F.fields a) (hne : field ≠ field') : Apart field field' := by
  have hpair : (F.fields a).Pairwise Apart := (F.layout a le_rfl).ordered.imp Or.inl
  exact hpair.forall hmem hmem' hne

/-- **The fixed part is determined by the fields.** -/
theorem take_write (h : F.size ≤ buf.length) {buf' : List UInt8}
    (hget : ∀ field ∈ F.fields a, get field.1 field.2.length buf' = field.2) :
    (write (F.fields a) buf).take F.size = buf'.take F.size := by
  have hsame : get 0 (F.size - 0) (write (F.fields a) buf) = get 0 (F.size - 0) buf' := by
    refine (F.tiles a).get_eq ?_
    intro region hmem
    obtain ⟨field, hfield, rfl⟩ := List.mem_map.mp hmem
    rw [F.get_write a h hfield rfl, hget field hfield]
  exact hsame

end Format

/-- An encoder and a decoder of messages of a fixed size that are inverse of each other. `Valid`
are the values they are meant for, `Accepted` the datagrams, and `canonical` the fields that
the decoder does not look at and the encoder fills in. -/
structure Inverse {α : Type u} {ε : Type v} (size : ℕ)
    (encode : α → List UInt8 → Option (List UInt8)) (decode : List UInt8 → Except ε α)
    (Valid : α → Prop) (Accepted : List UInt8 → Prop) (canonical : List (ℕ × List UInt8)) :
    Prop where
  /-- A value that is encoded into a buffer is decoded from it, and the rest of the buffer is
  not touched. -/
  decode_encode : ∀ a, Valid a → ∀ buf : List UInt8, size ≤ buf.length →
    ∃ out, encode a buf = some out ∧ decode out = .ok a ∧ out.length = buf.length ∧
      out.drop size = buf.drop size
  /-- What is accepted. -/
  accepted : ∀ buf, (∃ a, decode buf = .ok a) ↔ Accepted buf
  /-- A datagram that is decoded and encoded again is the same up to the canonical fields. -/
  encode_decode : ∀ raw a, decode raw = .ok a → ∀ buf : List UInt8, size ≤ buf.length →
    ∃ out, encode a buf = some out ∧ out.take size = (write canonical raw).take size

section Inverse

variable {α : Type u} {ε : Type v} {F : Format α}
  {encode : α → List UInt8 → Option (List UInt8)} {decode : List UInt8 → Except ε α}
  {Valid : α → Prop} {Accepted : List UInt8 → Prop} {canonical : List (ℕ × List UInt8)}

/-- A datagram shows all fields of a value but the canonical ones. -/
def Format.Shows (F : Format α) (canonical : List (ℕ × List UInt8)) (buf : List UInt8) (a : α) :
    Prop :=
  ∀ field ∈ F.fields a, field ∉ canonical → get field.1 field.2.length buf = field.2

/-- What lies behind the fields does not matter. -/
theorem Format.shows_take {a : α} {k : ℕ} (hk : F.size ≤ k) (buf : List UInt8) :
    F.Shows canonical (buf.take k) a ↔ F.Shows canonical buf a := by
  refine forall₂_congr fun field hmem => forall_congr' fun _ => ?_
  rw [get_take (Nat.le_trans ((F.layout a le_rfl).fits field hmem) hk)]

/-- Filling in the canonical fields of a datagram that shows all the others makes it show every
field. -/
theorem Format.Shows.write {a : α} {raw : List UInt8} (h : F.Shows canonical raw a)
    (hraw : F.size ≤ raw.length) (hcanon : canonical.Sublist (F.fields a)) :
    ∀ field ∈ F.fields a,
      get field.1 field.2.length (ByteBuffer.write canonical raw) = field.2 := by
  have hlayout := F.layout a hraw
  intro field hmem
  by_cases hfield : field ∈ canonical
  · exact ByteBuffer.get_write
      ⟨hlayout.ordered.sublist hcanon, fun f hf => hlayout.fits f (hcanon.subset hf)⟩ hfield
  · rw [get_write_of_disjoint fun f hf => hlayout.fits f (hcanon.subset hf)]
    · exact h field hmem hfield
    · intro f hf
      refine F.apart a hmem (hcanon.subset hf) ?_
      rintro rfl
      exact hfield hf

/-- **The rule for codecs**: an encoder that writes the fields of a format, and a decoder that
accepts exactly the datagrams that show the fields of a valid value, are inverse of each
other. -/
theorem Inverse.of_format
    (hencode : ∀ a buf, encode a buf =
      if buf.length < F.size then none else some (write (F.fields a) buf))
    (hdecode : ∀ buf a, decode buf = .ok a ↔
      F.size ≤ buf.length ∧ Valid a ∧ F.Shows canonical buf a)
    (hcanon : ∀ a, canonical.Sublist (F.fields a))
    (haccepted : ∀ buf, (∃ a, decode buf = .ok a) ↔ Accepted buf) :
    Inverse F.size encode decode Valid Accepted canonical where
  decode_encode := by
    intro a ha buf hbuf
    refine ⟨write (F.fields a) buf, ?_, ?_, F.length_write a hbuf, F.drop_write a hbuf⟩
    · rw [hencode, if_neg (not_lt.mpr hbuf)]
    · refine (hdecode _ a).mpr ⟨?_, ha, ?_⟩
      · rwa [F.length_write a hbuf]
      · exact fun field hmem _ => F.get_write a hbuf hmem rfl
  accepted := haccepted
  encode_decode := by
    intro raw a hraw buf hbuf
    obtain ⟨hlen, -, hshows⟩ := (hdecode raw a).mp hraw
    refine ⟨write (F.fields a) buf, ?_, F.take_write a hbuf (hshows.write hlen (hcanon a))⟩
    rw [hencode, if_neg (not_lt.mpr hbuf)]

end Inverse

end ByteBuffer
