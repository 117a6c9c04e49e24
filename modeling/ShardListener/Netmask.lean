import Mathlib.Data.List.Basic

/-!
# Network Masks

A mask of `n` bytes with `ones` leading bits set, and what comparing two addresses under it
means: they agree in their first `ones` bits.

The two sides are related byte by byte: under a partial mask two bytes are equal when the bits
it leaves are (`and_maskByte_eq_iff`).
-/

namespace Netmask

/-- The bits of a byte, most significant first. -/
def bits (b : UInt8) : List Bool := (List.range 8).map b.toBitVec.getMsbD

/-- The bits of an address. -/
def addressBits (a : List UInt8) : List Bool := a.flatMap bits

/-- The byte with `k` leading bits set. -/
def maskByte (k : ℕ) : UInt8 := ~~~(0xFF >>> UInt8.ofNat k)

/-- The mask of `n` bytes with `ones` leading bits set. -/
def mask : ℕ → ℕ → List UInt8
  | _, 0 => []
  | ones, n + 1 => if 8 ≤ ones then 0xFF :: mask (ones - 8) n else maskByte ones :: mask 0 n

/-- An address under a mask. -/
def apply (a m : List UInt8) : List UInt8 := List.zipWith (· &&& ·) a m

/-- A byte has eight bits. -/
theorem length_bits (b : UInt8) : (bits b).length = 8 := by simp [bits]

/-- A mask is as long as the address. -/
theorem length_mask (ones n : ℕ) : (mask ones n).length = n := by
  induction n generalizing ones with
  | zero => rfl
  | succ n ih =>
      rw [mask]
      split <;> simp [ih]

/-- A full byte of the mask keeps the byte of the address. -/
theorem and_ff (b : UInt8) : b &&& 0xFF = b := by
  rw [← UInt8.toBitVec_inj, UInt8.toBitVec_and]
  exact BitVec.and_allOnes

/-- The end of a mask is a mask. -/
theorem drop_mask (k ones n : ℕ) : (mask ones (k + n)).drop k = mask (ones - 8 * k) n := by
  induction k generalizing ones with
  | zero => rw [Nat.zero_add, List.drop_zero, Nat.mul_zero, Nat.sub_zero]
  | succ k ih =>
      rw [Nat.succ_add, mask]
      split
      · rw [List.drop_succ_cons, ih]
        congr 1
        omega
      · rw [List.drop_succ_cons, ih]
        congr 1
        omega

/-- The mask that leaves everything. -/
theorem mask_full (n : ℕ) : mask (8 * n) n = List.replicate n 0xFF := by
  induction n with
  | zero => rfl
  | succ n ih =>
      rw [mask, if_pos (by omega), Nat.mul_succ, Nat.add_sub_cancel, ih, List.replicate_succ]

/-- The leading bits of a byte. -/
theorem take_bits {k : ℕ} (hk : k ≤ 8) (b : UInt8) :
    (bits b).take k = (List.range k).map b.toBitVec.getMsbD := by
  rw [bits, ← List.map_take, List.take_range, Nat.min_eq_left hk]

/-- The byte in which the mask ends has its leading bits set. -/
theorem getMsbD_maskByte {k j : ℕ} (hk : k < 8) (hj : j < 8) :
    (maskByte k).toBitVec.getMsbD j = decide (j < k) := by
  have h : ∀ k < 8, ∀ j < 8, (maskByte k).toBitVec.getMsbD j = decide (j < k) := by decide
  exact h k hk j hj

/-- Two bytes are equal under a partial mask when their first bits are. -/
theorem and_maskByte_eq_iff {k : ℕ} (hk : k < 8) (a b : UInt8) :
    a &&& maskByte k = b &&& maskByte k ↔ (bits a).take k = (bits b).take k := by
  rw [take_bits (Nat.le_of_lt hk), take_bits (Nat.le_of_lt hk), List.map_inj_left,
    ← UInt8.toBitVec_inj,
    UInt8.toBitVec_and, UInt8.toBitVec_and]
  constructor
  · intro h j hj
    have hjk : j < k := List.mem_range.mp hj
    have hbit := congrArg (fun v => v.getMsbD j) h
    simpa [getMsbD_maskByte hk (Nat.lt_trans hjk hk), hjk] using hbit
  · intro h
    refine BitVec.eq_of_getMsbD_eq ?_
    intro j hj
    rw [BitVec.getMsbD_and, BitVec.getMsbD_and, getMsbD_maskByte hk hj]
    by_cases hjk : j < k
    · rw [h j (List.mem_range.mpr hjk)]
    · simp [hjk]

/-- A byte is determined by its bits. -/
theorem bits_inj {a b : UInt8} : bits a = bits b ↔ a = b := by
  rw [bits, bits, List.map_inj_left, ← UInt8.toBitVec_inj]
  constructor
  · intro h
    exact BitVec.eq_of_getMsbD_eq fun j hj => h j (List.mem_range.mpr hj)
  · intro h j _
    rw [h]

/-- Nothing is left of an address under a mask without ones. -/
theorem apply_mask_zero {a b : List UInt8} (h : a.length = b.length) (n : ℕ) :
    apply a (mask 0 n) = apply b (mask 0 n) := by
  induction n generalizing a b with
  | zero => simp [apply, mask]
  | succ n ih =>
      cases a with
      | nil =>
          rw [List.length_nil, eq_comm, List.length_eq_zero_iff] at h
          rw [h]
      | cons x a =>
          cases b with
          | nil => exact absurd h (Nat.succ_ne_zero _)
          | cons y b =>
              have hrest := ih (Nat.succ.inj h)
              have hmask : maskByte 0 = 0 := by decide
              simpa [apply, mask, hmask] using hrest

/-- **Addresses are equal under a mask when their leading bits agree.** -/
theorem apply_mask_eq_iff {a b : List UInt8} {n : ℕ} (ha : a.length = n) (hb : b.length = n)
    (ones : ℕ) :
    apply a (mask ones n) = apply b (mask ones n) ↔
      (addressBits a).take ones = (addressBits b).take ones := by
  -- whole bytes first, then the byte the mask ends in
  induction n generalizing a b ones with
  | zero =>
      rw [List.length_eq_zero_iff.mp ha, List.length_eq_zero_iff.mp hb]
      exact iff_of_true rfl rfl
  | succ n ih =>
      obtain ⟨x, a, rfl⟩ := List.exists_cons_of_length_eq_add_one ha
      obtain ⟨y, b, rfl⟩ := List.exists_cons_of_length_eq_add_one hb
      have ha' : a.length = n := Nat.succ.inj ha
      have hb' : b.length = n := Nat.succ.inj hb
      have hlen : ((bits x).take ones).length = ((bits y).take ones).length := by
        rw [List.length_take, List.length_take, length_bits, length_bits]
      have hsplit : (addressBits (x :: a)).take ones = (addressBits (y :: b)).take ones ↔
          (bits x).take ones = (bits y).take ones ∧
            (addressBits a).take (ones - 8) = (addressBits b).take (ones - 8) := by
        simp only [addressBits, List.flatMap_cons, List.take_append, length_bits]
        exact ⟨fun h => List.append_inj h hlen, fun h => by rw [h.1, h.2]⟩
      rw [hsplit, mask]
      by_cases hones : 8 ≤ ones
      · have hfull (z : UInt8) : (bits z).take ones = bits z :=
          List.take_of_length_le (Nat.le_trans (Nat.le_of_eq (length_bits z)) hones)
        rw [if_pos hones, hfull, hfull, bits_inj, ← ih ha' hb']
        simp [apply, and_ff]
      · rw [if_neg hones, Nat.sub_eq_zero_of_le (Nat.le_of_not_le hones), List.take_zero,
          List.take_zero, ← and_maskByte_eq_iff (Nat.lt_of_not_le hones)]
        have hrest := apply_mask_zero (ha'.trans hb'.symm) n
        simp only [apply] at hrest
        simp [apply, hrest]

/-- A full mask leaves the address as it is. -/
theorem apply_mask_full {a : List UInt8} {n : ℕ} (ha : a.length = n) :
    apply a (mask (8 * n) n) = a := by
  rw [mask_full, ← ha, apply]
  induction a generalizing n with
  | nil => rfl
  | cons x a ih =>
      rw [List.length_cons, List.replicate_succ, List.zipWith_cons_cons, and_ff, ih rfl]

end Netmask
