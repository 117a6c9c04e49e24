import ShardListener.Frame
import ShardListener.Text

/-!
# The Grammar of Group Ids

`parseGroupID` of `config/config.go` reads the IANA group id of a multicast address. The text is
a hexadecimal number after `0x`, or a decimal number; when it cannot be read as a decimal number
of 16 bits, it is tried as a hexadecimal one. The second attempt is also made for a decimal
number that is too large. It then fails, too, because the same digits are worth more in base 16.

## Main results

* `GroupIDText`: the texts of the grammar, with their values.
* `parseGroupID_eq_ok`: exactly these are read.
* `group_id_grammar`: the same for untrimmed texts, and that decimal digits stay decimal.
-/

namespace ShardListener

open Text

/-- Why a text is not a group id. -/
inductive GroupIDError
  /-- "empty value". -/
  | empty
  | number (err : NumError)
  deriving DecidableEq

/-- `strings.ToLower` for the letters A to Z. The lower case of no other character has an `x` or
a figure, so nothing else matters for the two characters that are looked at. -/
def toLower (c : UInt8) : UInt8 := if 0x41 ≤ c ∧ c ≤ 0x5A then c + 0x20 else c

/-- The text starts with `0x` once it is in lower case. -/
def hasHexMark (s : Bytes) : Bool := (ascii "0x").isPrefixOf (s.map toLower)

/-- The number at the end of `parseGroupID`. -/
def readGroupID (s : Bytes) (base : ℕ) : Except GroupIDError UInt16 :=
  match parseUint s base 16 with
  | .ok n => .ok (UInt16.ofNat n)
  | .error err => .error (.number err)

/-- The base of a text without a mark: 10 if it can be read so. -/
def baseOf (s : Bytes) : ℕ :=
  match parseUint s 10 16 with
  | .ok _ => 10
  | .error _ => 16

/-- `parseGroupID`. -/
def parseGroupID (s : Bytes) : Except GroupIDError UInt16 :=
  let s := trimSpace s
  if s = [] then .error .empty
  else if hasHexMark s then readGroupID (s.drop 2) 16
  else readGroupID s (baseOf s)

/-! ### The grammar -/

/-- One of the ten figures. -/
def IsFigure (c : UInt8) : Prop := 0x30 ≤ c ∧ c ≤ 0x39

/-- One of the letters A to F, in either case. -/
def IsHexLetter (c : UInt8) : Prop := (0x61 ≤ c ∧ c ≤ 0x66) ∨ (0x41 ≤ c ∧ c ≤ 0x46)

/-- The texts that denote a group id, and the ids. -/
inductive GroupIDText : Bytes → ℕ → Prop
  /-- `0x` or `0X` and hexadecimal digits. -/
  | marked {x : UInt8} {ds : Bytes} (hx : x = 0x78 ∨ x = 0x58) (hne : ds ≠ [])
      (hds : ∀ c ∈ ds, IsFigure c ∨ IsHexLetter c) (hfit : value 16 ds ≤ 0xFFFF) :
      GroupIDText (0x30 :: x :: ds) (value 16 ds)
  /-- Decimal digits. -/
  | decimal {ds : Bytes} (hne : ds ≠ []) (hds : ∀ c ∈ ds, IsFigure c)
      (hfit : value 10 ds ≤ 65535) : GroupIDText ds (value 10 ds)
  /-- Hexadecimal digits, a letter among them. -/
  | bare {ds : Bytes} (hds : ∀ c ∈ ds, IsFigure c ∨ IsHexLetter c)
      (hletter : ∃ c ∈ ds, IsHexLetter c) (hfit : value 16 ds ≤ 0xFFFF) :
      GroupIDText ds (value 16 ds)

/-! ### Characters -/

section Characters

variable {c : UInt8} {s : Bytes}

/-- The figures by their code. -/
theorem isFigure_iff : IsFigure c ↔ 0x30 ≤ c.toNat ∧ c.toNat ≤ 0x39 :=
  and_congr UInt8.le_iff_toNat_le UInt8.le_iff_toNat_le

/-- The hexadecimal letters by their code, in both cases. -/
theorem isHexLetter_iff : IsHexLetter c ↔
    (0x61 ≤ c.toNat ∧ c.toNat ≤ 0x66) ∨ (0x41 ≤ c.toNat ∧ c.toNat ≤ 0x46) :=
  or_congr (and_congr UInt8.le_iff_toNat_le UInt8.le_iff_toNat_le)
    (and_congr UInt8.le_iff_toNat_le UInt8.le_iff_toNat_le)

/-- The digits of base ten are the figures. -/
theorem digitValue_lt_ten : digitValue c < 10 ↔ IsFigure c := by
  rw [digitValue, isFigure_iff]
  simp only [UInt8.le_iff_toNat_le, UInt8.reduceToNat]
  split_ifs <;> omega

/-- The digits of base sixteen are the figures and the letters. -/
theorem digitValue_lt_sixteen : digitValue c < 16 ↔ IsFigure c ∨ IsHexLetter c := by
  rw [digitValue, isFigure_iff, isHexLetter_iff]
  simp only [UInt8.le_iff_toNat_le, UInt8.reduceToNat]
  split_ifs <;> omega

/-- A letter is no figure. -/
theorem IsHexLetter.not_figure (h : IsHexLetter c) : ¬ IsFigure c := by
  rw [isHexLetter_iff] at h
  rw [isFigure_iff]
  omega

/-- An `x` of the mark is no digit. -/
theorem not_digit_of_mark (h : c = 0x78 ∨ c = 0x58) : ¬ (IsFigure c ∨ IsHexLetter c) := by
  rw [← digitValue_lt_sixteen]
  rcases h with rfl | rfl
  · decide
  · decide

/-- A decimal numeral. -/
theorem numeral_ten : Numeral 10 s ↔ s ≠ [] ∧ ∀ c ∈ s, IsFigure c :=
  and_congr Iff.rfl (forall₂_congr fun _ _ => digitValue_lt_ten)

/-- A hexadecimal numeral. -/
theorem numeral_sixteen : Numeral 16 s ↔ s ≠ [] ∧ ∀ c ∈ s, IsFigure c ∨ IsHexLetter c :=
  and_congr Iff.rfl (forall₂_congr fun _ _ => digitValue_lt_sixteen)

/-- No letter becomes a zero. -/
theorem toLower_eq_zero : toLower c = 0x30 ↔ c = 0x30 := by
  rw [toLower]
  simp only [UInt8.le_iff_toNat_le, ← UInt8.toNat_inj, UInt8.reduceToNat]
  split_ifs with h
  · simp only [UInt8.toNat_add, UInt8.reduceToNat]
    omega
  · rfl

/-- An `x` may be written in both cases. -/
theorem toLower_eq_x : toLower c = 0x78 ↔ c = 0x78 ∨ c = 0x58 := by
  rw [toLower]
  simp only [UInt8.le_iff_toNat_le, ← UInt8.toNat_inj, UInt8.reduceToNat]
  split_ifs with h
  · simp only [UInt8.toNat_add, UInt8.reduceToNat]
    omega
  · omega

end Characters

/-! ### What is read -/

section Reading

variable {s : Bytes} {n : UInt16} {base : ℕ}

/-- The mark, and what follows it. -/
theorem hasHexMark_iff :
    hasHexMark s = true ↔ ∃ x ds, (x = 0x78 ∨ x = 0x58) ∧ s = 0x30 :: x :: ds := by
  have hmark : ascii "0x" = [0x30, 0x78] := by decide
  rw [hasHexMark, hmark, List.isPrefixOf_iff_prefix]
  match s with
  | [] => simp
  | [c] => simp
  | c :: x :: ds =>
      rw [List.map_cons, List.map_cons, List.cons_prefix_cons, List.cons_prefix_cons,
        @eq_comm _ 0x30, toLower_eq_zero, @eq_comm _ 0x78, toLower_eq_x]
      constructor
      · rintro ⟨rfl, hx, -⟩
        exact ⟨x, ds, hx, rfl⟩
      · rintro ⟨x', ds', hx, heq⟩
        obtain ⟨rfl, rfl, -⟩ : c = 0x30 ∧ x = x' ∧ ds = ds' := by
          simpa only [List.cons.injEq] using heq
        exact ⟨rfl, hx, List.nil_prefix⟩

/-- A numeral has no mark. -/
theorem not_hasHexMark (h : ∀ c ∈ s, IsFigure c ∨ IsHexLetter c) : hasHexMark s = false := by
  refine Bool.eq_false_of_not_eq_true fun hmark => ?_
  obtain ⟨x, ds, hx, rfl⟩ := hasHexMark_iff.mp hmark
  exact not_digit_of_mark hx (h x (List.mem_cons_of_mem _ List.mem_cons_self))

/-- A group id is read from a numeral that fits into 16 bits. -/
theorem readGroupID_eq_ok :
    readGroupID s base = .ok n ↔ Numeral base s ∧ value base s = n.toNat := by
  have hread : readGroupID s base = .ok n ↔ parseUint s base 16 = .ok n.toNat := by
    rw [readGroupID]
    cases hparse : parseUint s base 16 with
    | error err => exact iff_of_false (fun h => nomatch h) (fun h => nomatch h)
    | ok m =>
        have hm : m < 2 ^ 16 := (parseUint_eq_ok.mp hparse).2.2
        show Except.ok (UInt16.ofNat m) = Except.ok n ↔ Except.ok m = Except.ok n.toNat
        rw [Except.ok.injEq, Except.ok.injEq]
        constructor
        · rintro rfl
          exact (UInt16.toNat_ofNat_of_lt' hm).symm
        · rintro rfl
          exact UInt16.ofNat_toNat
  rw [hread, parseUint_eq_ok, and_iff_left (b := n.toNat < 2 ^ 16) n.toNat_lt]

/-- Decimal digits are tried in base 10 if their value fits. -/
theorem baseOf_eq_ten (hnum : Numeral 10 s) (hfit : value 10 s ≤ 65535) : baseOf s = 10 := by
  have hparse : parseUint s 10 16 = .ok (value 10 s) :=
    parseUint_eq_ok.mpr ⟨hnum, rfl, by omega⟩
  rw [baseOf, hparse]

/-- Anything else is tried in base 16. -/
theorem baseOf_eq_sixteen (h : ¬ (Numeral 10 s ∧ value 10 s ≤ 65535)) : baseOf s = 16 := by
  rw [baseOf]
  cases hparse : parseUint s 10 16 with
  | error err => rfl
  | ok m =>
      obtain ⟨hnum, rfl, hlt⟩ := parseUint_eq_ok.mp hparse
      exact absurd ⟨hnum, by omega⟩ h

/-- What is read after a mark. -/
theorem GroupIDText.of_marked {x : UInt8} {ds : Bytes} (hx : x = 0x78 ∨ x = 0x58)
    (h : readGroupID ds 16 = .ok n) : GroupIDText (0x30 :: x :: ds) n.toNat := by
  have hn : n.toNat < 65536 := n.toNat_lt
  obtain ⟨hnum, hval⟩ := readGroupID_eq_ok.mp h
  obtain ⟨hne, hds⟩ := numeral_sixteen.mp hnum
  rw [← hval] at hn ⊢
  exact .marked hx hne hds (Nat.le_of_lt_succ hn)

/-- What is read without a mark: in base 16 only if there is a letter. -/
theorem GroupIDText.of_unmarked (h : readGroupID s (baseOf s) = .ok n) :
    GroupIDText s n.toNat := by
  have hn : n.toNat < 65536 := n.toNat_lt
  obtain ⟨hnum, hval⟩ := readGroupID_eq_ok.mp h
  rw [← hval] at hn ⊢
  by_cases hten : Numeral 10 s ∧ value 10 s ≤ 65535
  · rw [baseOf_eq_ten hten.1 hten.2] at hnum ⊢
    exact .decimal hnum.1 (numeral_ten.mp hnum).2 hten.2
  · rw [baseOf_eq_sixteen hten] at hnum hn ⊢
    obtain ⟨hne, hds⟩ := numeral_sixteen.mp hnum
    refine .bare hds ?_ (Nat.le_of_lt_succ hn)
    -- without a letter the value would fit in base 10, where it is smaller
    by_contra hletter
    have hfigures : ∀ c ∈ s, IsFigure c := fun c hc =>
      (hds c hc).resolve_right fun hl => hletter ⟨c, hc, hl⟩
    have hle : value 10 s ≤ value 16 s := value_mono (by decide) s
    exact hten ⟨numeral_ten.mpr ⟨hne, hfigures⟩, by omega⟩

/-- **What is read from a trimmed text.** -/
theorem parseGroupID_eq_ok :
    parseGroupID s = .ok n ↔ GroupIDText (trimSpace s) n.toNat := by
  rw [parseGroupID]
  generalize trimSpace s = t
  constructor
  · intro h
    split_ifs at h with hnil hmark
    · obtain ⟨x, ds, hx, rfl⟩ := hasHexMark_iff.mp hmark
      exact .of_marked hx h
    · exact .of_unmarked h
  · intro h
    generalize hm : n.toNat = m at h
    cases h with
    | @marked x ds hx hne hds hfit =>
        have hmark : hasHexMark (0x30 :: x :: ds) = true := hasHexMark_iff.mpr ⟨x, ds, hx, rfl⟩
        rw [if_neg (List.cons_ne_nil _ _), if_pos hmark]
        exact readGroupID_eq_ok.mpr ⟨numeral_sixteen.mpr ⟨hne, hds⟩, hm.symm⟩
    | decimal hne hds hfit =>
        have hnum : Numeral 10 t := numeral_ten.mpr ⟨hne, hds⟩
        have hmark : hasHexMark t = false := not_hasHexMark fun c hc => Or.inl (hds c hc)
        rw [if_neg hne, hmark, if_neg Bool.false_ne_true, baseOf_eq_ten hnum hfit]
        exact readGroupID_eq_ok.mpr ⟨hnum, hm.symm⟩
    | bare hds hletter hfit =>
        obtain ⟨c, hc, hl⟩ := hletter
        have hne : t ≠ [] := List.ne_nil_of_mem hc
        have hten : ¬ (Numeral 10 t ∧ value 10 t ≤ 65535) := fun hten =>
          hl.not_figure ((numeral_ten.mp hten.1).2 c hc)
        rw [if_neg hne, not_hasHexMark hds, if_neg Bool.false_ne_true, baseOf_eq_sixteen hten]
        exact readGroupID_eq_ok.mpr ⟨numeral_sixteen.mpr ⟨hne, hds⟩, hm.symm⟩

/-- Decimal digits are read as a decimal number, or not at all. -/
theorem GroupIDText.eq_value_ten {t : Bytes} {m : ℕ} (h : GroupIDText t m)
    (hds : ∀ c ∈ t, IsFigure c) : m = value 10 t := by
  cases h with
  | @marked x ds hx hne _ hfit =>
      have hfigure : IsFigure x := hds x (List.mem_cons_of_mem _ List.mem_cons_self)
      exact absurd (Or.inl hfigure) (not_digit_of_mark hx)
  | decimal hne _ hfit => rfl
  | bare _ hletter hfit =>
      obtain ⟨c, hc, hl⟩ := hletter
      exact absurd (hds c hc) hl.not_figure

end Reading

/-- **`parseGroupID` accepts exactly its grammar.** For every text, what is left when the white
space around it is trimmed decides: it is read if and only if it is in the grammar, as the value
the grammar gives it. A string of decimal digits is never read as a hexadecimal number; if its
value is too large, it is not read. -/
theorem group_id_grammar (s : Bytes) :
    Trimmed whiteSpace s (trimSpace s) ∧
    (∀ n : UInt16, parseGroupID s = .ok n ↔ GroupIDText (trimSpace s) n.toNat) ∧
    ((∀ c ∈ trimSpace s, IsFigure c) →
      (∀ n : UInt16, parseGroupID s = .ok n → n.toNat = value 10 (trimSpace s)) ∧
      (65535 < value 10 (trimSpace s) → ∃ err, parseGroupID s = .error err)) := by
  refine ⟨trimmed_trimSpace s, fun n => parseGroupID_eq_ok, fun hds => ?_⟩
  have hdecimal : ∀ n : UInt16, parseGroupID s = .ok n → n.toNat = value 10 (trimSpace s) :=
    fun n h => (parseGroupID_eq_ok.mp h).eq_value_ten hds
  refine ⟨hdecimal, fun hlarge => ?_⟩
  cases h : parseGroupID s with
  | error err => exact ⟨err, rfl⟩
  | ok n =>
      have hval := hdecimal n h
      have hlt : n.toNat < 65536 := n.toNat_lt
      omega

end ShardListener
