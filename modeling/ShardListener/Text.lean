import Mathlib.Data.List.Forall2
import Mathlib.Data.Nat.Digits.Defs

/-!
# Texts

A text is a byte string; it need not be valid UTF-8. This module has the operations on texts
that a reader of configuration values needs: trimming, numerals of a given base, and lists whose
entries are read one after the other.

White space is trimmed as whole characters. A character of the Unicode white space is one of the
words `whiteSpace`, its encoding; no encoding is a part of another one, so a text starts or ends
with the character exactly when it starts or ends with the word.

Unsigned numbers are read as `strconv.ParseUint` is documented to do: a numeral is one or more
digits of the base, and its value must fit into the given number of bits.

## Main results

* `trimmed_trim`: trimming takes words from both ends until none is left there.
* `parseUint_eq_ok`: which texts are read as numbers, and as which.
* `value_mono`: a numeral is not worth less in a larger base.
* `readAll_eq_ok`: a list is read when each of its entries is.
-/

universe u v w

namespace Text

/-- The bytes of a text of ASCII characters. -/
def ascii (s : String) : List UInt8 := s.toList.map fun c => UInt8.ofNat c.toNat

/-! ### Trimming -/

section Trim

variable {α : Type u} [DecidableEq α] {ps : List (List α)} {s t : List α}

/-- Take one of the words `ps` from the start of a text. -/
def strip (ps : List (List α)) (s : List α) : Option (List α) :=
  ps.findSome? fun p => s.dropPrefix? p

/-- Take up to `n` words from the start of a text. -/
def stripUpTo (ps : List (List α)) : ℕ → List α → List α
  | 0, s => s
  | n + 1, s =>
      match strip ps s with
      | some t => stripUpTo ps n t
      | none => s

/-- Take words from the start as long as there are any. -/
def trimLeft (ps : List (List α)) (s : List α) : List α := stripUpTo ps s.length s

/-- Take words from the end as long as there are any. -/
def trimRight (ps : List (List α)) (s : List α) : List α :=
  (trimLeft (ps.map List.reverse) s.reverse).reverse

/-- Trim both ends. -/
def trim (ps : List (List α)) (s : List α) : List α := trimRight ps (trimLeft ps s)

/-- `t` is `s` without the words around it. -/
structure Trimmed (ps : List (List α)) (s t : List α) : Prop where
  around : ∃ before after : List (List α), (∀ p ∈ before, p ∈ ps) ∧ (∀ p ∈ after, p ∈ ps) ∧
    s = before.flatten ++ t ++ after.flatten
  start : ∀ p ∈ ps, ¬ p <+: t
  stop : ∀ p ∈ ps, ¬ p <:+ t

/-- Nothing is stripped from a text that starts with none of the strings. -/
theorem strip_eq_none : strip ps s = none ↔ ∀ p ∈ ps, ¬ p <+: s := by
  rw [strip, List.findSome?_eq_none_iff]
  refine forall₂_congr fun p _ => ?_
  constructor
  · rintro hnone ⟨t, rfl⟩
    have hsome : (p ++ t).dropPrefix? p = some t :=
      List.dropPrefix?_eq_some_iff.mpr ⟨p, rfl, beq_self_eq_true p⟩
    exact absurd (hnone.symm.trans hsome) (Option.some_ne_none t).symm
  · intro hpre
    refine Option.eq_none_iff_forall_ne_some.mpr fun t hsome => hpre ?_
    obtain ⟨p', rfl, hp'⟩ := List.dropPrefix?_eq_some_iff.mp hsome
    rw [eq_of_beq hp']
    exact List.prefix_append p t

/-- What is stripped is one of the strings. -/
theorem exists_of_strip (h : strip ps s = some t) : ∃ p ∈ ps, s = p ++ t := by
  obtain ⟨p, hp, hdrop⟩ := List.exists_of_findSome?_eq_some h
  obtain ⟨p', rfl, hp'⟩ := List.dropPrefix?_eq_some_iff.mp hdrop
  exact ⟨p, hp, by rw [eq_of_beq hp']⟩

/-- As many words as the text has letters are enough. -/
theorem stripUpTo_spec (hps : [] ∉ ps) {n : ℕ} (hn : s.length ≤ n) :
    (∃ before : List (List α), (∀ p ∈ before, p ∈ ps) ∧
      s = before.flatten ++ stripUpTo ps n s) ∧ strip ps (stripUpTo ps n s) = none := by
  induction n generalizing s with
  | zero =>
      obtain rfl : s = [] := List.eq_nil_of_length_eq_zero (Nat.le_zero.mp hn)
      refine ⟨⟨[], fun _ hp => absurd hp List.not_mem_nil, rfl⟩, strip_eq_none.mpr ?_⟩
      intro p hp hpre
      exact hps (List.prefix_nil.mp hpre ▸ hp)
  | succ n ih =>
      rw [stripUpTo]
      cases hstrip : strip ps s with
      | none => exact ⟨⟨[], fun _ hp => absurd hp List.not_mem_nil, rfl⟩, hstrip⟩
      | some t =>
          obtain ⟨p, hp, rfl⟩ := exists_of_strip hstrip
          have hpos : 0 < p.length := List.length_pos_iff.mpr fun hnil => hps (hnil ▸ hp)
          rw [List.length_append] at hn
          obtain ⟨⟨before, hbefore, heq⟩, hnone⟩ := ih (s := t) (by omega)
          refine ⟨⟨p :: before, ?_, ?_⟩, hnone⟩
          · intro p' hp'
            rcases List.mem_cons.mp hp' with rfl | hp'
            · exact hp
            · exact hbefore p' hp'
          · rw [List.flatten_cons, List.append_assoc, ← heq]

/-- What is trimmed is made of the strings, and what is left starts with none of them. -/
theorem trimLeft_spec (hps : [] ∉ ps) (s : List α) :
    (∃ before : List (List α), (∀ p ∈ before, p ∈ ps) ∧ s = before.flatten ++ trimLeft ps s) ∧
      ∀ p ∈ ps, ¬ p <+: trimLeft ps s := by
  obtain ⟨hbefore, hnone⟩ := stripUpTo_spec hps (le_refl s.length)
  exact ⟨hbefore, strip_eq_none.mp hnone⟩

/-- The end of a text is the start of the reversed one. -/
theorem trimRight_spec (hps : [] ∉ ps) (s : List α) :
    (∃ after : List (List α), (∀ p ∈ after, p ∈ ps) ∧ s = trimRight ps s ++ after.flatten) ∧
      ∀ p ∈ ps, ¬ p <:+ trimRight ps s := by
  have hrev : [] ∉ ps.map List.reverse := by
    intro hmem
    obtain ⟨p, hp, hnil⟩ := List.mem_map.mp hmem
    exact hps (List.reverse_eq_nil_iff.mp hnil ▸ hp)
  obtain ⟨⟨before, hbefore, heq⟩, hnone⟩ := trimLeft_spec hrev s.reverse
  refine ⟨⟨(before.map List.reverse).reverse, ?_, ?_⟩, ?_⟩
  · intro p hp
    obtain ⟨p', hp', rfl⟩ := List.mem_map.mp (List.mem_reverse.mp hp)
    obtain ⟨p, hp, rfl⟩ := List.mem_map.mp (hbefore p' hp')
    rwa [List.reverse_reverse]
  · rw [← List.reverse_flatten, trimRight, ← List.reverse_append, ← heq, List.reverse_reverse]
  · intro p hp hsuf
    refine hnone p.reverse (List.mem_map_of_mem hp) ?_
    rwa [← List.reverse_suffix, List.reverse_reverse]

/-- **What trimming does.** -/
theorem trimmed_trim (hps : [] ∉ ps) (s : List α) : Trimmed ps s (trim ps s) := by
  obtain ⟨⟨before, hbefore, hleft⟩, hstart⟩ := trimLeft_spec hps s
  obtain ⟨⟨after, hafter, hright⟩, hstop⟩ := trimRight_spec hps (trimLeft ps s)
  refine ⟨⟨before, after, hbefore, hafter, ?_⟩, ?_, hstop⟩
  · rw [List.append_assoc, trim, ← hright, ← hleft]
  · -- what is left starts as the text did before its end was trimmed
    intro p hp hpre
    refine hstart p hp (hpre.trans ?_)
    exact ⟨after.flatten, hright.symm⟩

end Trim

/-- The encodings of the characters of the Unicode white space. -/
def whiteSpace : List (List UInt8) :=
  [[0x09], [0x0A], [0x0B], [0x0C], [0x0D], [0x20], [0xC2, 0x85], [0xC2, 0xA0],
    [0xE1, 0x9A, 0x80],
    [0xE2, 0x80, 0x80], [0xE2, 0x80, 0x81], [0xE2, 0x80, 0x82], [0xE2, 0x80, 0x83],
    [0xE2, 0x80, 0x84], [0xE2, 0x80, 0x85], [0xE2, 0x80, 0x86], [0xE2, 0x80, 0x87],
    [0xE2, 0x80, 0x88], [0xE2, 0x80, 0x89], [0xE2, 0x80, 0x8A],
    [0xE2, 0x80, 0xA8], [0xE2, 0x80, 0xA9], [0xE2, 0x80, 0xAF], [0xE2, 0x81, 0x9F],
    [0xE3, 0x80, 0x80]]

/-- `strings.TrimSpace`. -/
def trimSpace (s : List UInt8) : List UInt8 := trim whiteSpace s

/-- `TrimSpace` trims white space from both ends. -/
theorem trimmed_trimSpace (s : List UInt8) : Trimmed whiteSpace s (trimSpace s) :=
  trimmed_trim (by decide) s

/-! ### Numerals -/

section Numerals

variable {s : List UInt8} {c : UInt8} {base base' bitSize n : ℕ}

/-- The value of a digit: letters of either case follow the ten figures. Any other character is
no digit in any base up to 36. -/
def digitValue (c : UInt8) : ℕ :=
  if 0x30 ≤ c ∧ c ≤ 0x39 then c.toNat - 0x30
  else if 0x61 ≤ c ∧ c ≤ 0x7A then c.toNat - 0x61 + 10
  else if 0x41 ≤ c ∧ c ≤ 0x5A then c.toNat - 0x41 + 10
  else 36

/-- The value of a text whose characters are digits, the most significant one first. -/
def value (base : ℕ) (s : List UInt8) : ℕ := Nat.ofDigits base (s.map digitValue).reverse

/-- One or more digits of the base. -/
def Numeral (base : ℕ) (s : List UInt8) : Prop := s ≠ [] ∧ ∀ c ∈ s, digitValue c < base

instance (base : ℕ) (s : List UInt8) : Decidable (Numeral base s) :=
  decidable_of_iff (s ≠ [] ∧ s.all (fun c => digitValue c < base) = true) (by
    simp only [Numeral, List.all_eq_true, decide_eq_true_eq])

/-- Why a text is not read as a number. -/
inductive NumErr
  /-- "invalid syntax". -/
  | invalid
  /-- "value out of range". -/
  | outOfRange
  deriving DecidableEq

/-- An error of `ParseUint`: the text, and the reason. -/
structure NumError where
  num : List UInt8
  err : NumErr
  deriving DecidableEq

/-- `strconv.ParseUint`, for a base from 2 to 36 and up to 64 bits. -/
def parseUint (s : List UInt8) (base bitSize : ℕ) : Except NumError ℕ :=
  if ¬ Numeral base s then .error ⟨s, .invalid⟩
  else if 2 ^ bitSize ≤ value base s then .error ⟨s, .outOfRange⟩
  else .ok (value base s)

/-- **Which texts are read as numbers.** -/
theorem parseUint_eq_ok :
    parseUint s base bitSize = .ok n ↔ Numeral base s ∧ value base s = n ∧ n < 2 ^ bitSize := by
  rw [parseUint]
  by_cases hnum : Numeral base s
  · rw [if_neg (not_not.mpr hnum), and_iff_right hnum]
    by_cases hfit : 2 ^ bitSize ≤ value base s
    · rw [if_pos hfit]
      refine iff_of_false (fun h => nomatch h) ?_
      rintro ⟨rfl, hlt⟩
      exact absurd hlt (not_lt.mpr hfit)
    · rw [if_neg hfit, Except.ok.injEq]
      refine (and_iff_left_of_imp ?_).symm
      rintro rfl
      exact not_le.mp hfit
  · rw [if_pos hnum]
    exact iff_of_false (fun h => nomatch h) fun h => hnum h.1

/-- **A numeral is not worth less in a larger base.** -/
theorem value_mono (hle : base ≤ base') (s : List UInt8) : value base s ≤ value base' s :=
  Nat.ofDigits_monotone _ hle

end Numerals

/-! ### Lists of entries -/

section Lists

variable {α : Type u} {β : Type v} {ε : Type w} {read : α → Except ε β}

/-- A step that succeeds, followed by one that succeeds. -/
theorem bind_eq_ok {γ : Type v} {x : Except ε γ} {f : γ → Except ε β} {b : β} :
    (x >>= f) = .ok b ↔ ∃ a, x = .ok a ∧ f a = .ok b := by
  cases x with
  | error e => exact iff_of_false (fun h => nomatch h) fun ⟨_, h, _⟩ => nomatch h
  | ok a =>
      refine ⟨fun h => ⟨a, rfl, h⟩, ?_⟩
      rintro ⟨a', ha, h⟩
      obtain rfl := Except.ok.inj ha
      exact h

/-- Read the entries one after the other, up to the first error. -/
def readAll (read : α → Except ε β) : List α → Except ε (List β)
  | [] => .ok []
  | a :: as => do
      let b ← read a
      let bs ← readAll read as
      return b :: bs

/-- **A list is read when each of its entries is.** -/
theorem readAll_eq_ok {as : List α} {bs : List β} :
    readAll read as = .ok bs ↔ List.Forall₂ (fun a b => read a = .ok b) as bs := by
  induction as generalizing bs with
  | nil =>
      rw [readAll, Except.ok.injEq, List.forall₂_nil_left_iff]
      exact eq_comm
  | cons a as ih =>
      rw [readAll, bind_eq_ok, List.forall₂_cons_left_iff]
      constructor
      · rintro ⟨b, hb, h⟩
        obtain ⟨bs', hbs, heq⟩ := bind_eq_ok.mp h
        exact ⟨b, bs', hb, ih.mp hbs, (Except.ok.inj heq).symm⟩
      · rintro ⟨b, bs', hb, hbs, rfl⟩
        exact ⟨b, hb, bind_eq_ok.mpr ⟨bs', ih.mpr hbs, rfl⟩⟩

/-- Whatever is read comes from an entry. -/
theorem exists_of_mem_readAll {as : List α} {bs : List β} {b : β} (h : readAll read as = .ok bs)
    (hb : b ∈ bs) : ∃ a ∈ as, read a = .ok b := by
  have hall := readAll_eq_ok.mp h
  clear h
  induction hall with
  | nil => exact absurd hb List.not_mem_nil
  | @cons a b' as bs hread _ ih =>
      rcases List.mem_cons.mp hb with rfl | hb
      · exact ⟨a, List.mem_cons_self, hread⟩
      · obtain ⟨a', ha', hread'⟩ := ih hb
        exact ⟨a', List.mem_cons_of_mem a ha', hread'⟩

end Lists

end Text
