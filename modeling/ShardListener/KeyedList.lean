import Mathlib.Data.List.Count
import Mathlib.Data.List.Nodup
import Mathlib.Data.List.Perm.Basic
import Mathlib.Data.List.Induction

/-!
# Elements with a Unique Key

A list whose elements carry keys, read at one key `k` that occurs at most once: `byKey`
finds the element. Replacing an element by one with the same key, erasing a position and
appending act on what is found as one expects, whatever the other elements are.

Where keys do repeat, as in a log, `latest` keeps the last element of each key, and
`Standing` says that an entry of the log has not been revoked by a later one.

## Main results

* `byKey_eq_some`: the element found is the one element with that key.
* `byKey_set`, `byKey_eraseIdx`: what is found after one position has changed.
* `latest_append_singleton`: a new element replaces the last one of its key.
* `standing_append_singleton`: a new entry stands, and leaves those it does not revoke.
-/

universe u v

namespace List

variable {α : Type u} {κ : Type v} {f : α → κ} {l : List α} {i : ℕ} {x y : α} {k : κ}

/-- Replacing an element by one with the same key does not change the keys. -/
theorem map_set_of_eq (hi : l[i]? = some x) (hy : f y = f x) : (l.set i y).map f = l.map f := by
  obtain ⟨hlt, hget⟩ := getElem?_eq_some_iff.mp hi
  rw [map_set, hy, ← hget]
  refine ext_getElem (by simp) ?_
  intro j h₁ h₂
  rw [getElem_set]
  split
  · rename_i hij
    subst hij
    simp
  · rfl

/-- An element and what is left without it. -/
theorem cons_eraseIdx_perm (hi : l[i]? = some x) : (x :: l.eraseIdx i).Perm l := by
  obtain ⟨hlt, rfl⟩ := getElem?_eq_some_iff.mp hi
  exact getElem_cons_eraseIdx_perm hlt

variable [DecidableEq κ]

/-- The first element with key `k`. -/
def byKey (f : α → κ) (l : List α) (k : κ) : Option α := l.find? fun x => f x = k

/-- Nothing is found under a key that no element has. -/
theorem byKey_eq_none : l.byKey f k = none ↔ ∀ x ∈ l, f x ≠ k := by
  simp [byKey, find?_eq_none]

/-- How many elements have key `k`. -/
def countKey (f : α → κ) (l : List α) (k : κ) : ℕ := l.countP fun x => f x = k

/-- An element is counted under its key. -/
theorem countKey_pos (hx : x ∈ l) (hfx : f x = k) : 0 < l.countKey f k :=
  countP_pos_iff.mpr ⟨x, hx, by simpa using hfx⟩

/-- A key is not counted if no element has it. -/
theorem countKey_eq_zero : l.countKey f k = 0 ↔ ∀ x ∈ l, f x ≠ k := by
  simp [countKey, countP_eq_zero]

/-- Distinct keys occur once each. -/
theorem countKey_le_one_of_nodup (hnd : (l.map f).Nodup) (k : κ) : l.countKey f k ≤ 1 := by
  have hcount := nodup_iff_count_le_one.mp hnd k
  rwa [count, countP_map] at hcount

/-- Two lists, one after the other. -/
theorem countKey_append (l l' : List α) (k : κ) :
    (l ++ l').countKey f k = l.countKey f k + l'.countKey f k := countP_append

/-- One more element. -/
theorem countKey_cons (x : α) (l : List α) (k : κ) :
    (x :: l).countKey f k = l.countKey f k + if f x = k then 1 else 0 := by
  rw [countKey, countP_cons]
  simp [countKey]

/-- Counting looks at the keys only. -/
theorem countKey_eq_of_map_eq {l l' : List α} (h : l.map f = l'.map f) (k : κ) :
    l.countKey f k = l'.countKey f k := by
  have hmap : ∀ l : List α, l.countKey f k = (l.map f).countP fun j => j = k := by
    intro l
    rw [countP_map]
    rfl
  rw [hmap, hmap, h]

/-- What is found has the key. -/
theorem mem_of_byKey (h : l.byKey f k = some x) : x ∈ l ∧ f x = k :=
  ⟨mem_of_find?_eq_some h, by simpa using find?_some h⟩

/-- Two elements with a key that occurs once are the same. -/
theorem eq_of_countKey_le_one (hk : l.countKey f k ≤ 1) (hx : x ∈ l) (hfx : f x = k)
    (hy : y ∈ l) (hfy : f y = k) : x = y := by
  obtain ⟨l₁, l₂, rfl⟩ := mem_iff_append.mp hx
  rw [countKey_append, countKey_cons, if_pos hfx] at hk
  rcases mem_append.mp hy with hy | hy
  · have hpos := countKey_pos hy hfy
    omega
  · rcases mem_cons.mp hy with rfl | hy
    · rfl
    · have hpos := countKey_pos hy hfy
      omega

/-- The element found is the only one with its key. -/
theorem byKey_eq_some (hk : l.countKey f k ≤ 1) :
    l.byKey f k = some x ↔ x ∈ l ∧ f x = k := by
  constructor
  · exact mem_of_byKey
  · rintro ⟨hx, hfx⟩
    cases hy : l.byKey f k with
    | none => exact absurd hfx (byKey_eq_none.mp hy x hx)
    | some y =>
        obtain ⟨hmem, hfy⟩ := mem_of_byKey hy
        rw [eq_of_countKey_le_one hk hmem hfy hx hfx]

/-- Erasing a position takes one occurrence of its key away. -/
theorem countKey_eraseIdx (hi : l[i]? = some x) (k : κ) :
    (l.eraseIdx i).countKey f k + (if f x = k then 1 else 0) = l.countKey f k := by
  rw [← countKey_cons]
  exact (cons_eraseIdx_perm hi).countP_eq _

/-- Replacing the element at `i` by one with the same key. -/
theorem byKey_set (hk : l.countKey f k ≤ 1) (hi : l[i]? = some x) (hy : f y = f x) :
    (l.set i y).byKey f k = if k = f x then some y else l.byKey f k := by
  have hk' : (l.set i y).countKey f k ≤ 1 := by
    rwa [countKey_eq_of_map_eq (map_set_of_eq hi hy)]
  have hlt : i < l.length := (getElem?_eq_some_iff.mp hi).1
  have hperm : (l.set i y).Perm (y :: l.eraseIdx i) := set_perm_cons_eraseIdx hlt y
  split
  · rename_i hkx
    refine (byKey_eq_some hk').mpr ⟨hperm.mem_iff.mpr mem_cons_self, ?_⟩
    rw [hy, hkx]
  · rename_i hkx
    refine Option.ext fun z => ?_
    rw [byKey_eq_some hk', byKey_eq_some hk]
    refine and_congr_left fun hz => ?_
    -- `z` has another key than the element at `i`, old or new
    rw [hperm.mem_iff, ← (cons_eraseIdx_perm hi).mem_iff, mem_cons, mem_cons]
    have hzy : z ≠ y := fun heq => hkx (by rw [← hz, heq, hy])
    have hzx : z ≠ x := fun heq => hkx (by rw [← hz, heq])
    rw [or_iff_right hzy, or_iff_right hzx]

/-- Erasing position `i`. -/
theorem byKey_eraseIdx (hk : l.countKey f k ≤ 1) (hi : l[i]? = some x) :
    (l.eraseIdx i).byKey f k = if k = f x then none else l.byKey f k := by
  have hcount := countKey_eraseIdx (f := f) hi k
  split
  · rename_i hkx
    rw [if_pos hkx.symm] at hcount
    refine byKey_eq_none.mpr fun z hz heq => ?_
    have hpos := countKey_pos hz heq
    omega
  · rename_i hkx
    rw [if_neg (Ne.symm hkx)] at hcount
    refine Option.ext fun z => ?_
    rw [byKey_eq_some (by omega), byKey_eq_some hk]
    refine and_congr_left fun hz => ?_
    rw [← (cons_eraseIdx_perm hi).mem_iff, mem_cons]
    refine (or_iff_right ?_).symm
    rintro rfl
    exact hkx hz.symm

/-- The element of a key in an appended list. -/
theorem byKey_append (l l' : List α) (k : κ) :
    (l ++ l').byKey f k = (l.byKey f k).or (l'.byKey f k) := by
  rw [byKey, find?_append]
  rfl

/-! ### The last element of each key -/

/-- The last element of each key, in the order of the list. -/
def latest (f : α → κ) : List α → List α
  | [] => []
  | x :: l => if f x ∈ l.map f then latest f l else x :: latest f l

/-- A new element replaces the last one of its key. -/
theorem latest_append_singleton (f : α → κ) (l : List α) (x : α) :
    (l ++ [x]).latest f = (l.latest f).filter (fun y => f y ≠ f x) ++ [x] := by
  induction l with
  | nil => rfl
  | cons y l ih =>
      rw [cons_append, latest, latest, ih]
      by_cases hyx : f y = f x
      · rw [if_pos (by simp [hyx])]
        split
        · rfl
        · rw [filter_cons_of_neg (by simp [hyx])]
      · have hmem : f y ∈ (l ++ [x]).map f ↔ f y ∈ l.map f := by simp [hyx]
        rw [if_congr hmem rfl rfl]
        split
        · rfl
        · rw [filter_cons_of_pos (by simp [hyx])]
          rfl

/-! ### The entries of a log that stand -/

/-- `x` is an entry of the log, and no entry after it revokes it. -/
def Standing (revokes : α → Prop) (l : List α) (x : α) : Prop :=
  ∃ pre post, l = pre ++ x :: post ∧ ∀ y ∈ post, ¬ revokes y

/-- Nothing stands in an empty list. -/
theorem not_standing_nil (revokes : α → Prop) (x : α) : ¬ Standing revokes [] x := by
  rintro ⟨pre, post, h, -⟩
  simp at h

/-- A new entry stands, and leaves those it does not revoke. -/
theorem standing_append_singleton {revokes : α → Prop} :
    Standing revokes (l ++ [y]) x ↔ y = x ∨ (¬ revokes y ∧ Standing revokes l x) := by
  constructor
  · rintro ⟨pre, post, h, hpost⟩
    rcases eq_nil_or_concat' post with rfl | ⟨post, last, rfl⟩
    · exact .inl (by simpa using (append_inj' h rfl).2)
    · rw [← cons_append, ← append_assoc] at h
      obtain rfl : y = last := by simpa using (append_inj' h rfl).2
      exact .inr ⟨hpost y (by simp), pre, post, (append_inj' h rfl).1,
        fun z hz => hpost z (mem_append_left _ hz)⟩
  · rintro (rfl | ⟨hy, pre, post, rfl, hpost⟩)
    · exact ⟨l, [], rfl, by simp⟩
    · refine ⟨pre, post ++ [y], by simp, fun z hz => ?_⟩
      rcases mem_append.mp hz with hz | hz
      · exact hpost z hz
      · exact mem_singleton.mp hz ▸ hy

/-- What stands in the image of a log comes from an entry that stands. -/
theorem standing_filterMap {β : Type v} {g : α → Option β} {revokes : β → Prop} {z : β} :
    Standing revokes (l.filterMap g) z ↔
      ∃ x, Standing (fun x => ∃ z, g x = some z ∧ revokes z) l x ∧ g x = some z := by
  induction l using List.reverseRecOn with
  | nil => simp [not_standing_nil]
  | append_singleton l a ih =>
      simp only [filterMap_append, standing_append_singleton]
      cases ha : g a with
      | none =>
          rw [filterMap_cons_none ha, filterMap_nil, append_nil, ih]
          constructor
          · rintro ⟨x, hx, hz⟩
            refine ⟨x, .inr ⟨?_, hx⟩, hz⟩
            rintro ⟨z', hz', -⟩
            cases hz'
          · rintro ⟨x, rfl | ⟨-, hx⟩, hz⟩
            · rw [ha] at hz
              cases hz
            · exact ⟨x, hx, hz⟩
      | some b =>
          rw [filterMap_cons_some ha, filterMap_nil, standing_append_singleton, ih]
          constructor
          · rintro (rfl | ⟨hb, x, hx, hz⟩)
            · exact ⟨a, .inl rfl, ha⟩
            · refine ⟨x, .inr ⟨?_, hx⟩, hz⟩
              rintro ⟨z', hz', hrev⟩
              exact hb (Option.some_inj.mp hz' ▸ hrev)
          · rintro ⟨x, rfl | ⟨hno, hx⟩, hz⟩
            · rw [ha, Option.some_inj] at hz
              exact .inl hz
            · exact .inr ⟨fun hrev => hno ⟨b, rfl, hrev⟩, x, hx, hz⟩

end List
