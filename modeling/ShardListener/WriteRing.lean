import Mathlib.Data.List.Basic
import Mathlib.Data.List.DropRight
import Mathlib.Data.List.Nodup

/-!
# Rings of the Last Writes

A ring of capacity `C` is a list of `C` places that is written round and round: write number
`n` goes to place `n % C`. After the writes `ws` the ring holds the last `C` of them
(`Holds`), so the place a full ring writes next is the one of the write `C` writes ago
(`Holds.oldest`).

A set kept beside such a ring adds every value that is written and drops the value that is
overwritten. `Kept` says which values it still has. A value written once is kept for `C`
writes. A value that is written again while its first write still stands in the ring is
dropped when that place is overwritten, however recent its last write is (`Overwritten`).

## Main results

* `Holds.write`, `Holds.oldest`: the ring after one more write, and the write it replaces.
* `kept_append`: one write adds its value and drops the overwritten one.
* `kept_iff`: among the values written less than `C` writes ago, those are missing that are
  `Overwritten`.
* `Holds.slot_of_kept`: whatever is kept still stands in the ring.
* `Distinct.write`: if no value is written while the ring holds it, what is kept is what the ring
  holds.
-/

universe u

namespace WriteRing

variable {α : Type u} {C : ℕ} {ring ws : List α} {a k : α}

/-- The ring holds the last `C` of the writes `ws`, each at its number modulo `C`. -/
structure Holds (C : ℕ) (ring ws : List α) : Prop where
  length : ring.length = C
  recent : ∀ n < ws.length, ws.length ≤ n + C → ring[n % C]? = ws[n]?

/-- Nothing has been written yet. -/
theorem Holds.start (C : ℕ) (a : α) : Holds C (List.replicate C a) [] where
  length := List.length_replicate
  recent := fun _ hn => absurd hn (Nat.not_lt_zero _)

/-- Two writes less than `C` apart go to different places. -/
theorem mod_ne_of_lt {m n : ℕ} (hlt : n < m) (hnear : m < n + C) : n % C ≠ m % C := by
  intro heq
  have hdvd : C ∣ m - n := Nat.dvd_of_mod_eq_zero (Nat.sub_mod_eq_zero_of_mod_eq heq.symm)
  have hle : C ≤ m - n := Nat.le_of_dvd (by omega) hdvd
  omega

/-- **One more write.** -/
theorem Holds.write (h : Holds C ring ws) (hC : 0 < C) (a : α) :
    Holds C (ring.set (ws.length % C) a) (ws ++ [a]) where
  length := by rw [List.length_set, h.length]
  recent := by
    intro n hn hrecent
    rw [List.length_append, List.length_singleton] at hn hrecent
    rcases Nat.lt_succ_iff_lt_or_eq.mp hn with hold | rfl
    · rw [List.getElem?_set_ne (mod_ne_of_lt hold (by omega)).symm,
        h.recent n hold (by omega), List.getElem?_append_left hold]
    · have hplace : ws.length % C < ring.length := by
        rw [h.length]
        exact Nat.mod_lt _ hC
      rw [List.getElem?_set_self hplace, List.getElem?_concat_length]

/-- **The write a full ring replaces.** -/
theorem Holds.oldest (h : Holds C ring ws) (hC : 0 < C) (hfull : C ≤ ws.length) :
    ring[ws.length % C]? = ws[ws.length - C]? := by
  rw [Nat.mod_eq_sub_mod hfull]
  exact h.recent _ (by omega) (by omega)

/-! ### What is kept beside the ring -/

/-- Each write of `k` that has been overwritten was followed, no earlier than that, by another
write of `k`. -/
def Kept (C : ℕ) (ws : List α) (k : α) : Prop :=
  k ∈ ws ∧ ∀ i, ws[i]? = some k → i + C < ws.length → ∃ j, i + C ≤ j ∧ ws[j]? = some k

/-- A write that is not the new one is an old one. -/
theorem getElem?_of_ne {i : ℕ} (hne : k ≠ a) (h : (ws ++ [a])[i]? = some k) :
    ws[i]? = some k := by
  rw [List.getElem?_append] at h
  split at h
  · exact h
  · rw [List.getElem?_singleton] at h
    split at h
    · exact absurd (Option.some.inj h).symm hne
    · cases h

/-- **One more write** adds its value, and drops the value it overwrites. -/
theorem kept_append (hC : 0 < C) :
    Kept C (ws ++ [a]) k ↔
      k = a ∨ (Kept C ws k ∧ ¬ (C ≤ ws.length ∧ ws[ws.length - C]? = some k)) := by
  have hlen : (ws ++ [a]).length = ws.length + 1 := by simp
  constructor
  · rintro ⟨hmem, hall⟩
    refine or_iff_not_imp_left.mpr fun hne => ⟨⟨?_, ?_⟩, ?_⟩
    · exact (List.mem_append.mp hmem).resolve_right fun h => hne (List.mem_singleton.mp h)
    · intro i hi hover
      have hlt : i < ws.length := (List.getElem?_eq_some_iff.mp hi).1
      obtain ⟨j, hj, hjk⟩ := hall i (by rw [List.getElem?_append_left hlt, hi]) (by omega)
      exact ⟨j, hj, getElem?_of_ne hne hjk⟩
    · rintro ⟨hfull, hi⟩
      have hlt : ws.length - C < ws.length := (List.getElem?_eq_some_iff.mp hi).1
      obtain ⟨j, hj, hjk⟩ :=
        hall (ws.length - C) (by rw [List.getElem?_append_left hlt, hi]) (by omega)
      have := (List.getElem?_eq_some_iff.mp (getElem?_of_ne hne hjk)).1
      omega
  · rintro (rfl | ⟨⟨hmem, hall⟩, hkeep⟩)
    · refine ⟨List.mem_append_right _ (List.mem_singleton.mpr rfl), ?_⟩
      intro i _ hover
      exact ⟨ws.length, by omega, List.getElem?_concat_length⟩
    · refine ⟨List.mem_append_left _ hmem, ?_⟩
      intro i hi hover
      have hlt : i < ws.length := by omega
      rw [List.getElem?_append_left hlt] at hi
      rcases Nat.lt_or_eq_of_le (show i + C ≤ ws.length by omega) with hold | hnow
      · obtain ⟨j, hj, hjk⟩ := hall i hi hold
        have hjlt := (List.getElem?_eq_some_iff.mp hjk).1
        exact ⟨j, hj, by rw [List.getElem?_append_left hjlt, hjk]⟩
      · refine absurd ⟨by omega, ?_⟩ hkeep
        rw [← hnow, Nat.add_sub_cancel, hi]

/-- Between the last write of `k` and an earlier one there are fewer than `C` writes, and the
earlier one has been overwritten since. -/
def Overwritten (C : ℕ) (ws : List α) (k : α) : Prop :=
  ∃ before between after, ws = before ++ k :: (between ++ k :: after) ∧ k ∉ after ∧
    between.length + 1 < C ∧ C ≤ between.length + 1 + after.length

/-- The list around one of its places. -/
theorem exists_split {l : List α} {i : ℕ} (h : l[i]? = some k) :
    ∃ before after, l = before ++ k :: after ∧ before.length = i := by
  obtain ⟨hi, rfl⟩ := List.getElem?_eq_some_iff.mp h
  refine ⟨l.take i, l.drop (i + 1), ?_, List.length_take_of_le (Nat.le_of_lt hi)⟩
  rw [List.getElem_cons_drop, List.take_append_drop]

/-- The last write of `k` is the last place it is found at. -/
theorem le_of_getElem? {before after : List α} (hlast : k ∉ after) {i : ℕ}
    (h : (before ++ k :: after)[i]? = some k) : i ≤ before.length := by
  by_contra hlt
  rw [List.getElem?_append_right (by omega), List.getElem?_cons, if_neg (by omega)] at h
  exact hlast (List.mem_of_getElem? h)

/-- **What is kept among the recent writes.** -/
theorem kept_iff {before after : List α} (hws : ws = before ++ k :: after) (hlast : k ∉ after)
    (hrecent : after.length < C) : Kept C ws k ↔ ¬ Overwritten C ws k := by
  constructor
  · rintro ⟨-, hall⟩ ⟨b, m, c, heq, hc, hnear, hover⟩
    have hlen := congrArg List.length heq
    simp only [List.length_append, List.length_cons] at hlen
    obtain ⟨j, hj, hjk⟩ := hall b.length (by rw [heq]; simp) (by omega)
    have heq' : ws = (b ++ k :: m) ++ k :: c := by
      rw [heq, List.append_assoc, List.cons_append]
    have hle : j ≤ (b ++ k :: m).length := le_of_getElem? hc (heq' ▸ hjk)
    rw [List.length_append, List.length_cons] at hle
    omega
  · intro hnot
    have hlen := congrArg List.length hws
    rw [List.length_append, List.length_cons] at hlen
    refine ⟨by simp [hws], ?_⟩
    intro i hi hover
    refine ⟨before.length, ?_, by simp [hws]⟩
    by_contra hlt
    -- an earlier write that was overwritten after the last one
    have hle : i ≤ before.length := le_of_getElem? hlast (hws ▸ hi)
    rcases Nat.lt_or_eq_of_le hle with hearlier | rfl
    · rw [hws, List.getElem?_append_left hearlier] at hi
      obtain ⟨b, m, rfl, rfl⟩ := exists_split hi
      rw [List.length_append, List.length_cons] at hlt hlen
      exact hnot ⟨b, m, after, by simp [hws], hlast, by omega, by omega⟩
    · omega

/-! ### What is kept stands in the ring -/

/-- What is kept is among the last `C` writes. -/
theorem Kept.exists_recent (h : Kept C ws k) (hC : 0 < C) :
    ∃ n, ws[n]? = some k ∧ ws.length ≤ n + C := by
  induction ws using List.reverseRecOn with
  | nil => exact absurd h.1 List.not_mem_nil
  | append_singleton ws a ih =>
      rw [List.length_append, List.length_singleton]
      rcases (kept_append hC).mp h with rfl | ⟨hkept, hkeep⟩
      · exact ⟨ws.length, List.getElem?_concat_length, by omega⟩
      · obtain ⟨n, hn, hrecent⟩ := ih hkept
        have hlt : n < ws.length := (List.getElem?_eq_some_iff.mp hn).1
        refine ⟨n, by rw [List.getElem?_append_left hlt, hn], ?_⟩
        by_contra hlate
        have hoverwritten : ws.length - C = n := by omega
        exact hkeep ⟨by omega, hoverwritten ▸ hn⟩

/-- What is kept stands in one of the places that have been written. -/
theorem Holds.slot_of_kept (h : Holds C ring ws) (hC : 0 < C) (hk : Kept C ws k) :
    ∃ i < min ws.length C, ring[i]? = some k := by
  obtain ⟨n, hn, hrecent⟩ := hk.exists_recent hC
  have hlt : n < ws.length := (List.getElem?_eq_some_iff.mp hn).1
  refine ⟨n % C, lt_min ?_ (Nat.mod_lt n hC), (h.recent n hlt hrecent).trans hn⟩
  exact lt_of_le_of_lt (Nat.mod_le n C) hlt

/-! ### Rings without repetitions -/

/-- No value was written while the ring held it: the last `C` writes are distinct, and they are
what is kept. -/
structure Distinct (C : ℕ) (ws : List α) : Prop where
  nodup : (ws.rtake C).Nodup
  kept : ∀ k, Kept C ws k ↔ k ∈ ws.rtake C

theorem Distinct.nil (C : ℕ) : Distinct C ([] : List α) where
  nodup := by
    rw [List.rtake_nil]
    exact List.nodup_nil
  kept := by
    intro k
    rw [List.rtake_nil]
    exact iff_of_false (fun h => List.not_mem_nil h.1) List.not_mem_nil

/-- The last writes of a ring that is not full are all of them. -/
theorem rtake_of_length_le (h : ws.length ≤ C) : ws.rtake C = ws := by
  rw [List.rtake, Nat.sub_eq_zero_of_le h, List.drop_zero]

/-- The last writes of a full ring start with the one that is overwritten next. -/
theorem rtake_succ_of_lt {n : ℕ} (h : n < ws.length) :
    ∃ old, ws[ws.length - (n + 1)]? = some old ∧ ws.rtake (n + 1) = old :: ws.rtake n := by
  have hlt : ws.length - (n + 1) < ws.length := by omega
  refine ⟨ws[ws.length - (n + 1)], List.getElem?_eq_getElem hlt, ?_⟩
  rw [List.rtake, List.rtake, List.drop_eq_getElem_cons hlt]
  congr 2
  omega

/-- The last writes after one more write. -/
theorem rtake_rtake_append (C : ℕ) (ws : List α) (a : α) :
    (ws.rtake C ++ [a]).rtake C = (ws ++ [a]).rtake C := by
  cases C with
  | zero => rw [List.rtake_zero, List.rtake_zero]
  | succ n =>
      rw [List.rtake_concat_succ, List.rtake_concat_succ, List.rtake, List.rtake, List.rtake,
        List.drop_drop, List.length_drop]
      congr 2
      omega

/-- Of distinct writes, the last `n` are the last `n + 1` without the one overwritten next. -/
theorem mem_rtake_iff_of_nodup {n : ℕ} (hnodup : (ws.rtake (n + 1)).Nodup) :
    k ∈ ws.rtake n ↔
      k ∈ ws.rtake (n + 1) ∧ ¬ (n + 1 ≤ ws.length ∧ ws[ws.length - (n + 1)]? = some k) := by
  by_cases hfull : n < ws.length
  · obtain ⟨old, hold, heq⟩ := rtake_succ_of_lt hfull
    rw [heq] at hnodup ⊢
    rw [hold, and_iff_right (Nat.succ_le_of_lt hfull), Option.some.injEq, List.mem_cons]
    constructor
    · intro hk
      refine ⟨Or.inr hk, ?_⟩
      rintro rfl
      exact (List.nodup_cons.mp hnodup).1 hk
    · rintro ⟨rfl | hk, hne⟩
      · exact absurd rfl hne
      · exact hk
  · rw [rtake_of_length_le (not_lt.mp hfull), rtake_of_length_le (by omega)]
    exact (and_iff_left fun hover => hfull hover.1).symm

/-- **One more write**, of a value the ring does not hold. -/
theorem Distinct.write (h : Distinct C ws) (hC : 0 < C) (ha : a ∉ ws.rtake C) :
    Distinct C (ws ++ [a]) := by
  obtain ⟨n, rfl⟩ : ∃ n, C = n + 1 := ⟨C - 1, by omega⟩
  have hstay : (ws.rtake n).Sublist (ws.rtake (n + 1)) :=
    List.drop_sublist_drop_left ws (by omega)
  refine ⟨?_, fun k => ?_⟩
  · rw [List.rtake_concat_succ, ← List.concat_eq_append]
    exact (h.nodup.sublist hstay).concat fun hk => ha (hstay.subset hk)
  · rw [List.rtake_concat_succ, kept_append hC, h.kept k, ← mem_rtake_iff_of_nodup h.nodup,
      List.mem_append, List.mem_singleton, or_comm]

end WriteRing
