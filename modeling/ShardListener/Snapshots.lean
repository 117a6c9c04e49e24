import ShardListener.KeyedList
import ShardListener.Registry

/-!
# Snapshots Are Current

What `Registry.Snapshot` answers, in terms of the calls that have been made. An entry is
`Listed` when some `Upsert` wrote it and no later call replaced or evicted it; `lastSeed` has
the addresses of the last `Seed` call.

The map is the set of listed entries (`lookup_after`) and the seeds are those of the last
`Seed` call (`seeds_after`), whatever the cache holds. A snapshot is a permutation of what a
rebuild would collect from them (`Coherent.takeSnapshot`), so the dirty flag cannot be seen
from outside: `snapshot_current`.
-/

namespace ShardListener

/-- The entry of an ADVERT received at time `now`: it is kept for three beacon intervals. -/
def Advert.entry (a : Advert) (now : Time) : EndpointEntry where
  addr := .advertised a.nackAddr a.nackPort
  tier := a.tier
  preference := a.preference
  flags := a.flags
  expires := now + a.beaconInterval.toNat * 3 * second
  instanceID := a.instanceID
  supportsUnicast := a.flags &&& flagUnicastRetransmit != 0

namespace Registry

/-! ### The calls -/

/-- The call takes the entry `e` off the registry: a later ADVERT of the instance replaces
it, and an `Evict` after its expiry deletes it. -/
def Op.Drops (e : EndpointEntry) : Op → Prop
  | .upsert _ a => a.instanceID = e.instanceID
  | .evict now _ => e.expires < now
  | .seed _ => False
  | .snapshot _ _ => False

/-- The entry was written by an `Upsert` and not dropped since. -/
def Listed (ops : List Op) (e : EndpointEntry) : Prop :=
  ∃ now a, ops.Standing (Op.Drops e) (.upsert now a) ∧ e = a.entry now

/-- The addresses a `Seed` call loads. -/
def Op.seedAddrs : Op → Option (List Bytes)
  | .seed addrs => some addrs
  | _ => none

/-- The addresses of the last `Seed` call. -/
def lastSeed (ops : List Op) : List Bytes := (ops.filterMap Op.seedAddrs).getLast?.getD []

/-- The entry of the seed number `i`: it comes after all tiers, under an instance of its own, and
is kept until the year 9999. -/
def seedEntry (i : ℕ) (addr : Bytes) : EndpointEntry where
  addr := .seed addr
  tier := 0xFF
  preference := 0
  flags := 0
  expires := seedExpires
  instanceID := UInt32.ofNat (0xFFFFF000 + i)
  supportsUnicast := false

/-- The entries of some seeds: one for each address. -/
def seedsOf (addrs : List Bytes) : List EndpointEntry := addrs.mapIdx seedEntry

section Calls

variable {ops : List Op} {op : Op} {e : EndpointEntry}

/-- Nothing is listed before the first call. -/
theorem not_listed_nil : ¬ Listed [] e := by
  rintro ⟨now, a, hstands, -⟩
  exact List.not_standing_nil _ _ hstands

/-- A call that is no `Upsert` lists nothing new. -/
theorem listed_snoc_of_not_upsert (hop : ∀ now a, op ≠ .upsert now a) :
    Listed (ops ++ [op]) e ↔ ¬ op.Drops e ∧ Listed ops e := by
  simp only [Listed, List.standing_append_singleton, hop, false_or]
  exact ⟨fun ⟨now, a, h, he⟩ => ⟨h.1, now, a, h.2, he⟩,
    fun ⟨hop, now, a, h, he⟩ => ⟨now, a, ⟨hop, h⟩, he⟩⟩

/-- An `Upsert` lists the entry of its ADVERT in place of the one of the same instance. -/
theorem listed_snoc_upsert (now : Time) (a : Advert) :
    Listed (ops ++ [.upsert now a]) e ↔
      if e.instanceID = a.instanceID then e = a.entry now else Listed ops e := by
  have hdrops : (Op.upsert now a).Drops e ↔ e.instanceID = a.instanceID := eq_comm
  simp only [Listed, List.standing_append_singleton, hdrops]
  split
  · rename_i hid
    constructor
    · rintro ⟨now', a', hstands, rfl⟩
      rcases hstands with heq | ⟨hne, -⟩
      · cases heq
        rfl
      · exact absurd hid hne
    · rintro rfl
      exact ⟨now, a, .inl rfl, rfl⟩
  · rename_i hid
    refine exists_congr fun now' => exists_congr fun a' => and_congr_left ?_
    rintro rfl
    refine ⟨?_, fun h => .inr ⟨hid, h⟩⟩
    rintro (heq | ⟨-, h⟩)
    · cases heq
      exact absurd rfl hid
    · exact h

/-- A `Seed` replaces the seeds of the one before. -/
theorem lastSeed_snoc (ops : List Op) (op : Op) :
    lastSeed (ops ++ [op]) = op.seedAddrs.getD (lastSeed ops) := by
  cases op <;> simp [lastSeed, Op.seedAddrs]

end Calls

/-! ### The registry and the calls -/

/-- **The map is the set of listed entries**, each under its instance. -/
theorem lookup_after (ops : List Op) (id : UInt32) (e : EndpointEntry) :
    (after ops).entries.lookup id = some e ↔ e.instanceID = id ∧ Listed ops e := by
  -- by induction over the calls, from what each of them does to one entry
  induction ops using List.reverseRecOn with
  | nil => exact iff_of_false (fun h => nomatch h) fun h => not_listed_nil h.2
  | append_singleton ops op ih =>
      rw [after_snoc]
      cases op with
      | upsert now a =>
          rw [step, lookup_upsert (coherent_after ops).instanceID, listed_snoc_upsert]
          by_cases hid : id = a.instanceID
          · rw [if_pos hid, Option.some_inj]
            constructor
            · rintro rfl
              exact ⟨hid.symm, if_pos rfl |>.mpr rfl⟩
            · rintro ⟨hide, he⟩
              rw [if_pos (hide.trans hid)] at he
              exact he.symm
          · rw [if_neg hid, ih]
            refine and_congr_right fun hide => ?_
            rw [if_neg (hide ▸ hid)]
      | evict now ord =>
          rw [step, lookup_evict, listed_snoc_of_not_upsert (by simp), Option.bind_eq_some_iff]
          constructor
          · rintro ⟨e', he', hlive⟩
            split at hlive
            · cases hlive
            · rename_i hexp
              obtain rfl := Option.some.inj hlive
              obtain ⟨hid, hlisted⟩ := ih.mp he'
              exact ⟨hid, hexp, hlisted⟩
          · rintro ⟨hid, hexp, hlisted⟩
            exact ⟨e, ih.mpr ⟨hid, hlisted⟩, if_neg hexp⟩
      | seed addrs =>
          rw [listed_snoc_of_not_upsert (by simp)]
          exact ih.trans (and_congr_right fun _ => (and_iff_right not_false).symm)
      | snapshot ord sort =>
          have hentries :
              ((after ops).step (.snapshot ord sort)).entries = (after ops).entries := by
            rw [step, takeSnapshot]
            split <;> rfl
          rw [hentries, listed_snoc_of_not_upsert (by simp)]
          exact ih.trans (and_congr_right fun _ => (and_iff_right not_false).symm)

/-- The loop of `Seed` makes one entry of each address. -/
theorem seeds_seed (r : Registry) (addrs : List Bytes) : (r.seed addrs).seeds = seedsOf addrs := by
  rw [seed, seedsOf, List.mapIdx_eq_zipIdx_map]
  refine List.map_congr_left ?_
  rintro ⟨addr, i⟩ -
  simp only [seedEntry, UInt32.ofNat_add]
  rfl

/-- The seeds are those of the last `Seed` call. -/
theorem seeds_after (ops : List Op) : (after ops).seeds = seedsOf (lastSeed ops) := by
  induction ops using List.reverseRecOn with
  | nil => rfl
  | append_singleton ops op ih =>
      rw [after_snoc, lastSeed_snoc]
      cases op with
      | upsert now a => exact ih
      | evict now ord => exact ih
      | seed addrs => exact seeds_seed _ addrs
      | snapshot ord sort =>
          rw [step, takeSnapshot]
          split <;> exact ih

/-- Nothing is listed exactly when the map is empty. -/
theorem size_after_eq_zero (ops : List Op) :
    (after ops).entries.size = 0 ↔ ∀ e, ¬ Listed ops e := by
  rw [AList.size_eq_zero_iff]
  constructor
  · intro hnone e he
    have hlookup := (lookup_after ops e.instanceID e).mpr ⟨rfl, he⟩
    rw [hnone] at hlookup
    cases hlookup
  · intro hnone id
    refine Option.eq_none_iff_forall_ne_some.mpr ?_
    intro e he
    exact hnone e ((lookup_after ops id e).mp he).2

/-- What a rebuild collects when something is listed. -/
theorem mem_merged_after {ops : List Op} (hne : (after ops).entries.size ≠ 0)
    (e : EndpointEntry) : e ∈ (after ops).merged (.stored _) ↔ Listed ops e := by
  rw [merged, if_neg hne, List.mem_filterMap]
  constructor
  · rintro ⟨id, -, he⟩
    exact ((lookup_after ops id e).mp he).2
  · intro he
    have hlookup := (lookup_after ops e.instanceID e).mpr ⟨rfl, he⟩
    exact ⟨e.instanceID, AList.mem_keys.mp (AList.mem_iff_lookup.mpr ⟨e, hlookup⟩), hlookup⟩

/-- What a rebuild collects when nothing is listed. -/
theorem merged_after_of_size_eq_zero {ops : List Op} (hsize : (after ops).entries.size = 0) :
    (after ops).merged (.stored _) = seedsOf (lastSeed ops) := by
  have hkeys : (after ops).entries.keys = [] := by
    rw [← List.length_eq_zero_iff, ← AList.size_eq_length_keys, hsize]
  rw [merged, if_pos hsize, seeds_after, hkeys]
  rfl

/-- **Snapshots are current.** Whatever calls have been made, a `Snapshot` is sorted by tier
ascending and then preference descending. If an entry is listed, it has exactly one entry for
each listed instance, as its last ADVERT gave it; otherwise it has the seeds of the last
`Seed` call. In content it is what a rebuild would collect now. -/
theorem snapshot_current (ops : List Op) (ord : RangeOrder UInt32)
    (sort : SliceSort EndpointEntry.less) :
    let snap := ((after ops).takeSnapshot ord sort).2
    (snap.Pairwise fun a b =>
      a.tier < b.tier ∨ (a.tier = b.tier ∧ b.preference ≤ a.preference)) ∧
    ((∃ e, Listed ops e) →
      (snap.map EndpointEntry.instanceID).Nodup ∧ ∀ e, e ∈ snap ↔ Listed ops e) ∧
    ((∀ e, ¬ Listed ops e) → snap.Perm (seedsOf (lastSeed ops))) ∧
    ∀ ord', snap.Perm ((after ops).merged ord') := by
  intro snap
  have hcoherent := coherent_after ops
  obtain ⟨hordered, hperm⟩ := hcoherent.takeSnapshot ord sort
  refine ⟨hordered.imp fun hab => EndpointEntry.less_eq_false_iff.mp hab, ?_, ?_, ?_⟩
  · rintro ⟨e₀, he₀⟩
    have hne : (after ops).entries.size ≠ 0 := fun h => (size_after_eq_zero ops).mp h e₀ he₀
    refine ⟨?_, fun e => hperm.mem_iff.trans (mem_merged_after hne e)⟩
    rw [(hperm.map _).nodup_iff, map_instanceID_merged hcoherent hne]
    exact (after ops).entries.keys_nodup
  · intro hnone
    rw [← merged_after_of_size_eq_zero ((size_after_eq_zero ops).mpr hnone)]
    exact hperm
  · intro ord'
    exact hperm.trans (merged_perm (fun _ => rfl) rfl _ _)

end Registry

end ShardListener
