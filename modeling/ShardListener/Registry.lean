import ShardListener.AssocMap
import ShardListener.Machine
import ShardListener.SliceSort
import ShardListener.Frame

/-!
# The Retry Endpoint Registry

The endpoint registry of `discovery/registry.go`. Beacon entries are kept by `InstanceID`
and refreshed in place, static seeds are a fallback for the time without any beacon, and
`Snapshot` caches the sorted list until the next mutation.

The order in which a rebuild collects the map is a `RangeOrder`, and the sort is a
`SliceSort`: both are chosen anew at every rebuild.

## Main results

* `coherent_after`: whatever calls have been made, a cache in use is an ordered list of what
  a rebuild would collect.
* `SameRanks.takeSnapshot`: while no endpoint changes and no two tie, every snapshot lists
  them in one and the same order.
-/

namespace ShardListener

/-- The flag bit that announces unicast retransmits. -/
def flagUnicastRetransmit : UInt16 := 0x0008

/-- A decoded ADVERT beacon. -/
structure Advert where
  scope : UInt8
  nackAddr : List.Vector UInt8 16
  nackPort : UInt16
  tier : UInt8
  preference : UInt8
  beaconInterval : UInt16
  flags : UInt16
  instanceID : UInt32

/-- An address to send NACKs to: the text `[ip]:port` printed from an ADVERT, or a
configured seed. -/
inductive EndpointAddr
  | advertised (ip : List.Vector UInt8 16) (port : UInt16)
  | seed (text : Bytes)
  deriving DecidableEq

/-- A discovered or seeded retry endpoint. -/
structure EndpointEntry where
  addr : EndpointAddr
  tier : UInt8
  preference : UInt8
  flags : UInt16
  expires : Time
  instanceID : UInt32
  supportsUnicast : Bool
  deriving DecidableEq

/-- The comparator of `Snapshot`: tier ascending, then preference descending. -/
def EndpointEntry.less (a b : EndpointEntry) : Bool :=
  if a.tier ≠ b.tier then a.tier < b.tier else b.preference < a.preference

/-- Endpoints that are not less than each other are chained by the comparator. -/
theorem EndpointEntry.less_trans (a b c : EndpointEntry) (hab : less b a = false)
    (hbc : less c b = false) : less c a = false := by
  simp only [less] at *
  split_ifs at * <;> grind

theorem EndpointEntry.less_total (a b : EndpointEntry) : less b a = false ∨ less a b = false := by
  simp only [less]
  split_ifs <;> grind

/-- What the comparator orders by. -/
theorem EndpointEntry.less_eq_false_iff {a b : EndpointEntry} :
    less b a = false ↔ a.tier < b.tier ∨ (a.tier = b.tier ∧ b.preference ≤ a.preference) := by
  simp only [less]
  split_ifs <;> grind

/-- A sort of endpoints that can be evaluated. -/
def EndpointEntry.sort : SliceSort EndpointEntry.less := .insertion _ less_trans less_total

/-- What the place of an endpoint depends on: instance, tier and preference. -/
abbrev Rank := UInt32 × UInt8 × UInt8

def EndpointEntry.rank (e : EndpointEntry) : Rank := (e.instanceID, e.tier, e.preference)

/-- The comparator on ranks. -/
def Rank.less (a b : Rank) : Bool :=
  if a.2.1 ≠ b.2.1 then a.2.1 < b.2.1 else b.2.2 < a.2.2

/-- Ranks that the comparator cannot tell apart have the same tier and preference. -/
theorem Rank.snd_eq_of_not_less {x y : Rank} (hyx : Rank.less y x = false)
    (hxy : Rank.less x y = false) : x.2 = y.2 := by
  obtain ⟨i, t, p⟩ := x
  obtain ⟨i', t', p'⟩ := y
  simp only [less] at hyx hxy
  split_ifs at hyx hxy <;> grind

/-- The live endpoint set. `snapshot` is the cached list, `none` before the first
`Snapshot`. -/
structure Registry where
  entries : AssocMap UInt32 EndpointEntry
  seeds : List EndpointEntry
  snapshot : Option (List EndpointEntry)
  dirty : Bool

namespace Registry

/-- `NewRegistry`. -/
def new : Registry := ⟨∅, [], none, false⟩

/-- `Registry.Upsert` at time `now`: refresh the entry of the instance, or create it. -/
def upsert (r : Registry) (now : Time) (a : Advert) : Registry :=
  let addr := EndpointAddr.advertised a.nackAddr a.nackPort
  let ttl : Duration := a.beaconInterval.toNat * 3 * second
  let entry : EndpointEntry :=
    match r.entries.lookup a.instanceID with
    | some entry =>
        { entry with
          addr := addr
          tier := a.tier
          preference := a.preference
          flags := a.flags
          expires := now + ttl
          supportsUnicast := a.flags &&& flagUnicastRetransmit != 0 }
    | none =>
        { addr := addr
          tier := a.tier
          preference := a.preference
          flags := a.flags
          expires := now + ttl
          instanceID := a.instanceID
          supportsUnicast := a.flags &&& flagUnicastRetransmit != 0 }
  { r with entries := r.entries.insert a.instanceID entry, dirty := true }

/-- The loop body of `Evict`; the accumulator is the dirty flag. -/
def evictEntry (now : Time) (dirty : Bool) (_id : UInt32) (e : EndpointEntry) :
    Bool × Option EndpointEntry :=
  if e.expires < now then (true, none) else (dirty, some e)

/-- `Registry.Evict` at time `now`. -/
def evict (r : Registry) (now : Time) (ord : RangeOrder UInt32) : Registry :=
  let out := r.entries.range ord (evictEntry now) r.dirty
  { r with entries := out.2, dirty := out.1 }

/-- The expiry of seeds, the first instant of the year 9999. -/
def seedExpires : Time := 253370764800 * second

/-- `Registry.Seed`. -/
def seed (r : Registry) (addrs : List Bytes) : Registry :=
  { r with
    seeds := addrs.zipIdx.map fun p =>
      { addr := .seed p.1
        tier := 0xFF
        preference := 0
        flags := 0
        expires := seedExpires
        instanceID := 0xFFFFF000 + UInt32.ofNat p.2
        supportsUnicast := false }
    dirty := true }

/-- What a rebuild sorts: the beacon entries, or the seeds when there are none. -/
def merged (r : Registry) (ord : RangeOrder UInt32) : List EndpointEntry :=
  let beacons := (ord.arrange r.entries.keys).filterMap r.entries.lookup
  if r.entries.size = 0 then beacons ++ r.seeds else beacons

/-- `Registry.Snapshot`: rebuild if anything changed, else answer from the cache. -/
def takeSnapshot (r : Registry) (ord : RangeOrder UInt32) (sort : SliceSort EndpointEntry.less) :
    Registry × List EndpointEntry :=
  match r.dirty, r.snapshot with
  | false, some snap => (r, snap)
  | _, _ =>
      let snap := sort.run (r.merged ord)
      ({ r with snapshot := some snap, dirty := false }, snap)

/-! ### Runs of the registry -/

/-- A call of the registry, with the readings and choices it makes. -/
inductive Op
  | upsert (now : Time) (a : Advert)
  | evict (now : Time) (ord : RangeOrder UInt32)
  | seed (addrs : List Bytes)
  | snapshot (ord : RangeOrder UInt32) (sort : SliceSort EndpointEntry.less)

/-- Run one call. -/
def step (r : Registry) : Op → Registry
  | .upsert now a => r.upsert now a
  | .evict now ord => r.evict now ord
  | .seed addrs => r.seed addrs
  | .snapshot ord sort => (r.takeSnapshot ord sort).1

/-- The registry after some calls. -/
def after (ops : List Op) : Registry := Machine.run step new ops

theorem after_snoc (ops : List Op) (op : Op) : after (ops ++ [op]) = (after ops).step op :=
  Machine.run_snoc _ _ _ _

/-- The list is in the order of the comparator. -/
def Ordered (l : List EndpointEntry) : Prop :=
  l.Pairwise fun a b => EndpointEntry.less b a = false

/-- The cache, when it is in use, is an ordered list of what a rebuild would collect, and
entries know their instance. -/
structure Coherent (r : Registry) : Prop where
  instanceID : ∀ id e, r.entries.lookup id = some e → e.instanceID = id
  cache : ∀ snap, r.dirty = false → r.snapshot = some snap →
    Ordered snap ∧ snap.Perm (r.merged (.stored _))

section Lookup

variable {r r' : Registry}

/-- Maps with the same entries have the same keys. -/
theorem keys_perm (h : ∀ id, (r.entries.lookup id).isSome = (r'.entries.lookup id).isSome) :
    r.entries.keys.Perm r'.entries.keys := by
  refine (List.perm_ext_iff_of_nodup r.entries.keys_nodup r'.entries.keys_nodup).mpr ?_
  intro id
  rw [← AList.mem_keys, ← AList.mem_keys, ← AList.lookup_isSome, ← AList.lookup_isSome, h]

/-- What a rebuild collects does not depend on the order of the map. -/
theorem merged_perm (h : ∀ id, r.entries.lookup id = r'.entries.lookup id)
    (hseeds : r.seeds = r'.seeds) (ord ord' : RangeOrder UInt32) :
    (r.merged ord).Perm (r'.merged ord') := by
  have hkeys : r.entries.keys.Perm r'.entries.keys := keys_perm fun id => by rw [h]
  have hsize : r.entries.size = r'.entries.size := by
    rw [AList.size_eq_length_keys, AList.size_eq_length_keys, hkeys.length_eq]
  have hlookup : (fun id => r.entries.lookup id) = fun id => r'.entries.lookup id := funext h
  have hbeacons : ((ord.arrange r.entries.keys).filterMap fun id => r.entries.lookup id).Perm
      ((ord'.arrange r'.entries.keys).filterMap fun id => r'.entries.lookup id) := by
    rw [hlookup]
    exact ((ord.arrange_perm _).trans (hkeys.trans (ord'.arrange_perm _).symm)).filterMap _
  rw [merged, merged, hsize, hseeds]
  split
  · exact hbeacons.append_right _
  · exact hbeacons

end Lookup

section Calls

variable {r : Registry}

/-- The entry of an instance after a refresh or a first ADVERT. -/
theorem lookup_upsert (hid : ∀ id e, r.entries.lookup id = some e → e.instanceID = id)
    (now : Time) (a : Advert) (id : UInt32) :
    (r.upsert now a).entries.lookup id =
      if id = a.instanceID then
        some { addr := .advertised a.nackAddr a.nackPort
               tier := a.tier
               preference := a.preference
               flags := a.flags
               expires := now + a.beaconInterval.toNat * 3 * second
               instanceID := a.instanceID
               supportsUnicast := a.flags &&& flagUnicastRetransmit != 0 }
      else r.entries.lookup id := by
  simp only [upsert, AList.lookup_insert_ite]
  split
  · cases he : r.entries.lookup a.instanceID with
    | none => rfl
    | some e =>
        simp only [Option.some.injEq]
        rw [hid _ e he]
  · rfl

/-- What `Evict` does to one entry. -/
theorem lookup_evict (now : Time) (ord : RangeOrder UInt32) (id : UInt32) :
    (r.evict now ord).entries.lookup id =
      (r.entries.lookup id).bind fun e => if e.expires < now then none else some e := by
  obtain ⟨d, hd⟩ := AList.lookup_range (evictEntry now) ord r.dirty r.entries id
  have hrange : (r.evict now ord).entries.lookup id =
      (r.entries.lookup id).bind fun e => (evictEntry now d id e).2 := hd
  rw [hrange]
  congr 1
  funext e
  rw [evictEntry]
  split <;> rfl

/-- `Evict` leaves the cache in use only when it has deleted nothing. -/
theorem evict_not_dirty {now : Time} {ord : RangeOrder UInt32}
    (h : (r.evict now ord).dirty = false) :
    r.dirty = false ∧ ∀ id, (r.evict now ord).entries.lookup id = r.entries.lookup id := by
  obtain ⟨done, -, hrun⟩ := AList.range_invariant
    (P := fun (_ : List UInt32) (d : Bool) m =>
      d = false → r.dirty = false ∧ ∀ id, AList.lookup id m = r.entries.lookup id)
    (evictEntry now) ord (s := r.dirty) (m := r.entries) (fun hd => ⟨hd, fun _ => rfl⟩) (by
      intro done d m k e _ _ he ih hd
      rw [evictEntry] at hd ⊢
      split at hd
      · cases hd
      · rename_i hlive
        obtain ⟨hdirty, hlookup⟩ := ih hd
        refine ⟨hdirty, fun id => ?_⟩
        rw [if_neg hlive, AList.lookup_put, ← hlookup id]
        split
        · rename_i hid
          rw [hid, he]
        · rfl)
  exact hrun h

theorem Coherent.new : Coherent new where
  instanceID := fun _ _ h => nomatch h
  cache := fun _ _ h => nomatch h

/-- **Every call keeps the cache coherent.** -/
theorem Coherent.step (h : Coherent r) (op : Op) : Coherent (r.step op) := by
  cases op with
  | upsert now a =>
      refine ⟨?_, fun _ hd => nomatch hd⟩
      intro id e he
      rw [Registry.step, lookup_upsert h.instanceID] at he
      split at he
      · rename_i hid
        obtain rfl := Option.some.inj he
        exact hid.symm
      · exact h.instanceID id e he
  | seed addrs => exact ⟨h.instanceID, fun _ hd => nomatch hd⟩
  | evict now ord =>
      constructor
      · intro id e he
        rw [Registry.step, lookup_evict, Option.bind_eq_some_iff] at he
        obtain ⟨e', he', hif⟩ := he
        split at hif
        · cases hif
        · obtain rfl := Option.some.inj hif
          exact h.instanceID id e' he'
      · intro snap hd hsnap
        obtain ⟨hdirty, hlookup⟩ := evict_not_dirty hd
        obtain ⟨hord, hperm⟩ := h.cache snap hdirty hsnap
        exact ⟨hord, hperm.trans (merged_perm (fun id => (hlookup id).symm) rfl _ _)⟩
  | snapshot ord sort =>
      rw [Registry.step, takeSnapshot]
      split
      · exact h
      · refine ⟨h.instanceID, ?_⟩
        intro snap _ hsnap
        obtain rfl := Option.some.inj hsnap
        refine ⟨sort.run_sorted _, (sort.run_perm _).trans ?_⟩
        exact merged_perm (fun _ => rfl) rfl _ _

theorem coherent_after (ops : List Op) : Coherent (after ops) :=
  Machine.run_invariant .new (fun _ op h => h.step op) ops

end Calls

/-! ### The order of a steady set of endpoints -/

/-- The rank of the entry of an instance. -/
def rankOf (r : Registry) (id : UInt32) : Option Rank :=
  (r.entries.lookup id).map EndpointEntry.rank

/-- The registry has the endpoints of `r₀`, in the same tiers and with the same
preferences. Everything else about them may differ. -/
def SameRanks (r₀ r : Registry) : Prop := ∀ id, r.rankOf id = r₀.rankOf id

/-- No two endpoints share tier and preference. -/
def NoTies (r : Registry) : Prop :=
  ∀ id ∈ r.entries.keys, ∀ id' ∈ r.entries.keys,
    (r.rankOf id).map Prod.snd = (r.rankOf id').map Prod.snd → id = id'

instance (r : Registry) : Decidable r.NoTies :=
  decidable_of_iff (r.entries.keys.all fun id => r.entries.keys.all fun id' =>
    decide ((r.rankOf id).map Prod.snd = (r.rankOf id').map Prod.snd → id = id'))
    (by simp only [List.all_eq_true, decide_eq_true_eq, NoTies])

/-- The ranks in the order of the comparator. -/
def order (r : Registry) : List Rank :=
  (EndpointEntry.sort.run (r.merged (.stored _))).map EndpointEntry.rank

section Order

variable {r₀ r : Registry}

/-- The ranks a rebuild collects when there are beacon entries. -/
theorem map_rank_merged (hne : r.entries.size ≠ 0) (ord : RangeOrder UInt32) :
    (r.merged ord).map EndpointEntry.rank = (ord.arrange r.entries.keys).filterMap r.rankOf := by
  rw [merged, if_neg hne, List.map_filterMap]
  rfl

/-- Registries with the same ranks have the same instances. -/
theorem SameRanks.keys_perm (h : SameRanks r₀ r) : r.entries.keys.Perm r₀.entries.keys := by
  refine Registry.keys_perm fun id => ?_
  have hid := congrArg Option.isSome (h id)
  rwa [rankOf, rankOf, Option.isSome_map, Option.isSome_map] at hid

theorem SameRanks.size (h : SameRanks r₀ r) : r.entries.size = r₀.entries.size := by
  rw [AList.size_eq_length_keys, AList.size_eq_length_keys, h.keys_perm.length_eq]

/-- Registries with the same ranks collect the same ranks. -/
theorem SameRanks.merged_perm (h : SameRanks r₀ r) (hne : r₀.entries.size ≠ 0)
    (ord ord' : RangeOrder UInt32) :
    ((r.merged ord).map EndpointEntry.rank).Perm ((r₀.merged ord').map EndpointEntry.rank) := by
  have hrank : r.rankOf = r₀.rankOf := funext h
  rw [map_rank_merged (h.size ▸ hne), map_rank_merged hne, hrank]
  exact ((ord.arrange_perm _).trans (h.keys_perm.trans (ord'.arrange_perm _).symm)).filterMap _

/-- A rank that a rebuild collects is the rank of its own instance. -/
theorem Coherent.rankOf_of_mem (h : Coherent r) (hne : r.entries.size ≠ 0)
    {ord : RangeOrder UInt32} {x : Rank} (hx : x ∈ (r.merged ord).map EndpointEntry.rank) :
    x.1 ∈ r.entries.keys ∧ r.rankOf x.1 = some x := by
  rw [map_rank_merged hne, List.mem_filterMap] at hx
  obtain ⟨id, hid, hrank⟩ := hx
  obtain ⟨e, he, rfl⟩ := Option.map_eq_some_iff.mp hrank
  have heid : e.rank.1 = id := h.instanceID id e he
  rw [heid]
  exact ⟨(ord.arrange_perm _).mem_iff.mp hid, hrank⟩

/-- Without ties the comparator tells the ranks of a registry apart. -/
theorem NoTies.eq_of_not_less (hties : NoTies r) (h : Coherent r) (hne : r.entries.size ≠ 0)
    {ord : RangeOrder UInt32} {x y : Rank} (hx : x ∈ (r.merged ord).map EndpointEntry.rank)
    (hy : y ∈ (r.merged ord).map EndpointEntry.rank) (hyx : Rank.less y x = false)
    (hxy : Rank.less x y = false) : x = y := by
  obtain ⟨hxk, hxr⟩ := h.rankOf_of_mem hne hx
  obtain ⟨hyk, hyr⟩ := h.rankOf_of_mem hne hy
  have hsnd : x.2 = y.2 := Rank.snd_eq_of_not_less hyx hxy
  refine Prod.ext (hties x.1 hxk y.1 hyk ?_) hsnd
  rw [hxr, hyr, Option.map_some, Option.map_some, hsnd]

/-- The list `Snapshot` answers with is ordered and complete. -/
theorem Coherent.takeSnapshot (h : Coherent r) (ord : RangeOrder UInt32)
    (sort : SliceSort EndpointEntry.less) :
    Ordered (r.takeSnapshot ord sort).2 ∧
      (r.takeSnapshot ord sort).2.Perm (r.merged (.stored _)) := by
  rw [Registry.takeSnapshot]
  split
  · rename_i snap hdirty hsnap
    exact h.cache snap hdirty hsnap
  · exact ⟨sort.run_sorted _, (sort.run_perm _).trans (Registry.merged_perm (fun _ => rfl) rfl _ _)⟩

/-- **One order for all snapshots**: while no endpoint changes its rank and no two tie,
every snapshot lists the ranks in the same order, whatever the map order and the sort. -/
theorem SameRanks.takeSnapshot (hsame : SameRanks r₀ r) (h₀ : Coherent r₀) (h : Coherent r)
    (hne : r₀.entries.size ≠ 0) (hties : NoTies r₀) (ord : RangeOrder UInt32)
    (sort : SliceSort EndpointEntry.less) :
    (r.takeSnapshot ord sort).2.map EndpointEntry.rank = r₀.order := by
  obtain ⟨hord, hperm⟩ := h.takeSnapshot ord sort
  have hranks : ((r.takeSnapshot ord sort).2.map EndpointEntry.rank).Perm
      ((r₀.merged (.stored _)).map EndpointEntry.rank) :=
    (hperm.map _).trans (hsame.merged_perm hne _ _)
  refine SliceSort.map_eq_of_sorted (r := Rank.less) (fun _ _ => rfl) hord
    (EndpointEntry.sort.run_sorted (r₀.merged (.stored _))) ?_ ?_
  · exact hranks.trans ((EndpointEntry.sort.run_perm _).map _).symm
  · intro x hx y hy hyx hxy
    exact hties.eq_of_not_less h₀ hne (hranks.mem_iff.mp hx) (hranks.mem_iff.mp hy) hyx hxy

/-- A rebuild collects one entry for each instance. -/
theorem map_instanceID_merged (h : Coherent r) (hne : r.entries.size ≠ 0) :
    (r.merged (.stored _)).map EndpointEntry.instanceID = r.entries.keys := by
  rw [merged, if_neg hne, List.map_filterMap]
  have hid : ∀ id ∈ r.entries.keys,
      (r.entries.lookup id).map EndpointEntry.instanceID = some id := by
    intro id hid
    obtain ⟨e, he⟩ := AList.mem_iff_lookup.mp (AList.mem_keys.mpr hid)
    rw [he, Option.map_some, h.instanceID id e he]
  exact (List.filterMap_congr hid).trans List.filterMap_some

/-- The order has one place for each instance. -/
theorem order_ids (h : Coherent r) (hne : r.entries.size ≠ 0) :
    (r.order.map Prod.fst).Perm r.entries.keys := by
  have hperm := (EndpointEntry.sort.run_perm (r.merged (.stored _))).map EndpointEntry.instanceID
  rw [map_instanceID_merged h hne] at hperm
  have hids : r.order.map Prod.fst =
      (EndpointEntry.sort.run (r.merged (.stored _))).map EndpointEntry.instanceID := by
    rw [order, List.map_map]
    rfl
  exact hids ▸ hperm

end Order

end Registry

end ShardListener
