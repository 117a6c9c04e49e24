import ShardListener.ByteBuffer
import ShardListener.Config
import ShardListener.Tracker

/-!
# The Multicast Groups of a Listener

`buildGroups` of `main.go` turns a configuration into the list of the groups that every worker
joins on its socket: the shards that are selected, the block control group, and the subtree data
group if it is enabled. A socket can join a group only once; the second time the call fails, and
with it the worker (`joinGroups`).

The shards of a list are joined as they are listed. `Load` checks that each of them exists, but
not that none is listed twice.

## Main results

* `joinGroups_eq_ok`: a worker starts exactly when no group is joined twice.
* `Configuration.mem_buildGroups`: which groups are joined.
* `Configuration.WellFormed.nodup_buildGroups_iff`: when no group is joined twice.
* `Configuration.joined_groups_distinct_iff`: the same in terms of the flags.
* `Configuration.shard_joined_twice`: a list that is accepted, with which no worker starts.
-/

namespace ShardListener

open Text ByteBuffer

/-! ### Addresses -/

/-- A UDP address. -/
structure UDPAddr where
  ip : Bytes
  port : ℤ
  deriving DecidableEq

/-- The layout of a group address: the prefix of the scope, ten zero bytes, the IANA group id and
the index of the group. -/
def groupAddr (mcPrefix mcGroupID idx : UInt16) : Bytes :=
  bigEndian 2 mcPrefix.toNat ++ List.replicate 10 0x00 ++ bigEndian 2 mcGroupID.toNat ++
    bigEndian 2 idx.toNat

/-- The index is part of the address. -/
theorem groupAddr_inj {mcPrefix mcGroupID idx idx' : UInt16} :
    groupAddr mcPrefix mcGroupID idx = groupAddr mcPrefix mcGroupID idx' ↔ idx = idx' := by
  refine ⟨fun h => ?_, congrArg _⟩
  have htail : bigEndian 2 idx.toNat = bigEndian 2 idx'.toNat := List.append_cancel_left h
  have hnat := congrArg ofBigEndian htail
  rw [ofBigEndian_bigEndian, ofBigEndian_bigEndian] at hnat
  have hlt : idx.toNat < 65536 := idx.toNat_lt
  have hlt' : idx'.toNat < 65536 := idx'.toNat_lt
  exact UInt16.toNat_inj.mp (by omega)

/-- A shard engine, with the function `ControlGroupAddr` of its package, and what is assumed of
them: the shards below `2^bits` have different addresses, and none of them has the address of a
control group. -/
structure Engine (mcPrefix mcGroupID : UInt16) (bits : ℕ) where
  addr : UInt32 → Bytes
  controlGroupAddr : UInt16 → UInt16 → UInt16 → Bytes
  injective : ∀ i j : UInt32, i.toNat < 2 ^ bits → j.toNat < 2 ^ bits → addr i = addr j → i = j
  ne_control : ∀ i : UInt32, i.toNat < 2 ^ bits → ∀ group : UInt16, 0xFFFA ≤ group →
    group ≤ 0xFFFE → addr i ≠ controlGroupAddr mcPrefix mcGroupID group

namespace Engine

variable {mcPrefix mcGroupID : UInt16} {bits : ℕ}

/-- The block control group and the subtree data group have different addresses. -/
def SeparatesControl (engine : Engine mcPrefix mcGroupID bits) : Prop :=
  engine.controlGroupAddr mcPrefix mcGroupID 0xFFFE ≠
    engine.controlGroupAddr mcPrefix mcGroupID 0xFFFB

/-- The control groups have addresses of the documented layout, in every scope. -/
def PlacesControl (engine : Engine mcPrefix mcGroupID bits) : Prop :=
  ∀ scope groupID group : UInt16, 0xFFFA ≤ group → group ≤ 0xFFFE →
    engine.controlGroupAddr scope groupID group = groupAddr scope groupID group

/-- The documented layout keeps the two control groups apart. -/
theorem PlacesControl.separatesControl {engine : Engine mcPrefix mcGroupID bits}
    (h : engine.PlacesControl) : engine.SeparatesControl := by
  rw [SeparatesControl, h _ _ _ (by decide) (by decide), h _ _ _ (by decide) (by decide), Ne,
    groupAddr_inj]
  decide

end Engine

/-- An index of 15 bits keeps its value in 16. -/
theorem toNat_toUInt16_of_lt {bits : ℕ} (hbits : bits ≤ 15) {i : UInt32}
    (hi : i.toNat < 2 ^ bits) : i.toUInt16.toNat = i.toNat ∧ i.toNat < 32768 := by
  have hlt : i.toNat < 2 ^ 15 := lt_of_lt_of_le hi (Nat.pow_le_pow_right (by decide) hbits)
  rw [UInt32.toNat_toUInt16]
  exact ⟨Nat.mod_eq_of_lt (by omega), hlt⟩

/-- The documented layout, for up to 15 bits. -/
def Engine.layout (mcPrefix mcGroupID : UInt16) {bits : ℕ} (hbits : bits ≤ 15) :
    Engine mcPrefix mcGroupID bits where
  addr := fun i => groupAddr mcPrefix mcGroupID i.toUInt16
  controlGroupAddr := groupAddr
  injective := by
    intro i j hi hj heq
    have hidx := congrArg UInt16.toNat (groupAddr_inj.mp heq)
    rw [(toNat_toUInt16_of_lt hbits hi).1, (toNat_toUInt16_of_lt hbits hj).1] at hidx
    exact UInt32.toNat_inj.mp hidx
  ne_control := by
    intro i hi group hlo _ heq
    obtain ⟨hidx, hlt⟩ := toNat_toUInt16_of_lt hbits hi
    rw [groupAddr_inj.mp heq] at hidx
    have hle : 65530 ≤ group.toNat := UInt16.le_iff_toNat_le.mp hlo
    omega

/-! ### The groups of a configuration -/

namespace Configuration

/-- The indices of the shard groups to join: the listed ones, or all. -/
def indices (c : Configuration) : List UInt32 :=
  if c.shardInclude ≠ [] then c.shardInclude
  else (List.range c.numGroups.toNat).map UInt32.ofNat

/-- The control groups to join. -/
def controlGroups (c : Configuration) (engine : Engine c.mcPrefix c.mcGroupID c.shardBits) :
    List Bytes :=
  engine.controlGroupAddr c.mcPrefix c.mcGroupID ctrlGroupControl.toUInt16 ::
    if c.subtreeDataEnabled then
      [engine.controlGroupAddr c.mcPrefix c.mcGroupID ctrlGroupSubtreeAnnounce.toUInt16]
    else []

/-- `buildGroups`. -/
def buildGroups (c : Configuration) (engine : Engine c.mcPrefix c.mcGroupID c.shardBits) :
    List UDPAddr :=
  (c.indices.map engine.addr ++ c.controlGroups engine).map fun ip => ⟨ip, c.listenPort⟩

end Configuration

/-- The joins of `Run`, on a socket that has joined some groups: for a group that it has joined
`IPV6_JOIN_GROUP` fails. The error is that of the group. -/
def joinGroups (joined : List Bytes) : List UDPAddr → Except Bytes (List Bytes)
  | [] => .ok joined
  | grp :: groups =>
      if grp.ip ∈ joined then .error grp.ip else joinGroups (joined ++ [grp.ip]) groups

/-- **A worker starts exactly when no group is joined twice.** -/
theorem joinGroups_eq_ok {joined : List Bytes} {groups : List UDPAddr} (hjoined : joined.Nodup) :
    (∃ all, joinGroups joined groups = .ok all) ↔ (joined ++ groups.map UDPAddr.ip).Nodup := by
  induction groups generalizing joined with
  | nil =>
      rw [List.map_nil, List.append_nil]
      exact iff_of_true ⟨joined, rfl⟩ hjoined
  | cons grp groups ih =>
      rw [joinGroups, List.map_cons]
      split_ifs with hmem
      · refine iff_of_false (fun ⟨_, h⟩ => nomatch h) fun hnodup => ?_
        exact (List.nodup_append.mp hnodup).2.2 grp.ip hmem grp.ip List.mem_cons_self rfl
      · have hmore : (joined ++ [grp.ip]).Nodup := by
          rw [← List.concat_eq_append]
          exact hjoined.concat hmem
        rw [ih hmore, List.append_assoc, List.singleton_append]

namespace Configuration

section Groups

variable {host : Host} {f : CommandLine} {c : Configuration}

/-- The shards that the flags select: the values of the listed entries, or all. -/
def Selected (f : CommandLine) (idx : UInt32) : Prop :=
  (ShardListener.entries f.shardInclude = [] ∧ idx.toNat < 2 ^ f.shardBits) ∨
    ∃ s ∈ ShardListener.entries f.shardInclude, value 10 s = idx.toNat

/-- The shards of the list have the values of its entries. -/
theorem Resolves.map_toNat_shardInclude (h : Resolves host f c) :
    c.shardInclude.map UInt32.toNat =
      (ShardListener.entries f.shardInclude).map (value 10) := by
  have hall : List.Forall₂ (fun s idx => value 10 s = UInt32.toNat idx)
      (ShardListener.entries f.shardInclude) c.shardInclude := h.shards.imp fun _ _ hs => hs.2.1
  have hmap : List.Forall₂ (fun m n => m = n)
      ((ShardListener.entries f.shardInclude).map (value 10))
      (c.shardInclude.map UInt32.toNat) :=
    List.forall₂_map_left_iff.mpr (List.forall₂_map_right_iff.mpr hall)
  rw [List.forall₂_eq_eq_eq] at hmap
  exact hmap.symm

/-- An index is determined by its value. -/
theorem mem_map_toNat {idx : UInt32} {l : List UInt32} : idx.toNat ∈ l.map UInt32.toNat ↔ idx ∈ l :=
  List.mem_map_of_injective fun _ _ => UInt32.toNat_inj.mp

/-- The numbers below `n` as indices. -/
theorem map_toNat_range {n : ℕ} (hn : n ≤ 2 ^ 32) :
    ((List.range n).map UInt32.ofNat).map UInt32.toNat = List.range n := by
  rw [List.map_map]
  refine (List.map_congr_left fun i hi => ?_).trans (List.map_id _)
  exact UInt32.toNat_ofNat_of_lt' (lt_of_lt_of_le (List.mem_range.mp hi) hn)

/-- Every shard has an index of 32 bits. -/
theorem WellFormed.two_pow_le (h : WellFormed c) : 2 ^ c.shardBits ≤ 2 ^ 32 :=
  Nat.pow_le_pow_right (by decide) (by have := h.bits.2; omega)

/-- **The shard groups that are joined** are the selected ones. -/
theorem Resolves.mem_indices (h : Resolves host f c) {idx : UInt32} :
    idx ∈ c.indices ↔ Selected f idx := by
  have hbits : f.shardBits = c.shardBits := (bitsOf_eq_ok.mp h.shardBits).1
  have hvals := h.map_toNat_shardInclude
  have hnil : ShardListener.entries f.shardInclude = [] ↔ c.shardInclude = [] := by
    rw [← List.map_eq_nil_iff (f := value 10), ← hvals, List.map_eq_nil_iff]
  rw [indices, Selected, hnil, hbits]
  by_cases hlist : c.shardInclude = []
  · have hempty := hnil.mpr hlist
    rw [if_neg (not_not.mpr hlist), and_iff_right hlist, hempty, h.wellFormed.numGroups]
    have hnone : ¬ ∃ s ∈ ([] : List Bytes), value 10 s = idx.toNat := by
      rintro ⟨s, hs, -⟩
      exact absurd hs List.not_mem_nil
    have hrange : idx ∈ (List.range (2 ^ c.shardBits)).map UInt32.ofNat ↔
        idx.toNat < 2 ^ c.shardBits := by
      rw [← mem_map_toNat, map_toNat_range h.wellFormed.two_pow_le, List.mem_range]
    rw [or_iff_left hnone]
    exact hrange
  · rw [if_pos hlist, or_iff_right fun hc => hlist hc.1,
      ← mem_map_toNat, hvals, List.mem_map]

/-- A shard that is joined exists. -/
theorem WellFormed.lt_of_mem_indices (h : WellFormed c) {idx : UInt32} (hidx : idx ∈ c.indices) :
    idx.toNat < 2 ^ c.shardBits := by
  rw [indices] at hidx
  split_ifs at hidx
  · rw [← h.numGroups]
    exact UInt32.lt_iff_toNat_lt.mp (h.shards idx hidx)
  · rw [h.numGroups] at hidx
    have hmem := List.mem_map_of_mem (f := UInt32.toNat) hidx
    rwa [map_toNat_range h.two_pow_le, List.mem_range] at hmem

/-- No index occurs twice unless it is listed twice. -/
theorem WellFormed.nodup_indices (h : WellFormed c) : c.indices.Nodup ↔ c.shardInclude.Nodup := by
  rw [indices]
  split_ifs with hlist
  · rfl
  · rw [not_not.mp hlist, h.numGroups]
    refine iff_of_true (List.Nodup.of_map UInt32.toNat ?_) List.nodup_nil
    rw [map_toNat_range h.two_pow_le]
    exact List.nodup_range

variable {engine : Engine c.mcPrefix c.mcGroupID c.shardBits}

/-- The control groups are different if the engine keeps the two apart. -/
theorem nodup_controlGroups :
    (c.controlGroups engine).Nodup ↔ (c.subtreeDataEnabled = true → engine.SeparatesControl) := by
  rw [controlGroups, Engine.SeparatesControl]
  cases c.subtreeDataEnabled with
  | false => simp
  | true =>
      rw [if_pos rfl, List.nodup_cons, List.mem_singleton, and_iff_left (List.nodup_singleton _),
        imp_iff_right rfl]
      exact Iff.rfl

/-- A control group has the address of one of the reserved indices. -/
theorem reserved_of_mem_controlGroups {ip : Bytes} (h : ip ∈ c.controlGroups engine) :
    ∃ group : UInt16, 0xFFFA ≤ group ∧ group ≤ 0xFFFE ∧
      ip = engine.controlGroupAddr c.mcPrefix c.mcGroupID group := by
  rw [controlGroups] at h
  rcases List.mem_cons.mp h with rfl | h
  · exact ⟨_, by decide, by decide, rfl⟩
  · split_ifs at h
    · exact ⟨_, by decide, by decide, List.mem_singleton.mp h⟩
    · exact absurd h List.not_mem_nil

/-- Two groups have the same address only if a shard is listed twice, or if they are the two
control groups. -/
theorem WellFormed.nodup_groups_iff (h : WellFormed c) :
    (c.indices.map engine.addr ++ c.controlGroups engine).Nodup ↔
      c.shardInclude.Nodup ∧ (c.subtreeDataEnabled = true → engine.SeparatesControl) := by
  have hshards : (c.indices.map engine.addr).Nodup ↔ c.indices.Nodup := by
    refine ⟨List.Nodup.of_map engine.addr, fun hnodup => hnodup.map_on ?_⟩
    intro i hi j hj heq
    exact engine.injective i j (h.lt_of_mem_indices hi) (h.lt_of_mem_indices hj) heq
  have hdisjoint : ∀ ip ∈ c.indices.map engine.addr, ∀ ip' ∈ c.controlGroups engine,
      ip ≠ ip' := by
    intro ip hip ip' hip'
    obtain ⟨idx, hidx, rfl⟩ := List.mem_map.mp hip
    obtain ⟨group, hlo, hhi, rfl⟩ := reserved_of_mem_controlGroups hip'
    exact engine.ne_control idx (h.lt_of_mem_indices hidx) group hlo hhi
  rw [List.nodup_append, hshards, h.nodup_indices, nodup_controlGroups]
  exact and_congr_right' (and_iff_left hdisjoint)

/-- The addresses of the groups, without the port. -/
theorem map_ip_buildGroups :
    (c.buildGroups engine).map UDPAddr.ip =
      c.indices.map engine.addr ++ c.controlGroups engine := by
  rw [buildGroups, List.map_map]
  exact List.map_id _

/-- **Which groups are joined**, with their port. -/
theorem mem_buildGroups {addr : UDPAddr} :
    addr ∈ c.buildGroups engine ↔
      addr.port = c.listenPort ∧
        ((∃ idx ∈ c.indices, addr.ip = engine.addr idx) ∨
          addr.ip = engine.controlGroupAddr c.mcPrefix c.mcGroupID ctrlGroupControl.toUInt16 ∨
          (c.subtreeDataEnabled = true ∧
            addr.ip = engine.controlGroupAddr c.mcPrefix c.mcGroupID
              ctrlGroupSubtreeAnnounce.toUInt16)) := by
  have hport : addr ∈ c.buildGroups engine ↔
      addr.port = c.listenPort ∧ addr.ip ∈ c.indices.map engine.addr ++ c.controlGroups engine := by
    rw [buildGroups, List.mem_map]
    constructor
    · rintro ⟨ip, hip, rfl⟩
      exact ⟨rfl, hip⟩
    · rintro ⟨hp, hip⟩
      exact ⟨addr.ip, hip, by rw [← hp]⟩
  have hcontrol : addr.ip ∈ c.controlGroups engine ↔
      addr.ip = engine.controlGroupAddr c.mcPrefix c.mcGroupID ctrlGroupControl.toUInt16 ∨
        (c.subtreeDataEnabled = true ∧
          addr.ip = engine.controlGroupAddr c.mcPrefix c.mcGroupID
            ctrlGroupSubtreeAnnounce.toUInt16) := by
    rw [controlGroups, List.mem_cons]
    cases c.subtreeDataEnabled <;> simp
  have hshards : addr.ip ∈ c.indices.map engine.addr ↔
      ∃ idx ∈ c.indices, addr.ip = engine.addr idx := by
    simp only [List.mem_map, eq_comm]
  rw [hport, List.mem_append, hcontrol, hshards]

/-- **When no group is listed twice**: the port does not tell two groups apart. -/
theorem WellFormed.nodup_buildGroups_iff (h : WellFormed c) :
    (c.buildGroups engine).Nodup ↔
      c.shardInclude.Nodup ∧ (c.subtreeDataEnabled = true → engine.SeparatesControl) := by
  rw [← h.nodup_groups_iff]
  refine ⟨fun hnodup => ?_, fun hnodup => ?_⟩
  · exact List.Nodup.of_map _ hnodup
  · exact hnodup.map fun _ _ heq => congrArg UDPAddr.ip heq

/-- The list of shards has a repetition exactly when two of its entries have the same value. -/
theorem Resolves.nodup_shardInclude_iff (h : Resolves host f c) :
    c.shardInclude.Nodup ↔ ((ShardListener.entries f.shardInclude).map (value 10)).Nodup := by
  rw [← h.map_toNat_shardInclude]
  exact (List.nodup_map_iff fun _ _ => UInt32.toNat_inj.mp).symm

/-- **The joined groups.** For every command line that `Load` accepts they are exactly the selected
shard groups, the block control group and, if it is enabled, the subtree data group. They are
different, and every worker can join them all, exactly when no two entries of the list of shards
have the same value; if subtree data is enabled, this assumes that the two control groups have
different addresses. -/
theorem joined_groups_distinct_iff (host : Host) (f : CommandLine) (c : Configuration)
    (hload : load host f = .ok c) (engine : Engine c.mcPrefix c.mcGroupID c.shardBits)
    (hcontrol : f.subtreeDataEnabled = true → engine.SeparatesControl) :
    (∀ addr, addr ∈ c.buildGroups engine ↔
      addr.port = f.listenPort ∧
        ((∃ idx, Selected f idx ∧ addr.ip = engine.addr idx) ∨
          addr.ip = engine.controlGroupAddr c.mcPrefix c.mcGroupID 0xFFFE ∨
          (f.subtreeDataEnabled = true ∧
            addr.ip = engine.controlGroupAddr c.mcPrefix c.mcGroupID 0xFFFB))) ∧
      ((c.buildGroups engine).Nodup ↔
        ((ShardListener.entries f.shardInclude).map (value 10)).Nodup) ∧
      ((∃ joined, joinGroups [] (c.buildGroups engine) = .ok joined) ↔
        ((ShardListener.entries f.shardInclude).map (value 10)).Nodup) := by
  have hres := load_eq_ok.mp hload
  have hwf := hres.wellFormed
  have hlisted := hres.nodup_shardInclude_iff
  rw [← hres.subtreeDataEnabled] at hcontrol
  refine ⟨fun addr => ?_, ?_, ?_⟩
  · rw [mem_buildGroups, hres.listenPort, hres.subtreeDataEnabled]
    simp only [hres.mem_indices]
    exact Iff.rfl
  · rw [hwf.nodup_buildGroups_iff, and_iff_left hcontrol, hlisted]
  · rw [joinGroups_eq_ok List.nodup_nil, List.nil_append, map_ip_buildGroups,
      hwf.nodup_groups_iff, and_iff_left hcontrol, hlisted]

end Groups

/-! ### A shard that is listed twice -/

/-- A host whose only interface is `eth0`. -/
def eth0Host : Host where
  numCPU := 1
  interfaceByName := fun name => if name = ascii "eth0" then some ⟨name, 2⟩ else none
  parseCIDR := fun _ => none
  parseIP := fun _ => none

/-- What `eth0Host` makes of the defaults with a list of shards. -/
def withShards (shards : List UInt32) : Configuration where
  iface := ⟨ascii "eth0", 2⟩
  listenPort := 9001
  shardBits := 2
  numGroups := 4
  mcPrefix := 0xFF05
  mcGroupID := 0x000B
  shardInclude := shards
  subtreeInclude := []
  subtreeExclude := []
  egressProto := .udp
  mcEgress := none
  headerEgressProto := none
  headerMCEgress := none
  retryEndpoints := []
  subtreeGroups := []
  announceScopes := [ascii "site"]
  senderInclude := []
  senderExclude := []
  numWorkers := 1
  subtreeDataEnabled := false

/-- The layout of the shards of `withShards`. -/
def siteLayout : Engine 0xFF05 0x000B 2 :=
  .layout 0xFF05 0x000B (by decide)

/-- The layout has the control groups in their places. -/
theorem siteLayout_placesControl : siteLayout.PlacesControl := fun _ _ _ _ _ => rfl

/-- Two shards and the subtree data group. -/
theorem joined_groups_distinct_iff_listed :
    let f := { CommandLine.default 1 with
      shardInclude := ascii " 3 ,,01", subtreeDataEnabled := true }
    let c := { withShards [3, 1] with subtreeDataEnabled := true }
    load eth0Host f = .ok c ∧
      c.buildGroups siteLayout =
        [⟨groupAddr 0xFF05 0x000B 3, 9001⟩, ⟨groupAddr 0xFF05 0x000B 1, 9001⟩,
          ⟨groupAddr 0xFF05 0x000B 0xFFFE, 9001⟩, ⟨groupAddr 0xFF05 0x000B 0xFFFB, 9001⟩] ∧
      ∃ joined, joinGroups [] (c.buildGroups siteLayout) = .ok joined := by
  intro f c
  have hload : load eth0Host f = .ok c := by decide
  have hcontrol : siteLayout.SeparatesControl := siteLayout_placesControl.separatesControl
  refine ⟨hload, by decide, ?_⟩
  exact (joined_groups_distinct_iff eth0Host f c hload siteLayout fun _ => hcontrol).2.2.mpr
    (by decide)

/-- **A shard that is listed twice is accepted and joined twice.** The second join fails, and with
it every worker. -/
theorem shard_joined_twice :
    load eth0Host { CommandLine.default 1 with shardInclude := ascii "1,1" } =
        .ok (withShards [1, 1]) ∧
      ¬ ((withShards [1, 1]).buildGroups siteLayout).Nodup ∧
      joinGroups [] ((withShards [1, 1]).buildGroups siteLayout) =
        .error (groupAddr 0xFF05 0x000B 1) := by
  exact ⟨by decide, by decide, by decide⟩

end Configuration

end ShardListener
