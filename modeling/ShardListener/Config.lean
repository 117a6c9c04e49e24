import ShardListener.Egress
import ShardListener.Filter
import ShardListener.GroupIDs

/-!
# Loading the Configuration

`Load` of `config/config.go`, from the values of the flags on: it checks them in a fixed order,
resolves names to prefixes, ids and interfaces, and reads the lists. The first value it cannot
use ends it with an error that names the flag. What the operating system and the network library
decide is the `Host`.

How a flag gets its value (the command line, an environment variable, the default) is not
modelled; `CommandLine.default` has the defaults. Flags that are only passed on are left out.

## Main results

* `Configuration.load_eq_ok`: what is accepted, and what each field of the result is.
* `Configuration.Resolves.wellFormed`: what is accepted is well formed.
* `Configuration.Resolves.shards`: the shards of an accepted list, entry by entry.
* `Configuration.load_default`: the defaults are accepted wherever there is an `eth0`.
-/

namespace ShardListener

open Text

/-! ### The host -/

/-- A network interface. -/
structure NetInterface where
  name : Bytes
  index : ℤ
  deriving DecidableEq

/-- A network: an address and a mask. -/
structure IPNet where
  ip : Bytes
  mask : Bytes
  deriving DecidableEq

/-- What is decided outside: the number of processors, the interfaces, and how addresses are
written. -/
structure Host where
  numCPU : ℤ
  interfaceByName : Bytes → Option NetInterface
  parseCIDR : Bytes → Option IPNet
  parseIP : Bytes → Option Bytes

/-! ### Flags and errors -/

/-- The flags whose values are checked. -/
inductive Flag
  | shardBits
  | scope
  | mcGroupID
  | egressProto
  | iface
  | mcEgressScope
  | mcEgressGroupID
  | mcEgressIface
  | headerEgressProto
  | headerMCEgressScope
  | headerMCEgressGroupID
  | headerMCEgressIface
  | shardInclude
  | subtreeInclude
  | subtreeExclude
  | subtreeGroups
  | announceScope
  | senderInclude
  | senderExclude
  deriving DecidableEq

/-- What is wrong with a value. -/
inductive Problem
  /-- "shard-bits must be in [1, 15], got ...". -/
  | bitsOutOfRange (bits : ℕ)
  /-- "... unknown; valid values: link, site, org, global". -/
  | unknownScope (value : Bytes)
  /-- "invalid -mc-group-id ...", with the error of `parseGroupID`. -/
  | invalidGroupID (value : Bytes) (err : GroupIDError)
  /-- "... must be udp or tcp, got ...". -/
  | unknownProto (value : Bytes)
  /-- "... not found". -/
  | noInterface (value : Bytes)
  /-- "invalid shard-include value ...", with the error of `ParseUint`. -/
  | invalidShard (value : Bytes) (err : NumError)
  /-- "shard-include ... >= numGroups ...". -/
  | shardOutOfRange (idx : ℕ) (numGroups : UInt32)
  /-- "invalid 32-byte hex subtree ID ...", "invalid 32-char hex group ID ...". -/
  | invalidID (value : Bytes)
  /-- "invalid CIDR ...". -/
  | invalidCIDR (value : Bytes)
  /-- "invalid IP address ...". -/
  | invalidIP (value : Bytes)
  deriving DecidableEq

/-- Why a configuration is not accepted. -/
structure LoadError where
  flag : Flag
  problem : Problem
  deriving DecidableEq

/-- The flags of a multicast egress. -/
structure MCastFlags where
  enabled : Bool
  iface : Bytes
  port : ℤ
  scope : Bytes
  groupID : Bytes
  deriving DecidableEq

/-- The values of the flags. -/
structure CommandLine where
  iface : Bytes
  listenPort : ℤ
  shardBits : ℕ
  scope : Bytes
  mcGroupID : Bytes
  shardInclude : Bytes
  subtreeInclude : Bytes
  subtreeExclude : Bytes
  egressProto : Bytes
  mcEgress : MCastFlags
  headerEgressEnabled : Bool
  headerEgressProto : Bytes
  headerMCEgress : MCastFlags
  retryEndpoints : Bytes
  subtreeGroups : Bytes
  announceScope : Bytes
  senderInclude : Bytes
  senderExclude : Bytes
  workers : ℤ
  subtreeDataEnabled : Bool
  deriving DecidableEq

/-- A multicast egress that is not configured. -/
def MCastFlags.default : MCastFlags := ⟨false, [], 0, [], []⟩

/-- The defaults of the flags, on a host with `numCPU` processors. -/
def CommandLine.default (numCPU : ℤ) : CommandLine where
  iface := ascii "eth0"
  listenPort := 9001
  shardBits := 2
  scope := ascii "site"
  mcGroupID := ascii "0x000B"
  shardInclude := []
  subtreeInclude := []
  subtreeExclude := []
  egressProto := ascii "udp"
  mcEgress := .default
  headerEgressEnabled := false
  headerEgressProto := ascii "udp"
  headerMCEgress := .default
  retryEndpoints := []
  subtreeGroups := []
  announceScope := ascii "site"
  senderInclude := []
  senderExclude := []
  workers := numCPU
  subtreeDataEnabled := false

/-! ### Single values -/

/-- `Scopes`. -/
def scopes : List (Bytes × UInt16) :=
  [(ascii "link", 0xFF02), (ascii "site", 0xFF05), (ascii "org", 0xFF08), (ascii "global", 0xFF0E)]

/-- A scope by its name. -/
def scopeOf (flag : Flag) (name : Bytes) : Except LoadError UInt16 :=
  match scopes.lookup name with
  | some mcPrefix => .ok mcPrefix
  | none => .error ⟨flag, .unknownScope name⟩

/-- The value of a group id flag. -/
def groupIDOf (flag : Flag) (s : Bytes) : Except LoadError UInt16 :=
  match parseGroupID s with
  | .ok gid => .ok gid
  | .error err => .error ⟨flag, .invalidGroupID s err⟩

/-- The value of a protocol flag. -/
def protoOf (flag : Flag) (s : Bytes) : Except LoadError Proto :=
  if s = ascii "udp" then .ok .udp
  else if s = ascii "tcp" then .ok .tcp
  else .error ⟨flag, .unknownProto s⟩

/-- The value of an interface flag. -/
def interfaceOf (host : Host) (flag : Flag) (name : Bytes) : Except LoadError NetInterface :=
  match host.interfaceByName name with
  | some iface => .ok iface
  | none => .error ⟨flag, .noInterface name⟩

/-- A group id that may be left open. -/
def groupIDOr (dflt : UInt16) (flag : Flag) (s : Bytes) : Except LoadError UInt16 :=
  if s = [] then .ok dflt else groupIDOf flag s

/-- An interface that may be left open. -/
def interfaceOr (dflt : NetInterface) (host : Host) (flag : Flag) (name : Bytes) :
    Except LoadError NetInterface :=
  if name = [] then .ok dflt else interfaceOf host flag name

/-! ### Lists -/

/-- `splitComma`. -/
def splitComma (s : Bytes) : List Bytes :=
  if s = [] then [] else (s.splitOn 0x2C).map trimSpace

/-- The entries of a list; empty ones are skipped. -/
def entries (s : Bytes) : List Bytes := (splitComma s).filter fun e => e ≠ []

/-- An entry of the shard list. -/
def parseShard (numGroups : UInt32) (s : Bytes) : Except LoadError UInt32 :=
  match parseUint s 10 32 with
  | .error err => .error ⟨.shardInclude, .invalidShard s err⟩
  | .ok idx =>
      if numGroups ≤ UInt32.ofNat idx then
        .error ⟨.shardInclude, .shardOutOfRange idx numGroups⟩
      else .ok (UInt32.ofNat idx)

/-- `hex.DecodeString`: two digits for each byte. -/
def hexDecode : Bytes → Option Bytes
  | [] => some []
  | [_] => none
  | hi :: lo :: s =>
      if digitValue hi < 16 ∧ digitValue lo < 16 then
        (hexDecode s).map fun bs => UInt8.ofNat (16 * digitValue hi + digitValue lo) :: bs
      else none

/-- An entry of a list of ids of `n` bytes, with or without `0x`. -/
def parseID (n : ℕ) (flag : Flag) (s : Bytes) : Except LoadError (List.Vector UInt8 n) :=
  match hexDecode ((s.dropPrefix? (ascii "0x")).getD s) with
  | some b => if hb : b.length = n then .ok ⟨b, hb⟩ else .error ⟨flag, .invalidID s⟩
  | none => .error ⟨flag, .invalidID s⟩

/-- `parseSubtreeList`. -/
def parseSubtreeList (flag : Flag) (s : Bytes) : Except LoadError (List Bytes32) :=
  readAll (parseID 32 flag) (entries s)

/-- `parseGroupList`. -/
def parseGroupList (flag : Flag) (s : Bytes) : Except LoadError (List GroupID) :=
  readAll (parseID 16 flag) (entries s)

/-- `To4` gives an address: it has 4 bytes, or is an IPv4 address in 16 bytes. -/
def isIPv4 (ip : Bytes) : Bool :=
  ip.length = 4 ∨ (ip.length = 16 ∧ ip.take 12 = List.replicate 10 0x00 ++ [0xFF, 0xFF])

/-- An entry of a list of networks; a single address is a network of its own. -/
def parseIPNet (host : Host) (flag : Flag) (s : Bytes) : Except LoadError IPNet :=
  if s.contains 0x2F then
    match host.parseCIDR s with
    | some ipNet => .ok ipNet
    | none => .error ⟨flag, .invalidCIDR s⟩
  else
    match host.parseIP s with
    | some ip => .ok ⟨ip, List.replicate (if isIPv4 ip then 4 else 16) 0xFF⟩
    | none => .error ⟨flag, .invalidIP s⟩

/-- `parseIPNetList`. -/
def parseIPNetList (host : Host) (flag : Flag) (s : Bytes) : Except LoadError (List IPNet) :=
  readAll (parseIPNet host flag) (entries s)

/-- An entry of the list of announcement scopes. -/
def parseAnnounceScope (s : Bytes) : Except LoadError Bytes :=
  match scopeOf .announceScope s with
  | .ok _ => .ok s
  | .error err => .error err

/-! ### The configuration -/

/-- A multicast egress. -/
structure MCastSettings where
  iface : NetInterface
  port : ℤ
  scope : Bytes
  mcPrefix : UInt16
  groupID : UInt16
  deriving DecidableEq

/-- `Config`: what the flags resolve to. -/
structure Configuration where
  iface : NetInterface
  listenPort : ℤ
  shardBits : ℕ
  numGroups : UInt32
  mcPrefix : UInt16
  mcGroupID : UInt16
  shardInclude : List UInt32
  subtreeInclude : List Bytes32
  subtreeExclude : List Bytes32
  egressProto : Proto
  mcEgress : Option MCastSettings
  headerEgressProto : Option Proto
  headerMCEgress : Option MCastSettings
  retryEndpoints : List Bytes
  subtreeGroups : List GroupID
  announceScopes : List Bytes
  senderInclude : List IPNet
  senderExclude : List IPNet
  numWorkers : ℤ
  subtreeDataEnabled : Bool
  deriving DecidableEq

namespace Configuration

/-- A multicast egress: what its flags leave open is as for the ingress. The three flags are
those named in errors. -/
def resolveMCast (host : Host) (scopeFlag groupIDFlag ifaceFlag : Flag) (m : MCastFlags)
    (f : CommandLine) (mcGroupID : UInt16) (iface : NetInterface) :
    Except LoadError (Option MCastSettings) :=
  if m.enabled then do
    let scope := if m.scope = [] then f.scope else m.scope
    let mcPrefix ← scopeOf scopeFlag scope
    let groupID ← groupIDOr mcGroupID groupIDFlag m.groupID
    let port := if m.port = 0 then f.listenPort else m.port
    let egressIface ← interfaceOr iface host ifaceFlag m.iface
    return some ⟨egressIface, port, scope, mcPrefix, groupID⟩
  else .ok none

/-- The protocol of the header egress, which is checked only if there is one. -/
def headerProtoOf (f : CommandLine) : Except LoadError (Option Proto) :=
  if f.headerEgressEnabled then do
    let proto ← protoOf .headerEgressProto f.headerEgressProto
    return some proto
  else .ok none

/-- The number of shard bits. -/
def bitsOf (bits : ℕ) : Except LoadError ℕ :=
  if bits < 1 ∨ 15 < bits then .error ⟨.shardBits, .bitsOutOfRange bits⟩ else .ok bits

/-- `Load`. -/
def load (host : Host) (f : CommandLine) : Except LoadError Configuration := do
  let shardBits ← bitsOf f.shardBits
  let numGroups := UInt32.ofNat (2 ^ shardBits)
  let mcPrefix ← scopeOf .scope f.scope
  let mcGroupID ← groupIDOf .mcGroupID f.mcGroupID
  let egressProto ← protoOf .egressProto f.egressProto
  let iface ← interfaceOf host .iface f.iface
  let mcEgress ← resolveMCast host .mcEgressScope .mcEgressGroupID .mcEgressIface f.mcEgress f
    mcGroupID iface
  let headerEgressProto ← headerProtoOf f
  let headerMCEgress ← resolveMCast host .headerMCEgressScope .headerMCEgressGroupID
    .headerMCEgressIface f.headerMCEgress f mcGroupID iface
  let shardInclude ← readAll (parseShard numGroups) (entries f.shardInclude)
  let subtreeInclude ← parseSubtreeList .subtreeInclude f.subtreeInclude
  let subtreeExclude ← parseSubtreeList .subtreeExclude f.subtreeExclude
  let subtreeGroups ← parseGroupList .subtreeGroups f.subtreeGroups
  let announceScopes ← readAll parseAnnounceScope (entries f.announceScope)
  let senderInclude ← parseIPNetList host .senderInclude f.senderInclude
  let senderExclude ← parseIPNetList host .senderExclude f.senderExclude
  return {
    iface, listenPort := f.listenPort, shardBits, numGroups, mcPrefix, mcGroupID, shardInclude,
    subtreeInclude, subtreeExclude, egressProto, mcEgress, headerEgressProto, headerMCEgress,
    retryEndpoints := entries f.retryEndpoints, subtreeGroups,
    announceScopes := if announceScopes = [] then [ascii "site"] else announceScopes,
    senderInclude, senderExclude,
    numWorkers := if f.workers ≤ 0 then host.numCPU else f.workers,
    subtreeDataEnabled := f.subtreeDataEnabled }

/-! ### What is accepted -/

section Accepted

variable {host : Host} {f : CommandLine} {c : Configuration}

/-- The configuration is what the flags resolve to, field by field. -/
structure Resolves (host : Host) (f : CommandLine) (c : Configuration) : Prop where
  iface : interfaceOf host .iface f.iface = .ok c.iface
  listenPort : c.listenPort = f.listenPort
  shardBits : bitsOf f.shardBits = .ok c.shardBits
  numGroups : c.numGroups = UInt32.ofNat (2 ^ c.shardBits)
  mcPrefix : scopeOf .scope f.scope = .ok c.mcPrefix
  mcGroupID : groupIDOf .mcGroupID f.mcGroupID = .ok c.mcGroupID
  shardInclude : readAll (parseShard c.numGroups) (ShardListener.entries f.shardInclude) =
    .ok c.shardInclude
  subtreeInclude : parseSubtreeList .subtreeInclude f.subtreeInclude = .ok c.subtreeInclude
  subtreeExclude : parseSubtreeList .subtreeExclude f.subtreeExclude = .ok c.subtreeExclude
  egressProto : protoOf .egressProto f.egressProto = .ok c.egressProto
  mcEgress : resolveMCast host .mcEgressScope .mcEgressGroupID .mcEgressIface f.mcEgress f
    c.mcGroupID c.iface = .ok c.mcEgress
  headerEgressProto : headerProtoOf f = .ok c.headerEgressProto
  headerMCEgress : resolveMCast host .headerMCEgressScope .headerMCEgressGroupID
    .headerMCEgressIface f.headerMCEgress f c.mcGroupID c.iface = .ok c.headerMCEgress
  retryEndpoints : c.retryEndpoints = ShardListener.entries f.retryEndpoints
  subtreeGroups : parseGroupList .subtreeGroups f.subtreeGroups = .ok c.subtreeGroups
  announceScopes : ∃ listed,
    readAll parseAnnounceScope (ShardListener.entries f.announceScope) = .ok listed ∧
      c.announceScopes = if listed = [] then [ascii "site"] else listed
  senderInclude : parseIPNetList host .senderInclude f.senderInclude = .ok c.senderInclude
  senderExclude : parseIPNetList host .senderExclude f.senderExclude = .ok c.senderExclude
  numWorkers : c.numWorkers = if f.workers ≤ 0 then host.numCPU else f.workers
  subtreeDataEnabled : c.subtreeDataEnabled = f.subtreeDataEnabled

/-- **What `Load` accepts**, and as what. -/
theorem load_eq_ok : load host f = .ok c ↔ Resolves host f c := by
  constructor
  · intro h
    simp only [load, bind_eq_ok] at h
    obtain ⟨bits, hbits, mcPrefix, hscope, gid, hgid, proto, hproto, iface, hiface, mc, hmc, hdr,
      hhdr, hdrMC, hhdrMC, shards, hshards, incl, hincl, excl, hexcl, groups, hgroups, ann, hann,
      sincl, hsincl, sexcl, hsexcl, heq⟩ := h
    obtain rfl := Except.ok.inj heq
    exact ⟨hiface, rfl, hbits, rfl, hscope, hgid, hshards, hincl, hexcl, hproto, hmc, hhdr, hhdrMC,
      rfl, hgroups, ⟨ann, hann, rfl⟩, hsincl, hsexcl, rfl, rfl⟩
  · intro h
    obtain ⟨listed, hann, hlisted⟩ := h.announceScopes
    have hnum := h.numGroups
    have hshards := h.shardInclude
    rw [hnum] at hshards
    simp only [load, bind_eq_ok]
    refine ⟨_, h.shardBits, _, h.mcPrefix, _, h.mcGroupID, _, h.egressProto, _, h.iface, _,
      h.mcEgress, _, h.headerEgressProto, _, h.headerMCEgress, _, hshards, _, h.subtreeInclude, _,
      h.subtreeExclude, _, h.subtreeGroups, listed, hann, _, h.senderInclude, _, h.senderExclude,
      ?_⟩
    rw [← h.listenPort, ← hnum, ← h.retryEndpoints, ← hlisted, ← h.numWorkers,
      ← h.subtreeDataEnabled]
    rfl

/-- A number of shard bits is accepted between 1 and 15. -/
theorem bitsOf_eq_ok {bits n : ℕ} : bitsOf bits = .ok n ↔ bits = n ∧ 1 ≤ bits ∧ bits ≤ 15 := by
  rw [bitsOf]
  split_ifs with h
  · exact iff_of_false (fun h => nomatch h) (by omega)
  · rw [Except.ok.injEq]
    exact (and_iff_left (by omega)).symm

/-- A scope is accepted if it is in the table. -/
theorem scopeOf_eq_ok {flag : Flag} {name : Bytes} {mcPrefix : UInt16} :
    scopeOf flag name = .ok mcPrefix ↔ scopes.lookup name = some mcPrefix := by
  rw [scopeOf]
  cases scopes.lookup name with
  | none => exact iff_of_false (fun h => nomatch h) (fun h => nomatch h)
  | some p => rw [Except.ok.injEq, Option.some.injEq]

/-- A protocol that is accepted is one of the two. -/
theorem ne_other_of_protoOf {flag : Flag} {s : Bytes} {p : Proto} (h : protoOf flag s = .ok p) :
    p ≠ .other := by
  rw [protoOf] at h
  split_ifs at h
  · obtain rfl := Except.ok.inj h
    decide
  · obtain rfl := Except.ok.inj h
    decide

/-- **An entry of the shard list** is a decimal number below the number of groups. -/
theorem parseShard_eq_ok {numGroups idx : UInt32} {s : Bytes} :
    parseShard numGroups s = .ok idx ↔
      Numeral 10 s ∧ value 10 s = idx.toNat ∧ idx < numGroups := by
  have hidx : idx.toNat < 2 ^ 32 := idx.toNat_lt
  rw [parseShard]
  cases hparse : parseUint s 10 32 with
  | error err =>
      refine iff_of_false (fun h => nomatch h) ?_
      rintro ⟨hnum, hval, -⟩
      have hok : parseUint s 10 32 = .ok idx.toNat := parseUint_eq_ok.mpr ⟨hnum, hval, hidx⟩
      rw [hparse] at hok
      cases hok
  | ok n =>
      obtain ⟨hnum, rfl, hlt⟩ := parseUint_eq_ok.mp hparse
      have hof : UInt32.ofNat (value 10 s) = idx ↔ value 10 s = idx.toNat := by
        constructor
        · rintro rfl
          exact (UInt32.toNat_ofNat_of_lt' hlt).symm
        · intro hval
          rw [hval, UInt32.ofNat_toNat]
      dsimp only
      rw [and_iff_right hnum, ← hof]
      split_ifs with hle
      · refine iff_of_false (fun h => nomatch h) ?_
        rintro ⟨rfl, hlt'⟩
        exact absurd hlt' (UInt32.not_lt.mpr hle)
      · rw [Except.ok.injEq]
        refine (and_iff_left_of_imp ?_).symm
        rintro rfl
        exact UInt32.not_le.mp hle

/-- The scope of a multicast egress is a known one. -/
theorem scope_of_resolveMCast {scopeFlag groupIDFlag ifaceFlag : Flag} {m : MCastFlags}
    {mcGroupID : UInt16} {iface : NetInterface} {r : Option MCastSettings}
    (h : resolveMCast host scopeFlag groupIDFlag ifaceFlag m f mcGroupID iface = .ok r) :
    ∀ e ∈ r, scopes.lookup e.scope = some e.mcPrefix := by
  rw [resolveMCast] at h
  by_cases henabled : m.enabled = true
  · rw [if_pos henabled] at h
    simp only [bind_eq_ok] at h
    obtain ⟨mcPrefix, hscope, groupID, -, egressIface, -, heq⟩ := h
    obtain rfl := Except.ok.inj heq
    intro e he
    obtain rfl := Option.some.inj he
    exact scopeOf_eq_ok.mp hscope
  · rw [if_neg henabled] at h
    obtain rfl := Except.ok.inj h
    exact fun e he => absurd he (Option.not_mem_none e)

/-- What holds of every accepted configuration. -/
structure WellFormed (c : Configuration) : Prop where
  bits : 1 ≤ c.shardBits ∧ c.shardBits ≤ 15
  numGroups : c.numGroups.toNat = 2 ^ c.shardBits
  shards : ∀ i ∈ c.shardInclude, i < c.numGroups
  scope : ∃ name, scopes.lookup name = some c.mcPrefix
  egressProto : c.egressProto ≠ .other
  headerEgressProto : ∀ p ∈ c.headerEgressProto, p ≠ .other
  mcEgress : ∀ e ∈ c.mcEgress, scopes.lookup e.scope = some e.mcPrefix
  headerMCEgress : ∀ e ∈ c.headerMCEgress, scopes.lookup e.scope = some e.mcPrefix
  announceScopes : c.announceScopes ≠ [] ∧ ∀ s ∈ c.announceScopes, (scopes.lookup s).isSome

/-- **The shards of an accepted list**: one for each entry, with its decimal value. -/
theorem Resolves.shards (h : Resolves host f c) :
    List.Forall₂ (fun s idx => Numeral 10 s ∧ value 10 s = idx.toNat ∧ idx < c.numGroups)
      (ShardListener.entries f.shardInclude) c.shardInclude :=
  (readAll_eq_ok.mp h.shardInclude).imp fun _ _ => parseShard_eq_ok.mp

/-- There is a scope to listen on for announcements, and all of them are in the table. -/
theorem Resolves.announced (h : Resolves host f c) :
    c.announceScopes ≠ [] ∧ ∀ s ∈ c.announceScopes, (scopes.lookup s).isSome := by
  obtain ⟨listed, hread, heq⟩ := h.announceScopes
  rw [heq]
  split_ifs with hnil
  · exact ⟨List.cons_ne_nil _ _, by decide⟩
  · refine ⟨hnil, fun s hs => ?_⟩
    obtain ⟨s', -, hparse⟩ := exists_of_mem_readAll hread hs
    rw [parseAnnounceScope] at hparse
    cases hscope : scopeOf .announceScope s' with
    | error err =>
        rw [hscope] at hparse
        cases hparse
    | ok mcPrefix =>
        rw [hscope] at hparse
        obtain rfl := Except.ok.inj hparse
        rw [scopeOf_eq_ok.mp hscope]
        rfl

/-- **What is accepted is well formed.** -/
theorem Resolves.wellFormed (h : Resolves host f c) : WellFormed c where
  bits := by
    obtain ⟨hbits, hrange⟩ := bitsOf_eq_ok.mp h.shardBits
    rwa [hbits] at hrange
  numGroups := by
    obtain ⟨hbits, -, hle⟩ := bitsOf_eq_ok.mp h.shardBits
    rw [hbits] at hle
    have hlt : 2 ^ c.shardBits < 2 ^ 32 := Nat.pow_lt_pow_right (by decide) (by omega)
    rw [h.numGroups, UInt32.toNat_ofNat_of_lt' hlt]
  shards := by
    intro i hi
    obtain ⟨s, -, hs⟩ := exists_of_mem_readAll h.shardInclude hi
    exact (parseShard_eq_ok.mp hs).2.2
  scope := ⟨f.scope, scopeOf_eq_ok.mp h.mcPrefix⟩
  egressProto := ne_other_of_protoOf h.egressProto
  headerEgressProto := by
    have hproto := h.headerEgressProto
    rw [headerProtoOf] at hproto
    split_ifs at hproto
    · obtain ⟨p, hp, heq⟩ := bind_eq_ok.mp hproto
      intro p' hp'
      rw [← Except.ok.inj heq] at hp'
      obtain rfl := Option.some.inj hp'
      exact ne_other_of_protoOf hp
    · rw [← Except.ok.inj hproto]
      exact fun p hp => absurd hp (Option.not_mem_none p)
  mcEgress := scope_of_resolveMCast h.mcEgress
  headerMCEgress := scope_of_resolveMCast h.headerMCEgress
  announceScopes := h.announced

/-- **The defaults are accepted** wherever there is an `eth0`. -/
theorem load_default (host : Host) {iface : NetInterface}
    (hiface : host.interfaceByName (ascii "eth0") = some iface) :
    ∃ c, load host (.default host.numCPU) = .ok c ∧ c.iface = iface := by
  have hdflt : interfaceOf host .iface (ascii "eth0") = .ok iface := by rw [interfaceOf, hiface]
  have hscope : scopeOf .scope (ascii "site") = .ok 0xFF05 := by decide
  have hgid : groupIDOf .mcGroupID (ascii "0x000B") = .ok 0x000B := by decide
  have hproto : protoOf .egressProto (ascii "udp") = .ok .udp := by decide
  have hann : readAll parseAnnounceScope (ShardListener.entries (ascii "site")) =
      .ok [ascii "site"] := by decide
  refine ⟨⟨iface, 9001, 2, 4, 0xFF05, 0x000B, [], [], [], .udp, none, none, none, [], [],
    [ascii "site"], [], [], host.numCPU, false⟩, ?_, rfl⟩
  exact load_eq_ok.mpr
    { iface := hdflt
      listenPort := rfl
      shardBits := rfl
      numGroups := rfl
      mcPrefix := hscope
      mcGroupID := hgid
      shardInclude := rfl
      subtreeInclude := rfl
      subtreeExclude := rfl
      egressProto := hproto
      mcEgress := rfl
      headerEgressProto := rfl
      headerMCEgress := rfl
      retryEndpoints := rfl
      subtreeGroups := rfl
      announceScopes := ⟨[ascii "site"], hann, (if_neg (List.cons_ne_nil _ _)).symm⟩
      senderInclude := rfl
      senderExclude := rfl
      numWorkers := (ite_self _).symm
      subtreeDataEnabled := rfl }

end Accepted

end Configuration

end ShardListener
