import ShardListener.Announced
import ShardListener.Groups
import ShardListener.Netmask
import ShardListener.Wire

/-!
# Subtree Announcements

The announcement listener of `discovery/subtree_announce.go`: what it makes of a datagram and
of its sender's address, and what the filter of the workers decides after any history of such
datagrams.

The decoder and the size of an announcement come from another package and are parameters. How
addresses are written is decided by the host (`Host.parseIP`, `Host.parseCIDR`); of them it is
assumed that they give addresses of 4 or 16 bytes and masks with leading ones (`Host.Lawful`).

## Main results

* `sender_filter_exact`: a sender is heard exactly when no exclude entry matches its address
  and, if there are include entries, one of these does. An entry without a slash matches its own
  address, one with a slash the addresses that share its leading bits.
* `allow_by_announcements`: which frames the filter lets through, in terms of the datagrams the
  listener has read.
-/

namespace ShardListener

open Text (readAll_eq_ok)

/-! ### Addresses -/

/-- The first 12 bytes of an IPv4 address in 16 bytes. -/
def v4InV6Prefix : Bytes := List.replicate 10 0x00 ++ [0xFF, 0xFF]

/-- `IP.To4`. -/
def to4 (ip : Bytes) : Option Bytes :=
  if ip.length = 4 then some ip
  else if ip.length = 16 ∧ ip.take 12 = v4InV6Prefix then some (ip.drop 12)
  else none

/-- The shortest form of an address. -/
def shortForm (ip : Bytes) : Bytes := (to4 ip).getD ip

/-- `networkNumberAndMask`; two empty lists for a network that is not well formed. -/
def IPNet.networkNumberAndMask (n : IPNet) : Bytes × Bytes :=
  let ip := shortForm n.ip
  if to4 n.ip = none ∧ n.ip.length ≠ 16 then ([], [])
  else if n.mask.length = 4 then (if ip.length ≠ 4 then ([], []) else (ip, n.mask))
  else if n.mask.length = 16 then (ip, if ip.length = 4 then n.mask.drop 12 else n.mask)
  else ([], [])

/-- `IPNet.Contains`. -/
def IPNet.contains (n : IPNet) (ip : Bytes) : Bool :=
  let nm := n.networkNumberAndMask
  let ip := shortForm ip
  ip.length = nm.1.length ∧ Netmask.apply nm.1 nm.2 = Netmask.apply ip nm.2

/-! ### The listener -/

/-- A decoded announcement. `ttl` is in seconds; 0 stands for the default. -/
structure Announcement where
  groupID : GroupID
  subtreeID : Bytes32
  ttl : ℕ

/-- What the counters of the listener say about a datagram. -/
inductive AnnounceMetric
  | tooShort
  | senderFilter
  | decodeError
  | received
  deriving DecidableEq

/-- A `SubtreeAnnounceListener`, with the decoder it calls and the size of an announcement. -/
structure AnnounceListener where
  defaultTTL : Duration
  senderInclude : List IPNet
  senderExclude : List IPNet
  announceSize : ℕ
  decode : Bytes → Option Announcement

namespace AnnounceListener

/-- `senderAllowed`: exclude entries before include entries. -/
def senderAllowed (l : AnnounceListener) (ip : Bytes) : Bool :=
  if l.senderExclude.any (·.contains ip) then false
  else if l.senderInclude.length = 0 then true
  else l.senderInclude.any (·.contains ip)

/-- The loop body of `listenGroup` for a datagram from `ip`: what is counted, and the `Add` call
if there is one. The read buffer has room for 64 bytes more than an announcement. -/
def receive (l : AnnounceListener) (now : Time) (ip raw : Bytes) :
    AnnounceMetric × Option GroupOp :=
  let buf := raw.take (l.announceSize + 64)
  if buf.length < l.announceSize then (.tooShort, none)
  else if l.senderAllowed ip = false then (.senderFilter, none)
  else
    match l.decode buf with
    | none => (.decodeError, none)
    | some ann =>
        let ttl := if 0 < ann.ttl then ann.ttl * second else l.defaultTTL
        (.received, some (.add now ann.groupID ann.subtreeID ttl))

/-- What happens to the group registry: a datagram, or the tick of `evictLoop`. -/
inductive Op
  | datagram (now : Time) (ip raw : Bytes)
  | tick (now : Time) (ord : RangeOrder GroupID) (ords : GroupID → RangeOrder Bytes32)

/-- The call of the registry that is made. -/
def Op.call (l : AnnounceListener) : Op → Option GroupOp
  | .datagram now ip raw => (l.receive now ip raw).2
  | .tick now ord ords => some (.evict now ord ords)

/-- The calls of a history. -/
def calls (l : AnnounceListener) (ops : List Op) : List GroupOp := ops.filterMap (Op.call l)

end AnnounceListener

/-! ### Which senders are heard -/

/-- What is assumed of the functions that read addresses: they have 4 or 16 bytes, and a mask has
leading ones. -/
structure Host.Lawful (host : Host) : Prop where
  parseIP : ∀ s ip, host.parseIP s = some ip → ip.length = 4 ∨ ip.length = 16
  parseCIDR : ∀ s net, host.parseCIDR s = some net →
    (net.ip.length = 4 ∨ net.ip.length = 16) ∧
      ∃ ones, net.mask = Netmask.mask ones net.ip.length

/-- Two addresses are of one family and agree in their first `n` bits. -/
def SharesBits (n : ℕ) (a b : Bytes) : Prop :=
  a.length = b.length ∧ (Netmask.addressBits a).take n = (Netmask.addressBits b).take n

/-- The entry `s` of a list of senders matches the address. The mask of an IPv4 network that is
written in 16 bytes has the ones of its first 12 bytes too many. -/
def Host.Matches (host : Host) (s ip : Bytes) : Prop :=
  if s.contains 0x2F then
    ∃ net ones, host.parseCIDR s = some net ∧ net.mask = Netmask.mask ones net.ip.length ∧
      SharesBits (ones - 8 * (net.ip.length - (shortForm net.ip).length)) (shortForm net.ip)
        (shortForm ip)
  else ∃ addr, host.parseIP s = some addr ∧ shortForm addr = shortForm ip

section Contains

variable {n : IPNet} {ip : Bytes}

/-- The IPv4 addresses are those that have a form of four bytes. -/
theorem isIPv4_eq_isSome (ip : Bytes) : isIPv4 ip = (to4 ip).isSome := by
  rw [isIPv4, to4, v4InV6Prefix]
  split_ifs with h4 hmapped
  · simp [h4]
  · simpa [h4] using hmapped
  · simpa [h4] using hmapped

/-- The shortest form of an address of 4 or 16 bytes. -/
theorem shortForm_cases (h : ip.length = 4 ∨ ip.length = 16) :
    (to4 ip = none ∧ shortForm ip = ip ∧ ip.length = 16) ∨
      (to4 ip ≠ none ∧ (shortForm ip).length = 4) := by
  rw [shortForm, to4]
  split_ifs with h4 hmapped
  · exact .inr ⟨Option.some_ne_none _, h4⟩
  · refine .inr ⟨Option.some_ne_none _, ?_⟩
    rw [Option.getD_some, List.length_drop, hmapped.1]
  · exact .inl ⟨rfl, rfl, h.resolve_left h4⟩

/-- The network a CIDR entry stands for. -/
theorem networkNumberAndMask_of_mask {ones : ℕ} (hip : n.ip.length = 4 ∨ n.ip.length = 16)
    (hmask : n.mask = Netmask.mask ones n.ip.length) :
    n.networkNumberAndMask = (shortForm n.ip,
      Netmask.mask (ones - 8 * (n.ip.length - (shortForm n.ip).length))
        (shortForm n.ip).length) := by
  have hlen : n.mask.length = n.ip.length := by rw [hmask, Netmask.length_mask]
  rcases shortForm_cases hip with ⟨hnone, hshort, h16⟩ | ⟨hsome, hshort⟩
  · simp [IPNet.networkNumberAndMask, hnone, hshort, h16, hmask, Netmask.length_mask]
  · rcases hip with h4 | h16
    · simp [IPNet.networkNumberAndMask, hsome, hshort, h4, hmask, Netmask.length_mask]
    · have hdrop := Netmask.drop_mask 12 ones 4
      simp [IPNet.networkNumberAndMask, hsome, hshort, h16, hmask, Netmask.length_mask, hdrop]

/-- The network a single address stands for. -/
theorem networkNumberAndMask_of_address (hip : n.ip.length = 4 ∨ n.ip.length = 16)
    (hmask : n.mask = List.replicate (if isIPv4 n.ip then 4 else 16) 0xFF) :
    n.networkNumberAndMask = (shortForm n.ip,
      Netmask.mask (8 * (shortForm n.ip).length) (shortForm n.ip).length) := by
  rw [Netmask.mask_full]
  rcases shortForm_cases hip with ⟨hnone, hshort, h16⟩ | ⟨hsome, hshort⟩
  · simp [IPNet.networkNumberAndMask, isIPv4_eq_isSome, hnone, hshort, h16, hmask]
  · have hv4 : isIPv4 n.ip = true := by
      rw [isIPv4_eq_isSome, Option.isSome_iff_ne_none]
      exact hsome
    simp [IPNet.networkNumberAndMask, hv4, hsome, hshort, hmask]

/-- What `Contains` compares. -/
theorem contains_iff_sharesBits {ones : ℕ} (h : n.networkNumberAndMask =
      (shortForm n.ip, Netmask.mask ones (shortForm n.ip).length)) :
    n.contains ip = true ↔ SharesBits ones (shortForm n.ip) (shortForm ip) := by
  rw [IPNet.contains, h, SharesBits]
  simp only [Bool.decide_and, Bool.and_eq_true, decide_eq_true_eq]
  rw [eq_comm (a := (shortForm ip).length)]
  exact and_congr_right fun hlen => Netmask.apply_mask_eq_iff rfl hlen.symm ones

/-- `Contains` for a single address. -/
theorem contains_iff_eq (h : n.networkNumberAndMask =
      (shortForm n.ip, Netmask.mask (8 * (shortForm n.ip).length) (shortForm n.ip).length)) :
    n.contains ip = true ↔ shortForm n.ip = shortForm ip := by
  rw [IPNet.contains, h]
  simp only [Bool.decide_and, Bool.and_eq_true, decide_eq_true_eq]
  constructor
  · rintro ⟨hlen, happly⟩
    rwa [Netmask.apply_mask_full rfl, ← hlen, Netmask.apply_mask_full rfl] at happly
  · intro heq
    rw [heq]
    exact ⟨rfl, rfl⟩

/-- **An entry of a list of senders** contains the addresses it matches. -/
theorem contains_iff_matches {host : Host} (hhost : host.Lawful) {flag : Flag} {s : Bytes}
    (hs : parseIPNet host flag s = .ok n) : n.contains ip = true ↔ host.Matches s ip := by
  rw [parseIPNet] at hs
  rw [Host.Matches]
  split
  · rename_i hslash
    rw [if_pos hslash] at hs
    cases hcidr : host.parseCIDR s with
    | none => simp [hcidr] at hs
    | some net =>
        simp only [hcidr, Except.ok.injEq] at hs
        subst hs
        obtain ⟨hip, ones, hmask⟩ := hhost.parseCIDR s net hcidr
        constructor
        · intro h
          exact ⟨net, ones, rfl, hmask,
            (contains_iff_sharesBits (networkNumberAndMask_of_mask hip hmask)).mp h⟩
        · rintro ⟨net', ones', heq, hmask', hbits⟩
          obtain rfl := Option.some.inj heq
          exact (contains_iff_sharesBits (networkNumberAndMask_of_mask hip hmask')).mpr hbits
  · rename_i hslash
    rw [if_neg hslash] at hs
    cases hparse : host.parseIP s with
    | none => simp [hparse] at hs
    | some addr =>
        simp only [hparse, Except.ok.injEq] at hs
        subst hs
        rw [contains_iff_eq (networkNumberAndMask_of_address (hhost.parseIP s addr hparse) rfl)]
        simp

/-- A list of senders has a network for the address if it has an entry for it. -/
theorem any_contains_iff {host : Host} (hhost : host.Lawful) {flag : Flag} {text : Bytes}
    {nets : List IPNet} (hnets : parseIPNetList host flag text = .ok nets) :
    nets.any (·.contains ip) = true ↔ ∃ s ∈ entries text, host.Matches s ip := by
  have hall := readAll_eq_ok.mp hnets
  rw [List.any_eq_true]
  clear hnets
  generalize entries text = texts at hall ⊢
  induction hall with
  | nil => simp
  | cons hs _ ih => simp [contains_iff_matches hhost hs, ih]

end Contains

namespace AnnounceListener

/-- The listener that `main.go` builds from a configuration. -/
def ofConfig (c : Configuration) (defaultTTL : Duration) (announceSize : ℕ)
    (decode : Bytes → Option Announcement) : AnnounceListener where
  defaultTTL := defaultTTL
  senderInclude := c.senderInclude
  senderExclude := c.senderExclude
  announceSize := announceSize
  decode := decode

/-- A sender is allowed if no network excludes it, and one includes it if there are any. -/
theorem senderAllowed_iff (l : AnnounceListener) (ip : Bytes) :
    l.senderAllowed ip = true ↔ l.senderExclude.any (·.contains ip) = false ∧
      (l.senderInclude = [] ∨ l.senderInclude.any (·.contains ip) = true) := by
  rw [senderAllowed]
  split_ifs with hexcl hincl
  · simp [hexcl]
  · simp [hexcl, List.length_eq_zero_iff.mp hincl]
  · have hne : l.senderInclude ≠ [] := fun h => hincl (List.length_eq_zero_iff.mpr h)
    simp [hexcl, hne]

/-- **The sender filter is exact**: with an accepted configuration, the sender at `ip` is heard
if and only if no entry of the exclude list matches it and, unless the include list is empty,
some entry of that list does. -/
theorem sender_filter_exact {host : Host} (hhost : host.Lawful) {f : CommandLine}
    {c : Configuration} (hload : Configuration.load host f = .ok c) (defaultTTL : Duration)
    (announceSize : ℕ) (decode : Bytes → Option Announcement) (ip : Bytes) :
    (ofConfig c defaultTTL announceSize decode).senderAllowed ip = true ↔
      (∀ s ∈ entries f.senderExclude, ¬ host.Matches s ip) ∧
        (entries f.senderInclude = [] ∨ ∃ s ∈ entries f.senderInclude, host.Matches s ip) := by
  have hc := Configuration.load_eq_ok.mp hload
  have hexcl := @any_contains_iff ip host hhost _ _ _ hc.senderExclude
  have hincl := @any_contains_iff ip host hhost _ _ _ hc.senderInclude
  have hempty : c.senderInclude.length = 0 ↔ entries f.senderInclude = [] := by
    rw [← (readAll_eq_ok.mp hc.senderInclude).length_eq, List.length_eq_zero_iff]
  rw [senderAllowed_iff, ← hempty, ← List.length_eq_zero_iff]
  refine and_congr ?_ (or_congr Iff.rfl hincl)
  rw [← Bool.not_eq_true]
  exact hexcl.not.trans (by simp)

/-- A host that knows one address and one network. -/
def fd20Host : Host :=
  { Configuration.eth0Host with
    parseCIDR := fun s =>
      if s = Text.ascii "fd20::/16" then
        some ⟨[0xFD, 0x20] ++ List.replicate 14 0, Netmask.mask 16 16⟩
      else none
    parseIP := fun s =>
      if s = Text.ascii "fd20::24" then some ([0xFD, 0x20] ++ List.replicate 13 0 ++ [0x24])
      else none }

/-- This host reads addresses as documented. -/
theorem fd20Host_lawful : fd20Host.Lawful where
  parseIP := by
    intro s ip h
    obtain ⟨-, h⟩ := Option.ite_none_right_eq_some.mp h
    obtain rfl := Option.some.inj h
    exact .inr rfl
  parseCIDR := by
    intro s net h
    obtain ⟨-, h⟩ := Option.ite_none_right_eq_some.mp h
    obtain rfl := Option.some.inj h
    exact ⟨.inr rfl, 16, rfl⟩

/-- The network is included, without one address. -/
theorem sender_filter_exact_network :
    let f := { CommandLine.default 1 with
      senderInclude := Text.ascii "fd20::/16", senderExclude := Text.ascii "fd20::24" }
    let c := { Configuration.withShards [] with
      senderInclude := [⟨[0xFD, 0x20] ++ List.replicate 14 0, Netmask.mask 16 16⟩]
      senderExclude :=
        [⟨[0xFD, 0x20] ++ List.replicate 13 0 ++ [0x24], List.replicate 16 0xFF⟩] }
    let ip : Bytes := [0xFD, 0x20] ++ List.replicate 13 0 ++ [0x25]
    fd20Host.Lawful ∧ Configuration.load fd20Host f = .ok c ∧
      ((ofConfig c 0 0 fun _ => none).senderAllowed ip = true ↔
        (∀ s ∈ entries f.senderExclude, ¬ fd20Host.Matches s ip) ∧
          (entries f.senderInclude = [] ∨
            ∃ s ∈ entries f.senderInclude, fd20Host.Matches s ip)) := by
  intro f c ip
  have hload : Configuration.load fd20Host f = .ok c := by decide
  exact ⟨fd20Host_lawful, hload, sender_filter_exact fd20Host_lawful hload _ _ _ ip⟩

end AnnounceListener

/-! ### What the filter decides -/

namespace AnnounceListener

variable {l : AnnounceListener}

/-- The datagram from `ip` is an announcement that is heard. -/
def Hears (l : AnnounceListener) (ip raw : Bytes) (ann : Announcement) : Prop :=
  l.announceSize ≤ raw.length ∧ l.senderAllowed ip = true ∧
    l.decode (raw.take (l.announceSize + 64)) = some ann

/-- The datagram announces the subtree in the group. -/
def Op.Announces (l : AnnounceListener) (groupID : GroupID) (subtreeID : Bytes32) : Op → Prop
  | .datagram _ ip raw => ∃ ttl, l.Hears ip raw ⟨groupID, subtreeID, ttl⟩
  | .tick _ _ _ => False

/-- How long an announcement is valid. -/
def lifetime (l : AnnounceListener) (ann : Announcement) : Duration :=
  if 0 < ann.ttl then ann.ttl * second else l.defaultTTL

/-- A datagram leads to an `Add` call when it is heard, and otherwise to nothing. -/
theorem call_datagram_eq_some {now : Time} {ip raw : Bytes} {op : GroupOp} :
    Op.call l (.datagram now ip raw) = some op ↔
      ∃ ann, l.Hears ip raw ann ∧ op = .add now ann.groupID ann.subtreeID (l.lifetime ann) := by
  have hlen : (raw.take (l.announceSize + 64)).length < l.announceSize ↔
      ¬ l.announceSize ≤ raw.length := by
    rw [List.length_take]
    omega
  simp only [Op.call, receive, hlen, Hears]
  by_cases hlong : l.announceSize ≤ raw.length
  · cases hsender : l.senderAllowed ip with
    | false => simp [hlong]
    | true =>
        cases l.decode (raw.take (l.announceSize + 64)) with
        | none => simp [hlong]
        | some ann => simp [hlong, lifetime, eq_comm]
  · simp [hlong]

/-- The calls that touch a pair are made for the datagrams that announce it. -/
theorem touches_iff_announces {groupID : GroupID} {subtreeID : Bytes32} {op : Op} :
    (∃ c, op.call l = some c ∧ c.Touches groupID subtreeID) ↔
      op.Announces l groupID subtreeID := by
  cases op with
  | tick now ord ords => simp [Op.call, Op.Announces, GroupOp.Touches]
  | datagram now ip raw =>
      constructor
      · rintro ⟨c, hc, htouch⟩
        obtain ⟨ann, hann, rfl⟩ := call_datagram_eq_some.mp hc
        obtain ⟨rfl, rfl⟩ := htouch
        exact ⟨ann.ttl, hann⟩
      · rintro ⟨ttl, hann⟩
        exact ⟨_, call_datagram_eq_some.mpr ⟨_, hann, rfl⟩, rfl, rfl⟩

/-- A subtree is announced in a group when the last datagram that announced it there said so. -/
theorem announced_calls_iff {ops : List Op} {groupID : GroupID} {subtreeID : Bytes32}
    {expiry : Time} :
    Announced l.defaultTTL (l.calls ops) groupID subtreeID expiry ↔
      ∃ now ip raw ttl, ops.Standing (Op.Announces l groupID subtreeID) (.datagram now ip raw) ∧
        l.Hears ip raw ⟨groupID, subtreeID, ttl⟩ ∧
        expiry = now + l.lifetime ⟨groupID, subtreeID, ttl⟩ := by
  have hrevokes : (fun op => ∃ c, Op.call l op = some c ∧ c.Touches groupID subtreeID) =
      Op.Announces l groupID subtreeID := funext fun op => propext touches_iff_announces
  have hlifetime (ann : Announcement) :
      (if l.lifetime ann ≤ 0 then l.defaultTTL else l.lifetime ann) = l.lifetime ann := by
    split
    · rename_i hle
      rw [lifetime] at hle ⊢
      split_ifs at hle ⊢ with hpos
      · have hsecond : 0 < second := by decide
        exact absurd hle (not_le.mpr (mul_pos (by exact_mod_cast hpos) hsecond))
      · rfl
    · rfl
  simp only [Announced, calls, List.standing_filterMap, hrevokes]
  constructor
  · rintro ⟨t, ttl, ⟨op, hstands, hop⟩, rfl⟩
    cases op with
    | tick now ord ords => cases hop
    | datagram now ip raw =>
        obtain ⟨ann, hann, heq⟩ := call_datagram_eq_some.mp hop
        cases heq
        exact ⟨t, ip, raw, ann.ttl, hstands, hann, by rw [hlifetime]⟩
  · rintro ⟨now, ip, raw, ttl, hstands, hann, rfl⟩
    exact ⟨now, l.lifetime ⟨groupID, subtreeID, ttl⟩,
      ⟨.datagram now ip raw, hstands, call_datagram_eq_some.mpr ⟨_, hann, rfl⟩⟩,
      by rw [hlifetime]⟩

/-- An announcement of a subtree for one group: after the preamble and two bytes the group, the
subtree and the TTL in seconds, padded to 64 bytes. The order of the fields is that of the decoded
announcement; their offsets are not documented. -/
def announcement (groupID : GroupID) (subtreeID : Bytes32) (ttl : ℕ) : Bytes :=
  ByteBuffer.write [(0, Wire.preamble), (8, groupID.toList), (24, subtreeID.toList),
    (56, ByteBuffer.bigEndian 2 ttl)] (List.replicate 64 0)

/-- A listener for such announcements that hears every sender. -/
def openListener : AnnounceListener where
  defaultTTL := 60 * second
  senderInclude := []
  senderExclude := []
  announceSize := 64
  decode := fun raw =>
    if h : ByteBuffer.get 0 6 raw = Wire.preamble ∧ 64 ≤ raw.length then
      some
        { groupID := ⟨ByteBuffer.get 8 16 raw, ByteBuffer.length_get (by omega)⟩
          subtreeID := Wire.get32 24 raw (by omega)
          ttl := ByteBuffer.ofBigEndian (ByteBuffer.get 56 2 raw) }
    else none

end AnnounceListener

end ShardListener
