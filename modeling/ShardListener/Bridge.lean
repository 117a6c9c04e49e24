import ShardListener.Process
import ShardListener.Streams

/-!
# From Group to Group

A listener joins the groups of some shards and may send what it receives on to groups of another
address space. The shards are selected twice, from the same list: `buildGroups` decides what the
sockets receive, and the filter decides what passes. And the addresses are made twice: on ingress
by the shard engine, and on egress by the multicast sender, which keeps one address in memory and
overwrites the last two bytes of it for every datagram.

## Main results

* `MCastTemplate.outputs_eq`: a sender that overwrites its address sends what one would send that
  makes every address anew.
* `Worker.multicast_template`: so over every run of a worker.
* `Process.selected_shards`: filter and sockets select the same shards, and a transaction leaves
  for the group of the shard it came in for.
-/

namespace ShardListener

open ByteBuffer

/-! ### The address of a multicast sender -/

/-- A call of a multicast sender, with the result of its `Sendto`. -/
inductive MCastCall
  | send (raw : Bytes) (f : Frame) (groupIdx : UInt32) (ok : Bool)
  | sendToGroup (buf : Bytes) (groupIdx : UInt16) (ok : Bool)

/-- A call of a sender that makes every address anew. -/
def MCastSender.answer (s : MCastSender) : MCastCall → SentTo
  | .send raw f groupIdx ok => s.send raw f groupIdx ok
  | .sendToGroup buf groupIdx ok => s.sendToGroup buf groupIdx.toUInt32 ok

/-- A multicast sender as it is in memory, with the 16 bytes of the address. -/
structure MCastTemplate where
  addrTemplate : Bytes
  egressPort : ℤ
  stripHeader : Bool

namespace MCastTemplate

/-- `NewMCast`. -/
def new (s : MCastSettings) (stripHeader : Bool) : MCastTemplate where
  addrTemplate := write [(0, bigEndian 2 s.mcPrefix.toNat), (12, bigEndian 2 s.groupID.toNat)]
    (List.replicate 16 0)
  egressPort := s.port
  stripHeader := stripHeader

/-- Overwrite the bytes 14 and 15 and send to that address. -/
def sendTo (t : MCastTemplate) (buf : Bytes) (hi lo : UInt8) (ok : Bool) :
    MCastTemplate × List SentTo :=
  let addrTemplate := write [(14, [hi]), (15, [lo])] t.addrTemplate
  ({ t with addrTemplate := addrTemplate }, [⟨⟨buf, ok⟩, addrTemplate, t.egressPort⟩])

/-- `Send` and `SendToGroup`. -/
def step (t : MCastTemplate) : MCastCall → MCastTemplate × List SentTo
  | .send raw f groupIdx ok =>
      t.sendTo (if t.stripHeader then f.payload else raw) (groupIdx >>> 8).toUInt8
        groupIdx.toUInt8 ok
  | .sendToGroup buf groupIdx ok => t.sendTo buf (groupIdx >>> 8).toUInt8 groupIdx.toUInt8 ok

/-- The sender has the fixed bytes of `s` in its address, whatever the other two are. -/
structure Fixes (t : MCastTemplate) (s : MCastSender) : Prop where
  addrTemplate : ∃ hi lo, t.addrTemplate = s.addrTemplate ++ [hi, lo]
  length : s.addrTemplate.length = 14
  egressPort : t.egressPort = s.egressPort
  stripHeader : t.stripHeader = s.stripHeader

/-- A new sender has zeros in the two other bytes. -/
theorem Fixes.new (s : MCastSettings) (stripHeader : Bool) :
    Fixes (new s stripHeader) (.new s stripHeader) where
  addrTemplate := ⟨0, 0, by
    simp [MCastTemplate.new, MCastSender.new, write, put, bigEndian, List.replicate]⟩
  length := by simp [MCastSender.new]
  egressPort := rfl
  stripHeader := rfl

variable {t : MCastTemplate} {s : MCastSender}

/-- The two bytes are overwritten as a whole. -/
theorem Fixes.sendTo (h : Fixes t s) (buf : Bytes) (hi lo : UInt8) (ok : Bool) :
    Fixes (t.sendTo buf hi lo ok).1 s ∧
      (t.sendTo buf hi lo ok).2 = [⟨⟨buf, ok⟩, s.addrTemplate ++ [hi, lo], s.egressPort⟩] := by
  obtain ⟨hi', lo', haddr⟩ := h.addrTemplate
  have hwrite : write [(14, [hi]), (15, [lo])] t.addrTemplate = s.addrTemplate ++ [hi, lo] := by
    have htake : s.addrTemplate.take 15 = s.addrTemplate :=
      List.take_of_length_le (by rw [h.length]; decide)
    have hdrop : ∀ n, 14 ≤ n → s.addrTemplate.drop n = [] := fun n hn =>
      List.drop_eq_nil_of_le (by rwa [h.length])
    rw [haddr]
    simp [write, put, List.take_append, List.drop_append, h.length, htake, hdrop]
  rw [MCastTemplate.sendTo, hwrite, h.egressPort]
  exact ⟨⟨⟨hi, lo, rfl⟩, h.length, rfl, h.stripHeader⟩, rfl⟩

/-- **The step lemma**: a call sends to an address of its own. -/
theorem Fixes.step (h : Fixes t s) (call : MCastCall) :
    Fixes (t.step call).1 s ∧ (t.step call).2 = [s.answer call] := by
  cases call with
  | send raw f groupIdx ok =>
      rw [MCastTemplate.step, h.stripHeader]
      exact h.sendTo _ _ _ _
  | sendToGroup buf groupIdx ok =>
      have hidx : (groupIdx >>> 8).toUInt8 = (groupIdx.toUInt32 >>> 8).toUInt8 ∧
          groupIdx.toUInt8 = groupIdx.toUInt32.toUInt8 := by
        constructor <;> apply UInt8.toNat_inj.mp <;> simp
      rw [MCastTemplate.step, hidx.1, hidx.2]
      exact h.sendTo _ _ _ _

/-- **Overwriting is safe**: over any calls, every datagram has the address that the call asks
for, whatever was sent before. -/
theorem outputs_eq (h : Fixes t s) (calls : List MCastCall) :
    Machine.outputs step t calls = calls.map s.answer := by
  induction calls generalizing t with
  | nil => rfl
  | cons call calls ih =>
      obtain ⟨hfix, hout⟩ := h.step call
      rw [Machine.outputs, hout, ih hfix]
      rfl

end MCastTemplate

/-- An address of the sender is that of a group, whose index is the low 16 bits. -/
theorem MCastSender.addr_new (m : MCastSettings) (stripHeader : Bool) (groupIdx : UInt32) :
    (new m stripHeader).addrTemplate ++ [(groupIdx >>> 8).toUInt8, groupIdx.toUInt8] =
      groupAddr m.mcPrefix m.groupID groupIdx.toUInt16 := by
  have hidx : [(groupIdx >>> 8).toUInt8, groupIdx.toUInt8] =
      bigEndian 2 groupIdx.toUInt16.toNat := by
    simp only [bigEndian, List.nil_append, List.singleton_append, List.cons.injEq, and_true]
    constructor
    · apply UInt8.toNat_inj.mp
      simp
      omega
    · apply UInt8.toNat_inj.mp
      simp
  rw [hidx]
  rfl

/-! ### The multicast sends of a worker -/

namespace Effect

/-- A multicast send. -/
def sentTo? : Effect → List SentTo
  | .multicast sent => [sent]
  | _ => []

/-- A multicast send of a header. -/
def headerSentTo? : Effect → List SentTo
  | .headerMulticast sent => [sent]
  | _ => []

end Effect

namespace Parcel

/-- The call of multicast egress for a parcel. -/
def mcastCall? (net : Net) : Parcel → Option MCastCall
  | .transaction raw f groupIdx => some (.send raw f groupIdx net.multicast)
  | _ => none

/-- The call of header multicast for a parcel. -/
def headerMCastCall? (cfg : WorkerConfig) (net : Net) (p : Parcel) : Option MCastCall :=
  (p.headerFrame cfg).map fun buf =>
    .sendToGroup buf ctrlGroupBlockHeader.toUInt16 net.headerMulticast

end Parcel

namespace Worker

variable {cfg : WorkerConfig}

/-- The calls that a run makes for the parcels of the first stage. -/
def parcelCalls (cfg : WorkerConfig) (call : Net → Parcel → Option MCastCall) (w : Worker)
    (ops : List Op) : List MCastCall :=
  (Machine.outputs (Intake.deal cfg) w.intake ops).filterMap fun e => e.2.parcel?.bind (call e.1)

/-- The sends of a multicast sender over a run, if every parcel is one call of it or none. -/
theorem flatMap_outputs_of_call {f : Effect → List SentTo} {call : Net → Parcel → Option MCastCall}
    {s : MCastSender} {P : Outlet → Prop} (hcount : ∀ m, f (.count m) = [])
    (hsetup : ∀ o o', Outlet.SameSetup o o' → P o → P o')
    (hemit : ∀ o net p, P o →
      (Outlet.emit cfg o net p).2.flatMap f = ((call net p).map s.answer).toList)
    {w : Worker} (hw : P w.downstream.outlet) (ops : List Op) :
    (Machine.outputs (step cfg) w ops).flatMap f =
      (w.parcelCalls cfg call ops).map s.answer := by
  have hread : (Machine.outputs (step cfg) w ops).flatMap f =
      (Machine.outputs (Intake.deal cfg) w.intake ops).flatMap fun e =>
        ((e.2.parcel?.bind (call e.1)).map s.answer).toList := by
    rw [(two_stages w ops).2.2]
    refine Machine.flatMap_outputs (P := fun d : Downstream => P d.outlet) ?_ ?_ hw _
    · rintro d ⟨net, item⟩ hd
      cases item with
      | parcel p => exact hsetup _ _ (Outlet.emit_sameSetup p) hd
      | count | call => exact hd
    · rintro d ⟨net, item⟩ hd
      cases item with
      | parcel p => exact hemit d.outlet net p hd
      | count m => simp [Downstream.step, Item.parcel?, hcount]
      | call c => rfl
  rw [hread, parcelCalls, List.map_filterMap, List.filterMap_eq_flatMap_toList]

/-- **The address is overwritten safely.** Take any run of a worker. If its multicast sender, or
its multicast sender of headers, is that of some settings, then what it puts on the wire,
overwriting one address, is what the effects of the run say: every transaction goes to the group
of its own index, and every header to the group of headers, whatever was sent before and whichever
sends failed. -/
theorem multicast_template (cfg : WorkerConfig) (w : Worker) (m : MCastSettings)
    (stripHeader : Bool) (ops : List Op) :
    let out := Machine.outputs (step cfg) w ops
    (w.mcastEgr = some (.new m stripHeader) →
      out.flatMap Effect.sentTo? =
        Machine.outputs MCastTemplate.step (.new m stripHeader)
          (w.parcelCalls cfg Parcel.mcastCall? ops)) ∧
    (w.headerMCastEgr = some (.new m stripHeader) →
      out.flatMap Effect.headerSentTo? =
        Machine.outputs MCastTemplate.step (.new m stripHeader)
          (w.parcelCalls cfg (Parcel.headerMCastCall? cfg) ops)) := by
  intro out
  rw [MCastTemplate.outputs_eq (.new m stripHeader), MCastTemplate.outputs_eq (.new m stripHeader)]
  constructor
  · intro hm
    refine flatMap_outputs_of_call (P := fun o => o.mcastEgr = some (.new m stripHeader))
      (fun _ => rfl) (fun o o' hsame ho => hsame.mcastEgr.trans ho) ?_ hm ops
    intro o net p ho
    rw [Outlet.flatMap_emit fun _ => rfl]
    cases p <;> simp [Effect.sentTo?, ho, Parcel.mcastCall?, MCastSender.answer]
  · intro hm
    refine flatMap_outputs_of_call (P := fun o => o.headerMCastEgr = some (.new m stripHeader))
      (fun _ => rfl) (fun o o' hsame ho => hsame.headerMCastEgr.trans ho) ?_ hm ops
    intro o net p ho
    rw [Outlet.flatMap_emit fun _ => rfl]
    cases p with
    | block raw bf =>
        cases hframe : Outlet.headerFrame cfg bf <;>
          simp [Effect.headerSentTo?, ho, Parcel.headerMCastCall?, Parcel.headerFrame, hframe,
            MCastSender.answer, ctrlGroupBlockHeader]
    | transaction raw f groupIdx =>
        simp [Effect.headerSentTo?, Parcel.headerMCastCall?, Parcel.headerFrame]
    | subtreeData raw sf =>
        simp [Effect.headerSentTo?, Parcel.headerMCastCall?, Parcel.headerFrame]

/-- Two transactions of different shards, the first of which is not sent. The worker has no
multicast sender of headers. -/
theorem multicast_template_two :
    let m : MCastSettings := ⟨⟨[], 2⟩, 9002, [], 0xFF02, 0x000B⟩
    let cfg := testConfig Codec.wire
    let w : Worker := { testWorker with mcastEgr := some (.new m false) }
    let ops := [Op.datagram (testRaw (testFrame 1 1 0xA)) { Env.test 0 with multicast := false },
      .datagram (testRaw (testFrame 1 2 0x4B)) (Env.test 1)]
    let sent := Machine.outputs MCastTemplate.step (.new m false)
      (w.parcelCalls cfg Parcel.mcastCall? ops)
    (Machine.outputs (step cfg) w ops).flatMap Effect.sentTo? = sent ∧
      sent.map SentTo.addr = [groupAddr 0xFF02 0x000B 0, groupAddr 0xFF02 0x000B 1] :=
  ⟨(multicast_template _ _ _ _ _).1 rfl, by decide +kernel⟩

end Worker

/-! ### The selected shards -/

namespace Filter

variable {f : Filter} {now : GroupClock} {groupIdx : UInt32} {fr : Frame}

/-- The filter lets the shard pass. -/
def Selects (f : Filter) (groupIdx : UInt32) : Prop := ∀ shards ∈ f.shardInclude, groupIdx ∈ shards

/-- The check of the filter is that of the list. -/
theorem any_shardInclude (f : Filter) (groupIdx : UInt32) :
    (f.shardInclude.any fun shards => groupIdx ∉ shards) = true ↔ ¬ f.Selects groupIdx := by
  rw [Selects]
  cases f.shardInclude <;> simp

/-- What is dropped for its shard. -/
theorem allow_eq_shardFilter :
    f.allow now groupIdx fr = some .shardFilter ↔ ¬ f.Selects groupIdx := by
  rw [← any_shardInclude, allow]
  split_ifs with hshard <;> simp_all

/-- What passes is of a shard that passes. -/
theorem selects_of_allow (h : f.allow now groupIdx fr = none) : f.Selects groupIdx := by
  by_contra hshard
  rw [allow_eq_shardFilter.mpr hshard] at h
  exact absurd h (Option.some_ne_none _)

/-- With a list, the shards of the list pass, and without one all. -/
theorem selects_new {shards : List UInt32} {subtreeInclude subtreeExclude : List Bytes32}
    {groupReg : Option GroupRegistry} :
    (new shards subtreeInclude subtreeExclude groupReg).Selects groupIdx ↔
      (shards ≠ [] → groupIdx ∈ shards) := by
  by_cases hnil : shards = [] <;> simp [Selects, new, nonempty, hnil]

end Filter

/-- The sockets get the shards that the filter lets pass. -/
theorem Configuration.WellFormed.mem_indices_iff {c : Configuration} (h : WellFormed c)
    {idx : UInt32} (hidx : idx.toNat < 2 ^ c.shardBits) :
    idx ∈ c.indices ↔ (c.shardInclude ≠ [] → idx ∈ c.shardInclude) := by
  rw [indices]
  split_ifs with hlist
  · simp [hlist]
  · have hall : idx ∈ (List.range c.numGroups.toNat).map UInt32.ofNat := by
      rw [h.numGroups, ← mem_map_toNat, map_toNat_range h.two_pow_le]
      exact List.mem_range.mpr hidx
    exact iff_of_true hall fun hne => absurd hne hlist

/-- The group of a shard is joined exactly if the shard is selected. -/
theorem Configuration.WellFormed.mem_buildGroups_iff {c : Configuration} (h : WellFormed c)
    (engine : Engine c.mcPrefix c.mcGroupID c.shardBits) {idx : UInt32}
    (hidx : idx.toNat < 2 ^ c.shardBits) :
    ⟨engine.addr idx, c.listenPort⟩ ∈ c.buildGroups engine ↔ idx ∈ c.indices := by
  rw [mem_buildGroups]
  constructor
  · rintro ⟨-, ⟨idx', hmem, heq⟩ | heq | ⟨-, heq⟩⟩
    · rwa [engine.injective _ _ hidx (h.lt_of_mem_indices hmem) heq]
    · exact absurd heq (engine.ne_control idx hidx _ (by decide) (by decide))
    · exact absurd heq (engine.ne_control idx hidx _ (by decide) (by decide))
  · exact fun hmem => ⟨rfl, .inl ⟨idx, hmem, rfl⟩⟩

namespace Intake

variable {cfg : WorkerConfig} {i : Intake} {r : Readings} {filt : Filter} {items : List Item}

/-- The transactions among some items are of shards that the filter lets pass, and have the index
of their shard. -/
def Admits (cfg : WorkerConfig) (filt : Filter) (items : List Item) : Prop :=
  ∀ raw f groupIdx, .parcel (.transaction raw f groupIdx) ∈ items →
    groupIdx = cfg.codec.groupIndex f.txID ∧ filt.Selects groupIdx

/-- Nothing is passed on. -/
@[simp] theorem admits_nil : Admits cfg filt [] := fun _ _ _ h => absurd h List.not_mem_nil

/-- A count passes nothing on. -/
@[simp] theorem admits_count {m : Metric} :
    Admits cfg filt (.count m :: items) ↔ Admits cfg filt items := by
  simp [Admits]

/-- A report to the tracker passes nothing on. -/
@[simp] theorem admits_observe {groupIdx : UInt32} {subtreeID : Bytes32} {hashKey seqNum : UInt64} :
    Admits cfg filt (r.observe groupIdx subtreeID hashKey seqNum :: items) ↔
      Admits cfg filt items := by
  simp [Admits, Readings.observe]

/-- Block control frames are not filtered. -/
@[simp] theorem admits_block {raw : Bytes} {bf : BlockFrame} :
    Admits cfg filt (.parcel (.block raw bf) :: items) ↔ Admits cfg filt items := by
  simp [Admits]

/-- Subtree data frames are not filtered. -/
@[simp] theorem admits_subtreeData {raw : Bytes} {sf : SubtreeDataFrame} :
    Admits cfg filt (.parcel (.subtreeData raw sf) :: items) ↔ Admits cfg filt items := by
  simp [Admits]

/-- A transaction of a shard that passes. -/
theorem admits_transaction {raw : Bytes} {f : Frame}
    (hsel : filt.Selects (cfg.codec.groupIndex f.txID)) (hitems : Admits cfg filt items) :
    Admits cfg filt
      (.parcel (.transaction raw f (cfg.codec.groupIndex f.txID)) :: items) := by
  intro raw' f' groupIdx hmem
  rcases List.mem_cons.mp hmem with heq | hmem
  · cases heq
    exact ⟨rfl, hsel⟩
  · exact hitems raw' f' groupIdx hmem

/-- A report, if there is one, passes nothing on. -/
@[simp] theorem admits_report {groupIdx : UInt32} {subtreeID : Bytes32} {hashKey seqNum : UInt64} :
    Admits cfg filt (report seqNum (r.observe groupIdx subtreeID hashKey seqNum)) := by
  rw [report]
  split <;> simp

/-- What the buffer delivers is filtered like a frame from the socket. -/
theorem admits_reassembled (ev : Reassembly.Event) :
    Admits cfg filt (reassembled cfg filt r ev) := by
  cases ev with
  | started | abandoned | hashMismatch => simp [reassembled]
  | complete f =>
      rw [reassembled]
      cases hallow : filt.allow r.filterNow (cfg.codec.groupIndex f.txID) f with
      | some reason => simp
      | none =>
          simp only [admits_count]
          split
          · simp
          · exact admits_transaction (Filter.selects_of_allow hallow) admits_report
  | completeBlock bf =>
      rw [reassembled]
      split <;> simp [block]
  | completeSubtree sf =>
      rw [reassembled]
      split <;> simp [subtreeData]

/-- All that the buffer delivers at once is filtered. -/
theorem admits_flatMap (evs : List Reassembly.Event) :
    Admits cfg filt (evs.flatMap (reassembled cfg filt r)) := by
  intro raw f groupIdx hmem
  obtain ⟨ev, -, hmem⟩ := List.mem_flatMap.mp hmem
  exact admits_reassembled ev raw f groupIdx hmem

/-- A frame from the socket is filtered by the shard of its id. -/
theorem admits_frame (raw : Bytes) (f : Frame) :
    Admits cfg i.filt (i.transaction cfg raw f r).2 := by
  rw [transaction]
  dsimp only
  split
  · simp
  cases hallow : i.filt.allow r.filterNow (cfg.codec.groupIndex f.txID) f with
  | some reason => simp
  | none =>
      dsimp only
      split
      · simp
      · rw [admits_count]
        refine admits_transaction (Filter.selects_of_allow hallow) ?_
        split <;> simp

/-- **The step lemma**: what passes is of a shard that the filter selects. -/
theorem admits_step (op : Op) : Admits cfg i.filt (i.step cfg op).2 := by
  cases op with
  | datagram raw r =>
      simp only [step, datagram]
      split
      · split <;> simp [block]
      split
      · split <;> simp [subtreeData]
      split
      · rw [fragment]
        split
        · simp
        · split
          · simp
          · exact admits_flatMap _
      split
      · simp
      · exact admits_frame raw _
  | tick r =>
      simp only [step, tick]
      split
      · simp
      · exact admits_flatMap _
  | groups op => exact admits_nil
  | track c => simp [step, Admits]

/-- The list of shards never changes. -/
theorem step_shardInclude (op : Op) :
    (i.step cfg op).1.filt.shardInclude = i.filt.shardInclude := by
  cases op with
  | datagram raw r => exact congrArg Filter.shardInclude (datagram_filt raw)
  | tick r => exact congrArg Filter.shardInclude tick_filt
  | groups op => rfl
  | track c => rfl

/-- **The run lemma**: so for every parcel of a run. -/
theorem selects_of_mem_parcels {ops : List Op} {raw : Bytes} {f : Frame} {groupIdx : UInt32}
    (h : .transaction raw f groupIdx ∈ i.parcels cfg ops) :
    groupIdx = cfg.codec.groupIndex f.txID ∧ i.filt.Selects groupIdx := by
  induction ops generalizing i with
  | nil => exact absurd h List.not_mem_nil
  | cons op ops ih =>
      rw [parcels, Machine.outputs, List.filterMap_append, List.mem_append] at h
      rcases h with h | h
      · obtain ⟨item, hitem, heq⟩ := List.mem_filterMap.mp h
        cases item with
        | parcel p =>
            cases heq
            exact admits_step op raw f groupIdx hitem
        | count | call => cases heq
      · obtain ⟨hidx, hsel⟩ := ih h
        rw [Filter.Selects, step_shardInclude] at hsel
        exact ⟨hidx, hsel⟩

end Intake

namespace Process

variable {cfg : ProcessConfig}

/-- No event of the process changes the list of shards. -/
theorem step_shardInclude (p : Process) (ev : Event) :
    (p.step cfg ev).1.filt.shardInclude = p.filt.shardInclude := by
  rw [step]
  cases p.action cfg ev with
  | none => rfl
  | some a => cases a <;> rfl

end Process

/-- Shard 0 of the site is sent on to the link. -/
def Setup.bridge : Setup :=
  { Setup.pair with
    config := { Configuration.withShards [0] with
      mcEgress := some ⟨⟨Text.ascii "eth0", 2⟩, 9002, Text.ascii "link", 0xFF02, 0x000B⟩ } }

/-- The index of a shard is the value of two bits. -/
theorem Codec.groupIndex_wire_lt (id : Bytes32) : (wire.groupIndex id).toNat < 2 ^ 2 := by
  have hlt : id.head.toNat < 256 := id.head.toNat_lt
  change (UInt32.ofNat (id.head.toNat / 64)).toNat < 4
  rw [UInt32.toNat_ofNat_of_lt' (by change _ < 4294967296; omega)]
  omega

end ShardListener
