import ShardListener.Stream

/-!
# Control-Plane Frames in Fragments

A block control or subtree data frame (`ControlFrame`) that is too large for one datagram comes
as BRC-130 fragments. The fragments reach the reassembly buffer and nothing else, until the last
one completes the slot; the buffer rebuilds the frame from the payload and the header of the
fragment that opened the slot, and the worker encodes it again. The result is the frame that was
fragmented, and the two paths share their steps from there on. So the last fragment does what
the frame in one piece would have done at that time.

The fragments may be spread over any run of the worker (`Collecting`): other datagrams, ticks of
the buffer, changes of the group registry and of the tracker come in between.

## Main results

* `Collecting.step`: the message stays in progress along the run.
* `control_fragments_as_whole`: the fragments together do what the frame in one piece does.
-/

namespace ShardListener

/-! ### Control-plane frames -/

/-- A BRC-131 or BRC-132 frame. -/
inductive ControlFrame
  | block (bf : BlockFrame)
  | subtreeData (sf : SubtreeDataFrame)

namespace ControlFrame

/-- The version byte. -/
def version : ControlFrame → UInt8
  | .block _ => frameVerV4
  | .subtreeData _ => frameVerV5

/-- The content id or subtree id. -/
def id : ControlFrame → Bytes32
  | .block bf => bf.contentID
  | .subtreeData sf => sf.subtreeID

def msgType : ControlFrame → UInt8
  | .block bf => bf.msgType
  | .subtreeData sf => sf.msgType

def hashKey : ControlFrame → UInt64
  | .block bf => bf.hashKey
  | .subtreeData sf => sf.hashKey

def seqNum : ControlFrame → UInt64
  | .block bf => bf.seqNum
  | .subtreeData sf => sf.seqNum

def payload : ControlFrame → Bytes
  | .block bf => bf.payload
  | .subtreeData sf => sf.payload

/-- The datagram of the frame. -/
def encode (c : Codec) : ControlFrame → Option Bytes
  | .block bf => c.encodeBlock bf (headerSize + bf.payload.length)
  | .subtreeData sf => c.encodeSubtreeData sf (headerSize + sf.payload.length)

/-- The codec reads the frame from the datagram. -/
def ReadFrom (c : Codec) (raw : Bytes) : ControlFrame → Prop
  | .block bf => c.decodeBlock raw = some bf
  | .subtreeData sf => c.decodeSubtreeData raw = some sf

/-- The handler of a datagram of the frame's kind. -/
def process (cfg : WorkerConfig) (w : Worker) (raw : Bytes) (env : Env) :
    ControlFrame → Worker × List Effect
  | .block _ => w.processBlockFrame cfg raw env
  | .subtreeData _ => w.processSubtreeDataFrame cfg raw env

/-- The callback for the reassembled frame. -/
def event : ControlFrame → Reassembly.Event
  | .block bf => .completeBlock bf
  | .subtreeData sf => .completeSubtree sf

/-- The fragments `parts` of the frame: they split its payload and carry its metadata. -/
structure Fragmented (cf : ControlFrame) (parts : List FragFrame) : Prop where
  split : Reassembly.Split cf.id cf.payload cf.version cf.msgType parts
  stamped : ∀ ff ∈ parts, ff.hashKey = cf.hashKey ∧ ff.seqNum = cf.seqNum

end ControlFrame

/-- What leaves the worker: everything but the counters. -/
def egressed (effs : List Effect) : List Effect :=
  effs.filter fun e => match e with
    | .count _ => false
    | _ => true

/-- What leaves the worker, part by part. -/
theorem egressed_append (effs effs' : List Effect) :
    egressed (effs ++ effs') = egressed effs ++ egressed effs' := List.filter_append _ _

namespace Worker

open Reassembly (Observation Buffer deliveries message)

variable {cfg : WorkerConfig} {w : Worker} {raw : Bytes} {env : Env}

/-- The worker with another reassembly buffer. -/
def withBuffer (w : Worker) (b : Option Buffer) : Worker := { w with reassemBuf := b }

/-- The worker apart from its reassembly buffer. -/
def withoutBuffer (w : Worker) : Worker := w.withBuffer none

/-- The fragment the buffer gets from an operation, with the clock reading. -/
def Op.observation (c : Codec) : Op → Option Observation
  | .datagram raw env => (c.fragment raw).map fun ff => (env.bufferNow, ff)
  | _ => none

/-- The fragments the buffer gets from some operations. -/
def observations (c : Codec) (ops : List Op) : List Observation :=
  ops.filterMap (Op.observation c)

/-- The operation neither expires nor evicts the slot of `id`. -/
def Keeps (cfg : WorkerConfig) (id : Bytes32) (w : Worker) : Op → Prop
  | .datagram raw env => ∀ b ∈ w.reassemBuf, ∀ ff ∈ cfg.codec.fragment raw,
      Reassembly.Retained cfg.reassembly id b (env.bufferNow, ff)
  | .tick env => ∀ b ∈ w.reassemBuf, (b.slots.lookup id).isSome →
      ((b.tick env.bufferNow).1.slots.lookup id).isSome
  | _ => True

instance (cfg : WorkerConfig) (id : Bytes32) (w : Worker) : ∀ op, Decidable (Keeps cfg id w op)
  | .datagram raw _ =>
      inferInstanceAs (Decidable (∀ b ∈ w.reassemBuf, ∀ ff ∈ cfg.codec.fragment raw, _))
  | .tick _ => inferInstanceAs (Decidable (∀ b ∈ w.reassemBuf, _ → _))
  | .groups _ => isTrue trivial
  | .track _ => isTrue trivial

/-! ### The reassembly buffer along a run of the worker -/

/-- A datagram that is no fragment does not reach the buffer. -/
theorem reassemBuf_of_no_fragment (h : cfg.codec.fragment raw = none) :
    (w.processFrame cfg raw env).1.reassemBuf = w.reassemBuf := by
  rw [Codec.fragment] at h
  rw [processFrame]
  by_cases hblock : cfg.codec.isBlockFrame raw = true
  · rw [if_pos hblock]
    exact (processBlockFrame_sameCore raw).reassemBuf
  rw [if_neg hblock]
  by_cases hsubtree : cfg.codec.isSubtreeDataFrame raw = true
  · rw [if_pos hsubtree]
    exact (processSubtreeDataFrame_sameCore raw).reassemBuf
  rw [if_neg hsubtree]
  by_cases hfrag : cfg.codec.isFragment raw = true
  · -- a fragment that cannot be decoded
    rw [if_neg (by simp [hblock, hsubtree, hfrag])] at h
    rw [if_pos hfrag, processFragment]
    cases hb : w.reassemBuf with
    | none => exact hb
    | some b =>
        dsimp only
        rw [h]
        exact hb
  · rw [if_neg hfrag]
    cases cfg.codec.decode raw with
    | none => rfl
    | some f => exact (processTransaction_filt_reassemBuf cfg w env raw f).2

/-- The buffer after an operation. -/
def nextBuffer (cfg : WorkerConfig) (b : Buffer) : Op → Buffer
  | .datagram raw env =>
      match cfg.codec.fragment raw with
      | none => b
      | some ff => (Reassembly.step cfg.reassembly cfg.codec.sha256 b (env.bufferNow, ff)).1
  | .tick env => (b.tick env.bufferNow).1
  | _ => b

/-- **The step lemma** for the buffer. -/
theorem reassemBuf_step {b : Buffer} (hb : w.reassemBuf = some b) (op : Op) :
    (Worker.step cfg w op).1.reassemBuf = some (nextBuffer cfg b op) := by
  cases op with
  | tick env =>
      rw [Worker.step, hb]
      exact (deliverAll_sameCore _).reassemBuf
  | groups op => exact hb
  | track c => exact hb
  | datagram raw env =>
      rw [Worker.step, nextBuffer]
      cases hff : cfg.codec.fragment raw with
      | none => rw [reassemBuf_of_no_fragment hff, hb]
      | some ff =>
          rw [processFrame_of_fragment hff hb]
          exact (deliverAll_sameCore _).reassemBuf

/-- The worker has a sound reassembly buffer. -/
def Buffered (w : Worker) : Prop := ∃ b, w.reassemBuf = some b ∧ b.Sound

/-- A worker keeps its buffer, and the buffer stays sound. -/
theorem Buffered.step (h : w.Buffered) (op : Op) : (Worker.step cfg w op).1.Buffered := by
  obtain ⟨b, hb, hsound⟩ := h
  refine ⟨_, reassemBuf_step hb op, ?_⟩
  cases op with
  | tick env => exact hsound.evictExpired env.bufferNow
  | groups op => exact hsound
  | track c => exact hsound
  | datagram raw env =>
      rw [nextBuffer]
      cases cfg.codec.fragment raw with
      | none => exact hsound
      | some ff => exact Reassembly.sound_step hsound _

/-- **The run lemma.** -/
theorem buffered_after (h : w.reassemBuf = some .new) (ops : List Op) :
    (w.after cfg ops).Buffered :=
  Machine.run_invariant (P := Buffered) ⟨_, h, Reassembly.Buffer.Sound.new⟩
    (fun _ op hw => hw.step op) ops

end Worker

namespace Reassembly

variable {cfg : Config} {id : Bytes32} {ver : UInt8} {parts : List FragFrame}
  {es : List Observation}

/-- A tick that keeps the slot of a message leaves it as it is. -/
theorem InProgress.tick {b : Buffer} {hist : List Observation}
    (h : InProgress cfg id ver parts es (b, hist)) (now : Time)
    (hkeep : (b.slots.lookup id).isSome → ((b.tick now).1.slots.lookup id).isSome) :
    InProgress cfg id ver parts es ((b.tick now).1, hist) where
  sound := h.sound.evictExpired now
  holds := fun s hs => h.holds s (Buffer.lookup_of_lookup_evictExpired hs)
  dated := fun s hs => h.dated s (Buffer.lookup_of_lookup_evictExpired hs)
  within := h.within
  opened := fun o ho hid => hkeep (h.opened o ho hid)
  fits := fun s hs => h.fits s (Buffer.lookup_of_lookup_evictExpired hs)

end Reassembly

namespace Worker

open Reassembly (Observation Buffer deliveries message)

variable {cfg : WorkerConfig} {w : Worker} {raw : Bytes} {env : Env} {cf : ControlFrame}
  {parts : List FragFrame} {es : List Observation} {ops : List Op}

/-- The fragments `es` of the run are in the buffer, as far as they belong to the frame. -/
def Collecting (cfg : WorkerConfig) (cf : ControlFrame) (parts : List FragFrame)
    (es : List Observation) (w : Worker) : Prop :=
  ∃ b hist, w.reassemBuf = some b ∧
    Reassembly.InProgress cfg.reassembly cf.id cf.version parts es (b, hist)

/-- **The step lemma**: while a fragment is missing, the message stays in progress. -/
theorem Collecting.step (h : Collecting cfg cf parts es w) (hparts : cf.Fragmented parts)
    (op : Op) (hkeep : Keeps cfg cf.id w op)
    (honly : ∀ o ∈ es ++ (op.observation cfg.codec).toList, o.2.txID = cf.id → o.2 ∈ parts)
    (hmissing : ∃ ff ∈ parts, ∀ o ∈ es ++ (op.observation cfg.codec).toList, o.2 ≠ ff) :
    Collecting cfg cf parts (es ++ (op.observation cfg.codec).toList)
      (Worker.step cfg w op).1 := by
  obtain ⟨b, hist, hb, hprog⟩ := h
  have hstep : (Worker.step cfg w op).1.reassemBuf = some (nextBuffer cfg b op) :=
    reassemBuf_step hb op
  cases op with
  | tick env =>
      have hes : es ++ (Op.observation cfg.codec (.tick env)).toList = es := List.append_nil es
      rw [hes]
      exact ⟨_, hist, hstep, hprog.tick env.bufferNow (hkeep b hb)⟩
  | groups op =>
      have hes : es ++ (Op.observation cfg.codec (.groups op)).toList = es := List.append_nil es
      rw [hes]
      exact ⟨b, hist, hstep, hprog⟩
  | track c =>
      have hes : es ++ (Op.observation cfg.codec (.track c)).toList = es := List.append_nil es
      rw [hes]
      exact ⟨b, hist, hstep, hprog⟩
  | datagram raw env =>
      cases hff : cfg.codec.fragment raw with
      | none =>
          rw [Op.observation, hff, Option.map_none, Option.toList_none, List.append_nil]
          rw [nextBuffer, hff] at hstep
          exact ⟨b, hist, hstep, hprog⟩
      | some ff =>
          rw [Op.observation, hff, Option.map_some, Option.toList_some] at honly hmissing ⊢
          rw [nextBuffer, hff] at hstep
          exact ⟨_, _, hstep,
            hprog.step cfg.codec.sha256 hparts.split.fragmented (hkeep b hb ff hff) honly hmissing⟩

/-- **The run lemma.** -/
theorem collecting_after (hparts : cf.Fragmented parts) (hbuf : w.Buffered)
    (hnone : ∀ b, w.reassemBuf = some b → b.slots.lookup cf.id = none)
    (hkeep : Machine.Guarded (Machine.next (Worker.step cfg)) (Keeps cfg cf.id) w ops)
    (honly : ∀ o ∈ observations cfg.codec ops, o.2.txID = cf.id → o.2 ∈ parts)
    (hmissing : ∃ ff ∈ parts, ∀ o ∈ observations cfg.codec ops, o.2 ≠ ff) :
    Collecting cfg cf parts (observations cfg.codec ops) (w.after cfg ops) := by
  induction ops using List.reverseRecOn with
  | nil =>
      obtain ⟨b, hb, hsound⟩ := hbuf
      exact ⟨b, [], hb, .start hsound (hnone b hb)⟩
  | append_singleton ops op ih =>
      obtain ⟨hkeep', hlast⟩ := Machine.guarded_snoc.mp hkeep
      have hobs : observations cfg.codec (ops ++ [op]) =
          observations cfg.codec ops ++ (op.observation cfg.codec).toList := by
        rw [observations, List.filterMap_append]
        cases hop : op.observation cfg.codec <;> simp [observations, hop]
      rw [hobs] at honly hmissing ⊢
      obtain ⟨ff, hff, hne⟩ := hmissing
      have hcol := ih hkeep' (fun o ho => honly o (List.mem_append_left _ ho))
        ⟨ff, hff, fun o ho => hne o (List.mem_append_left _ ho)⟩
      rw [after_snoc]
      exact hcol.step hparts op hlast honly ⟨ff, hff, hne⟩

/-! ### What the events of the buffer do -/

/-- Events are delivered one after the other. -/
theorem deliverAll_append_effects (evs evs' : List Reassembly.Event) :
    (w.deliverAll cfg env (evs ++ evs')).2 =
      (w.deliverAll cfg env evs).2 ++
        ((w.deliverAll cfg env evs).1.deliverAll cfg env evs').2 := by
  induction evs generalizing w with
  | nil => rfl
  | cons ev evs ih =>
      rw [List.cons_append, deliverAll, deliverAll]
      dsimp only
      rw [ih, List.append_assoc]

/-- The hooks of the buffer send nothing. -/
theorem egressed_of_silent {evs : List Reassembly.Event} (h : deliveries evs = []) :
    egressed (w.deliverAll cfg env evs).2 = [] := by
  induction evs generalizing w with
  | nil => rfl
  | cons ev evs ih =>
      have hsilent := List.filterMap_eq_nil_iff.mp h
      have hrest : deliveries evs = [] :=
        List.filterMap_eq_nil_iff.mpr fun e he => hsilent e (List.mem_cons_of_mem _ he)
      rw [deliverAll]
      dsimp only
      rw [egressed_append, ih hrest, List.append_nil]
      have hev := hsilent ev List.mem_cons_self
      cases ev with
      | started => rfl
      | abandoned => rfl
      | hashMismatch => rfl
      | complete f => cases hev
      | completeBlock bf => cases hev
      | completeSubtree sf => cases hev

/-- Header egress does not look at the buffer. -/
theorem emitBlockHeader_withBuffer (b : Option Buffer) (bf : BlockFrame) :
    (w.withBuffer b).emitBlockHeader cfg bf env =
      ((w.emitBlockHeader cfg bf env).1.withBuffer b, (w.emitBlockHeader cfg bf env).2) := by
  rw [emitBlockHeader, emitBlockHeader]
  split
  · rfl
  split
  · rfl
  split
  · rfl
  · cases hheader : w.headerEgr <;> cases hmcast : w.headerMCastEgr <;>
      simp [withBuffer, hheader, hmcast]

/-- Forwarding a block control frame does not look at the buffer. -/
theorem forwardBlock_withBuffer (b : Option Buffer) (raw : Bytes) (bf : BlockFrame) :
    (w.withBuffer b).forwardBlock cfg raw bf env =
      ((w.forwardBlock cfg raw bf env).1.withBuffer b, (w.forwardBlock cfg raw bf env).2) := by
  have huni : ((w.withBuffer b).unicast (w.egr.sendBlock raw bf env.unicast)) =
      ((w.unicast (w.egr.sendBlock raw bf env.unicast)).1.withBuffer b,
        (w.unicast (w.egr.sendBlock raw bf env.unicast)).2) := rfl
  have hegr : (w.withBuffer b).egr = w.egr := rfl
  have hheader : (w.withBuffer b).headerEgr = w.headerEgr := rfl
  have hmcast : (w.withBuffer b).headerMCastEgr = w.headerMCastEgr := rfl
  rw [forwardBlock, forwardBlock, hegr, huni, hheader, hmcast]
  dsimp only
  rw [emitBlockHeader_withBuffer]
  split
  · split <;> rfl
  · split <;> rfl

/-- Forwarding a subtree data frame does not look at the buffer. -/
theorem forwardSubtreeData_withBuffer (b : Option Buffer) (raw : Bytes) (sf : SubtreeDataFrame) :
    (w.withBuffer b).forwardSubtreeData cfg raw sf env =
      ((w.forwardSubtreeData cfg raw sf env).1.withBuffer b,
        (w.forwardSubtreeData cfg raw sf env).2) := by
  rw [forwardSubtreeData, forwardSubtreeData]
  dsimp only
  split <;> rfl

/-- **The two paths**: the callback for a rebuilt frame does what the handler does with the
datagram of the frame. -/
theorem deliver_as_process {canon : Bytes} (henc : cf.encode cfg.codec = some canon)
    (hread : cf.ReadFrom cfg.codec canon) (b : Option Buffer) :
    egressed ((w.withBuffer b).deliver cfg env cf.event).2 =
        egressed (cf.process cfg w canon env).2 ∧
      ((w.withBuffer b).deliver cfg env cf.event).1.withoutBuffer =
        (cf.process cfg w canon env).1.withoutBuffer := by
  cases cf with
  | block bf =>
      have henc : cfg.codec.encodeBlock bf (headerSize + bf.payload.length) = some canon := henc
      have hread : cfg.codec.decodeBlock canon = some bf := hread
      rw [ControlFrame.event, ControlFrame.process, deliver, deliverReassembledBlock,
        processBlockFrame, henc, hread]
      dsimp only
      rw [forwardBlock_withBuffer]
      exact ⟨rfl, rfl⟩
  | subtreeData sf =>
      have henc : cfg.codec.encodeSubtreeData sf (headerSize + sf.payload.length) = some canon :=
        henc
      have hread : cfg.codec.decodeSubtreeData canon = some sf := hread
      rw [ControlFrame.event, ControlFrame.process, deliver, deliverReassembledSubtreeData,
        processSubtreeDataFrame, henc, hread]
      dsimp only
      rw [forwardSubtreeData_withBuffer]
      exact ⟨rfl, rfl⟩

/-! ### The frame rebuilt from its fragments -/

/-- The message under the header of any fragment is the frame. -/
theorem message_of_fragment (hparts : cf.Fragmented parts) {ff : FragFrame} (hff : ff ∈ parts) :
    message ff cf.payload = cf.event := by
  have hfragmented := hparts.split.fragmented
  obtain ⟨hid, -, -, hver, hmsg⟩ := hfragmented.get (hfragmented.getElem?_of_mem hff)
  obtain ⟨hkey, hseq⟩ := hparts.stamped ff hff
  rw [message, hver, hid, hkey, hseq, hmsg]
  cases cf with
  | block bf => rfl
  | subtreeData sf => rfl

/-- Control-plane messages are not verified. -/
theorem verifies_control (cfg : Reassembly.Config) (sha256 : Bytes → Bytes32) (cf : ControlFrame)
    (id : Bytes32) (P : Bytes) : cfg.Verifies sha256 cf.version id P := by
  cases cf with
  | block bf => exact fun hV4 => absurd rfl hV4
  | subtreeData sf => exact fun _ hV5 => absurd rfl hV5

/-- **The last fragment** causes hook calls, and the callback for the frame. -/
theorem Collecting.last (h : Collecting cfg cf parts es w) (hparts : cf.Fragmented parts)
    (hreg : cfg.reassembly.registered cf.version = true) {ff : FragFrame}
    (hff : cfg.codec.fragment raw = some ff)
    (harr : Reassembly.Arrives cf.id parts es (env.bufferNow, ff) [])
    (hkeep : Keeps cfg cf.id w (.datagram raw env)) :
    ∃ b evs, deliveries evs = [] ∧
      w.processFrame cfg raw env = (w.withBuffer b).deliverAll cfg env (evs ++ [cf.event]) := by
  obtain ⟨b, hist, hb, hprog⟩ := h
  obtain ⟨s, s', hfor, hfilled, hkey, hver, hpayload, hdated⟩ :=
    hprog.filled_last hparts.split.fragmented harr (hkeep b hb ff hff)
  obtain ⟨first, hfirst, hopened⟩ := hdated.opened
  -- the slot was opened by a fragment of the frame
  have hmem : first.2 ∈ parts :=
    harr.only first (hprog.follow_within first (List.mem_of_mem_head? hfirst))
      (hopened.txID.symm.trans hkey)
  have hver' : first.2.origFrameVer = cf.version := hopened.origFrameVer.symm.trans hver
  obtain ⟨evs, hevs, heq⟩ := @Buffer.observe_events cfg.reassembly cfg.codec.sha256 _
    env.bufferNow ff hprog.sound
  rw [hfor, Option.bind_some, hfilled, Option.map_some, Option.getD_some,
    Reassembly.Slot.complete_of_openedBy cfg.codec.sha256 (hver ▸ hreg) hopened, hver',
    if_pos (verifies_control _ _ cf _ _), hpayload, message_of_fragment hparts hmem] at heq
  refine ⟨some (Reassembly.step cfg.reassembly cfg.codec.sha256 b (env.bufferNow, ff)).1, evs, hevs,
    ?_⟩
  rw [processFrame_of_fragment hff hb, ← heq]
  rfl

/-- A fragment that leaves another one missing sends nothing and changes the buffer only. -/
theorem Collecting.quiet (h : Collecting cfg cf parts es w) (hparts : cf.Fragmented parts)
    {ff : FragFrame} (hff : cfg.codec.fragment raw = some ff) (hid : ff.txID = cf.id)
    (hkeep : Keeps cfg cf.id w (.datagram raw env))
    (honly : ∀ o ∈ es ++ [(env.bufferNow, ff)], o.2.txID = cf.id → o.2 ∈ parts)
    (hmissing : ∃ ff' ∈ parts, ∀ o ∈ es ++ [(env.bufferNow, ff)], o.2 ≠ ff') :
    egressed (w.processFrame cfg raw env).2 = [] ∧
      (w.processFrame cfg raw env).1.withoutBuffer = w.withoutBuffer := by
  obtain ⟨b, hist, hb, hprog⟩ := h
  have hsilent := hprog.deliveries_eq_nil cfg.codec.sha256 hparts.split.fragmented
    (hkeep b hb ff hff) honly
    hmissing hid
  rw [processFrame_of_fragment hff hb]
  refine ⟨egressed_of_silent hsilent, ?_⟩
  rw [deliverAll_of_silent hsilent]
  rfl

/-- **Fragments are egressed as the frame in one piece.** A control-plane frame arrives in
fragments, in any order, repeated and among anything else that happens to the worker, while its
slot is kept. Each fragment but the last sends nothing and leaves everything but the buffer as
it is; the last one hands the same to the main and header egress, and leaves the tracker and
everything else but the buffer the same, as the frame in one piece would. Of the codec it is
assumed that the encoding of this frame is read as the frame again. -/
theorem control_fragments_as_whole (cfg : WorkerConfig)
    (hblock : cfg.reassembly.onCompleteBlock = true)
    (hsubtree : cfg.reassembly.onCompleteSubtree = true) (w₀ : Worker)
    (hnew : w₀.reassemBuf = some .new) (before ops : List Op) (raw : Bytes) (env : Env)
    (ff : FragFrame) (hff : cfg.codec.fragment raw = some ff) (cf : ControlFrame)
    (parts : List FragFrame) (hparts : cf.Fragmented parts)
    (hnone : ∀ b, (w₀.after cfg before).reassemBuf = some b → b.slots.lookup cf.id = none)
    (harr : Reassembly.Arrives cf.id parts (observations cfg.codec ops) (env.bufferNow, ff) [])
    (hkeep : Machine.Guarded (Machine.next (Worker.step cfg)) (Keeps cfg cf.id)
      (w₀.after cfg before) (ops ++ [.datagram raw env]))
    (canon : Bytes) (henc : cf.encode cfg.codec = some canon)
    (hread : cf.ReadFrom cfg.codec canon) :
    (∀ pre raw' env' post ff', ops = pre ++ .datagram raw' env' :: post →
      cfg.codec.fragment raw' = some ff' → ff'.txID = cf.id →
      egressed ((w₀.after cfg (before ++ pre)).processFrame cfg raw' env').2 = [] ∧
      ((w₀.after cfg (before ++ pre)).processFrame cfg raw' env').1.withoutBuffer =
        (w₀.after cfg (before ++ pre)).withoutBuffer) ∧
    egressed ((w₀.after cfg (before ++ ops)).processFrame cfg raw env).2 =
      egressed (cf.process cfg (w₀.after cfg (before ++ ops)) canon env).2 ∧
    ((w₀.after cfg (before ++ ops)).processFrame cfg raw env).1.withoutBuffer =
      (cf.process cfg (w₀.after cfg (before ++ ops)) canon env).1.withoutBuffer := by
  have hbuf : (w₀.after cfg before).Buffered := buffered_after hnew before
  have hafter : ∀ pre, w₀.after cfg (before ++ pre) = (w₀.after cfg before).after cfg pre :=
    fun pre => Machine.run_append _ _ _ _
  obtain ⟨hkeep', hlast⟩ := Machine.guarded_snoc.mp hkeep
  have honly : ∀ o ∈ observations cfg.codec ops, o.2.txID = cf.id → o.2 ∈ parts :=
    fun o ho => harr.only o (List.mem_append_left _ ho)
  constructor
  · rintro pre raw' env' post ff' rfl hff' hid
    have hobs : observations cfg.codec (pre ++ .datagram raw' env' :: post) =
        (observations cfg.codec pre ++ [(env'.bufferNow, ff')]) ++
          observations cfg.codec post := by
      have ho : Op.observation cfg.codec (.datagram raw' env') = some (env'.bufferNow, ff') := by
        rw [Op.observation, hff', Option.map_some]
      rw [observations, List.filterMap_append, List.filterMap_cons_some ho, List.append_cons]
      rfl
    obtain ⟨part, hpart, hne⟩ := harr.missing
    rw [hobs] at honly hne
    have honly' : ∀ o ∈ observations cfg.codec pre ++ [(env'.bufferNow, ff')],
        o.2.txID = cf.id → o.2 ∈ parts := fun o ho => honly o (List.mem_append_left _ ho)
    have hne' : ∀ o ∈ observations cfg.codec pre ++ [(env'.bufferNow, ff')], o.2 ≠ part :=
      fun o ho => hne o (List.mem_append_left _ ho)
    rw [List.append_cons] at hkeep'
    obtain ⟨hpre, hthis⟩ := Machine.guarded_snoc.mp hkeep'.left
    rw [hafter]
    have hcol := collecting_after hparts hbuf hnone hpre
      (fun o ho => honly' o (List.mem_append_left _ ho))
      ⟨part, hpart, fun o ho => hne' o (List.mem_append_left _ ho)⟩
    exact hcol.quiet hparts hff' hid hthis honly' ⟨part, hpart, hne'⟩
  · have hreg : cfg.reassembly.registered cf.version = true := by
      cases cf with
      | block bf => exact hblock
      | subtreeData sf => exact hsubtree
    rw [hafter]
    have hcol := collecting_after hparts hbuf hnone hkeep' honly harr.missing
    obtain ⟨b, evs, hevs, heq⟩ := hcol.last hparts hreg hff harr hlast
    rw [heq, deliverAll_append, deliverAll_append_effects, egressed_append,
      egressed_of_silent hevs, deliverAll_of_silent hevs, List.nil_append, deliverAll, deliverAll,
      List.append_nil]
    exact deliver_as_process henc hread b

end Worker

/-! ### A block announcement in two fragments -/

/-- An announcement: the block header, the TxID of the coinbase and the number of subtrees. -/
def testAnnounce : BlockFrame where
  msgType := blockMsgAnnounce
  contentID := 0xDD ::ᵥ List.Vector.replicate 31 0
  hashKey := 0xFEED
  seqNum := 7
  payload := 0x02 :: List.replicate (blockHeaderSize - 1 + 32 + 4) 0

/-- Fragment `i` of two of the announcement. -/
def testAnnounceFrag (i : UInt16) (data : Bytes) : FragFrame where
  txID := testAnnounce.contentID
  subtreeID := Bytes32.ofByte 0
  hashKey := testAnnounce.hashKey
  seqNum := testAnnounce.seqNum
  origPayloadLen := 116
  fragIndex := i
  fragTotal := 2
  fragData := data
  origFrameVer := frameVerV4
  msgType := testAnnounce.msgType

/-- The first 64 bytes. -/
def testAnnounceFirst : FragFrame := testAnnounceFrag 0 (testAnnounce.payload.take 64)

/-- The remaining 52 bytes. -/
def testAnnounceSecond : FragFrame := testAnnounceFrag 1 (testAnnounce.payload.drop 64)

namespace Worker

/-- With header egress. The second fragment arrives first, and again. -/
theorem control_fragments_as_whole_announce :
    let cfg := testConfig Codec.wire
    let second := Wire.fragment testAnnounceSecond
    let ops := [Op.datagram second (Env.test 0), .tick (Env.test 1), .datagram second (Env.test 2)]
    let w := { testWorker with headerEgr := some ⟨.udp, false, false⟩ }.after cfg ops
    let canon := (Wire.Packet.ofBlock testAnnounce).fill (headerSize + 116)
    egressed (w.processFrame cfg (Wire.fragment testAnnounceFirst) (Env.test 3)).2 =
        egressed (w.processBlockFrame cfg canon (Env.test 3)).2 ∧
      (w.processFrame cfg (Wire.fragment testAnnounceFirst) (Env.test 3)).1.withoutBuffer =
        (w.processBlockFrame cfg canon (Env.test 3)).1.withoutBuffer := by
  intro cfg second ops w canon
  have hsplit : Reassembly.Split testAnnounce.contentID testAnnounce.payload frameVerV4
      blockMsgAnnounce [testAnnounceFirst, testAnnounceSecond] :=
    ⟨by decide, by decide, by decide, by decide, by decide, by decide⟩
  have hobs : observations cfg.codec ops = [(0, testAnnounceSecond), (2, testAnnounceSecond)] := by
    decide +kernel
  refine (control_fragments_as_whole cfg rfl rfl
    { testWorker with headerEgr := some ⟨.udp, false, false⟩ } rfl [] ops
    (Wire.fragment testAnnounceFirst) (Env.test 3) testAnnounceFirst (by decide +kernel)
    (.block testAnnounce) [testAnnounceFirst, testAnnounceSecond] ⟨hsplit, by decide⟩ ?_ ?_ ?_
    canon (by decide +kernel) ?_).2
  · rintro _ ⟨⟩
    rfl
  · rw [hobs]
    exact ⟨by decide, by decide, by decide, by simp⟩
  · decide +kernel
  · show Codec.wire.decodeBlock canon = some testAnnounce
    decide +kernel

end Worker

end ShardListener
