import ShardListener.Flow
import ShardListener.InOrder
import ShardListener.Reassembled

/-!
# Whole Frames and Fragment Sets on One Flow

A flow numbers its datagrams consecutively: a whole frame takes one sequence number and a
message in `K` fragments takes `K`. The fragments bypass the gap tracker, which sees a
completed message once, under the number of the fragment that opened its slot. The numbers of
the other fragments are never observed. So when the next message arrives, the tracker takes
them for lost, and a loss-free stream keeps the tracker free of gaps exactly when none but its
last message has more than one datagram.

## Main results

* `Tracker.At.next`: the tracker takes the numbers that are skipped for lost.
* `handles_message`: what one message does to a worker.
* `no_phantom_gaps_iff`: when a loss-free stream registers no gap.
* `phantom_gap`: two fragments between two whole frames, in order, register a gap.
-/

namespace ShardListener

/-! ### The tracker along a flow -/

namespace Tracker

variable {cfg : TrackerConfig} {h : UInt64} {t : Tracker} {a : Arrival} {last gaps : ℕ}

/-- The tracker follows the flow `h` up to the number `last`, with `gaps` missing before, and
has no other gaps. -/
structure At (h : UInt64) (last gaps : ℕ) (t : Tracker) : Prop where
  pending : t.pendingGaps = gaps
  flow : ∃ fs, t.flows.lookup h = some fs ∧ fs.lastSeqNum.toNat = last ∧
    fs.pending.size = gaps ∧ ∀ k ∈ fs.pending, k.toNat < last

/-- Distinct numbers that are not pending are all registered. -/
theorem size_foldl_registerGap (label : FlowLabel) (ms : List UInt64) (hnd : ms.Nodup)
    (acc : AssocMap UInt64 GapEntry × Recorder) (hnew : ∀ m ∈ ms, m ∉ acc.1) :
    (ms.foldl (registerGap cfg a label) acc).1.size = acc.1.size + ms.length := by
  induction ms generalizing acc with
  | nil => rfl
  | cons m ms ih =>
      obtain ⟨hnot, hnd'⟩ := List.nodup_cons.mp hnd
      have hm : m ∉ acc.1 := hnew m List.mem_cons_self
      have hreg : (registerGap cfg a label acc m).1 =
          acc.1.insert m (GapEntry.fresh cfg a m) := by
        rw [registerGap, if_neg hm]
      rw [List.foldl_cons, ih hnd', hreg,
        AList.size_insert_of_lookup_none _ (AList.lookup_eq_none.mpr hm), List.length_cons]
      · omega
      · intro k hk hmem
        rw [hreg] at hmem
        rcases (AList.mem_insert _).mp hmem with rfl | hold
        · exact hnot hk
        · exact hnew k (List.mem_cons_of_mem _ hk) hold

/-- The pending gaps after `Observe`, when the observed flow had all of them. -/
theorem pendingGaps_observe (hs : a.seqNum ≠ 0)
    (hall : t.pendingGaps = t.flows.weightAt (fun fs => fs.pending.size) a.hashKey) :
    (t.observe cfg a).pendingGaps =
      (((t.flows.lookup a.hashKey).getD (.fresh a)).observe cfg a t.recorder).1.pending.size := by
  have hweight := AList.weight_insert (fun fs : FlowState => fs.pending.size) t.flows a.hashKey
    (((t.flows.lookup a.hashKey).getD (.fresh a)).observe cfg a t.recorder).1
  rw [pendingGaps] at hall
  rw [observe, if_neg hs, pendingGaps]
  dsimp only
  omega

/-- **The first message** of a flow. -/
theorem At.first (cfg : TrackerConfig) (hnone : t.flows.lookup a.hashKey = none)
    (hpend : t.pendingGaps = 0) (hs : a.seqNum ≠ 0) :
    At a.hashKey a.seqNum.toNat 0 (t.observe cfg a) := by
  have hfirst : ((t.flows.lookup a.hashKey).getD (.fresh a)).observe cfg a t.recorder =
      (FlowState.fresh a).observe cfg a t.recorder := by
    rw [hnone, Option.getD_none]
  have hempty : ((FlowState.fresh a).observe cfg a t.recorder).1.pending = ∅ := by
    rw [FlowState.observe_first rfl]
    rfl
  refine ⟨?_, _, lookup_observe hs, ?_, ?_, ?_⟩
  · rw [pendingGaps_observe hs (by rw [hpend, AList.weightAt_of_lookup_none hnone]), hfirst,
      hempty]
    rfl
  · rw [hfirst, FlowState.observe_first rfl]
  · rw [hfirst, hempty]
    rfl
  · rw [hfirst, hempty]
    exact fun k hk => absurd hk (AList.notMem_empty k)

/-- A number ahead of a flow whose gaps are all behind it: the flow moves up to it, and every
number in between is a new gap. -/
theorem observe_ahead (cfg : TrackerConfig) (r : Recorder) {fs : FlowState}
    (hzero : fs.lastSeqNum ≠ 0) (hlt : fs.lastSeqNum < a.seqNum)
    (hbelow : ∀ k ∈ fs.pending, k.toNat < fs.lastSeqNum.toNat) :
    (fs.observe cfg a r).1.lastSeqNum = a.seqNum ∧
      (fs.observe cfg a r).1.pending.size =
        fs.pending.size + (a.seqNum.toNat - fs.lastSeqNum.toNat - 1) ∧
      ∀ k ∈ (fs.observe cfg a r).1.pending, k.toNat < a.seqNum.toNat := by
  -- the numbers skipped are above everything pending
  have hnew : ∀ m, fs.lastSeqNum < m → m ∉ fs.pending := by
    intro m hm hmem
    have := hbelow m hmem
    have : fs.lastSeqNum.toNat < m.toNat := hm
    omega
  have herase : fs.pending.erase a.seqNum = fs.pending :=
    AList.ext (List.kerase_of_notMem_keys (hnew _ hlt))
  rw [FlowState.observe_new hzero hlt, herase]
  refine ⟨rfl, ?_, ?_⟩
  · refine (size_foldl_registerGap _ _ (missingSeqs_nodup hlt) _ ?_).trans ?_
    · intro m hm
      exact hnew m ((mem_missingSeqs hlt).mp hm).1
    · rw [length_missingSeqs hlt]
      dsimp only
      omega
  · intro k hk
    have hlt' : fs.lastSeqNum.toNat < a.seqNum.toNat := hlt
    rcases (mem_foldl_registerGap _ _ _).mp hk with hm | hold
    · exact ((mem_missingSeqs hlt).mp hm).2
    · have := hbelow k hold
      omega

/-- **The next message**: every number that was skipped is taken for lost. -/
theorem At.next (cfg : TrackerConfig) (ht : At h last gaps t) (hlast : 0 < last)
    (hkey : a.hashKey = h) (hlt : last < a.seqNum.toNat) :
    At h a.seqNum.toNat (gaps + (a.seqNum.toNat - last - 1)) (t.observe cfg a) := by
  subst hkey
  obtain ⟨fs, hfs, rfl, rfl, hbelow⟩ := ht.flow
  have hs : a.seqNum ≠ 0 := by
    intro hzero
    rw [hzero] at hlt
    exact Nat.not_lt_zero _ hlt
  have hzero : fs.lastSeqNum ≠ 0 := by
    intro hzero
    rw [hzero] at hlast
    exact Nat.lt_irrefl _ hlast
  obtain ⟨hmoved, hsize, hbelow'⟩ := observe_ahead cfg t.recorder hzero hlt hbelow
  have hobs : (t.flows.lookup a.hashKey).getD (.fresh a) = fs := by
    rw [hfs, Option.getD_some]
  refine ⟨?_, _, lookup_observe hs, ?_, ?_, ?_⟩
  · rw [pendingGaps_observe hs (by rw [ht.pending, AList.weightAt_of_lookup hfs]), hobs]
    exact hsize
  · rw [hobs, hmoved]
  · rw [hobs]
    exact hsize
  · rw [hobs]
    exact hbelow'

end Tracker

/-! ### Fragments in the worker -/

/-- The fragment a datagram is taken for. -/
def Codec.fragment (c : Codec) (raw : Bytes) : Option FragFrame :=
  if c.isBlockFrame raw = true ∨ c.isSubtreeDataFrame raw = true ∨ c.isFragment raw = false then
    none
  else c.decodeFragment raw

namespace Worker

open Reassembly (Observation Silent deliveries message)

variable {cfg : WorkerConfig} {w : Worker} {raw : Bytes} {env : Env} {b : Reassembly.Buffer}
  {ff : FragFrame}

/-- A datagram that is taken for a fragment. -/
theorem processFrame_of_fragment (h : cfg.codec.fragment raw = some ff)
    (hb : w.reassemBuf = some b) :
    w.processFrame cfg raw env =
      { w with
        reassemBuf := some
          (Reassembly.step cfg.reassembly cfg.codec.sha256 b (env.bufferNow, ff)).1 }.deliverAll cfg
        env (Reassembly.step cfg.reassembly cfg.codec.sha256 b (env.bufferNow, ff)).2 := by
  rw [Codec.fragment] at h
  split at h
  · cases h
  · rename_i hkind
    obtain ⟨hblock, hkind⟩ := not_or.mp hkind
    obtain ⟨hsubtree, hfrag⟩ := not_or.mp hkind
    rw [processFrame, if_neg hblock, if_neg hsubtree, if_pos (Bool.eq_true_of_not_eq_false hfrag),
      processFragment, hb]
    dsimp only
    rw [h]
    rfl

/-- The hooks of the buffer leave the worker alone. -/
theorem deliver_of_silent {ev : Reassembly.Event} (h : ev.delivery = none) :
    (w.deliver cfg env ev).1 = w := by
  cases ev with
  | started => rfl
  | abandoned => rfl
  | hashMismatch => rfl
  | complete f => cases h
  | completeBlock bf => cases h
  | completeSubtree sf => cases h

/-- Events that deliver nothing leave the worker as it is. -/
theorem deliverAll_of_silent {evs : List Reassembly.Event} (h : deliveries evs = []) :
    (w.deliverAll cfg env evs).1 = w := by
  induction evs with
  | nil => rfl
  | cons ev evs ih =>
      have hsilent := List.filterMap_eq_nil_iff.mp h
      rw [deliverAll]
      dsimp only
      rw [deliver_of_silent (hsilent ev List.mem_cons_self)]
      exact ih (List.filterMap_eq_nil_iff.mpr fun e he => hsilent e (List.mem_cons_of_mem _ he))

/-- Events are delivered one after the other. -/
theorem deliverAll_append (evs evs' : List Reassembly.Event) :
    (w.deliverAll cfg env (evs ++ evs')).1 =
      ((w.deliverAll cfg env evs).1.deliverAll cfg env evs').1 := by
  induction evs generalizing w with
  | nil => rfl
  | cons ev evs ih => exact ih

/-! ### What reaches the tracker -/

/-- The tracker observes a message of the flow `h` with the number `n`. -/
def Observes (cfg : WorkerConfig) (h n : UInt64) (w w' : Worker) : Prop :=
  ∃ a : Arrival, a.hashKey = h ∧ a.seqNum = n ∧
    w'.tracker = w.tracker.map fun t => t.observe cfg.tracker a

/-- Only the tracker matters for what is observed. -/
theorem Observes.congr {h n : UInt64} {w₁ w₂ : Worker} (hobs : Observes cfg h n w₁ w₂)
    (htracker : w₁.tracker = w.tracker) : Observes cfg h n w w₂ := by
  obtain ⟨a, hkey, hseq, heq⟩ := hobs
  exact ⟨a, hkey, hseq, by rw [heq, htracker]⟩

/-- A report is observed. -/
theorem track_observes (w : Worker) (groupIdx : UInt32) (subtreeID : Bytes32)
    (hashKey seqNum : UInt64) :
    Observes cfg hashKey seqNum w (w.track cfg groupIdx subtreeID hashKey seqNum env) :=
  ⟨_, rfl, rfl, rfl⟩

/-- Header egress leaves the tracker alone. -/
theorem tracker_emitBlockHeader (bf : BlockFrame) :
    (w.emitBlockHeader cfg bf env).1.tracker = w.tracker := by
  rw [emitBlockHeader]
  split
  · rfl
  split
  · rfl
  split
  · rfl
  · dsimp only
    split <;> rfl

/-- A stamped block control frame is observed. -/
theorem forwardBlock_observes (raw : Bytes) (bf : BlockFrame) (hs : bf.seqNum ≠ 0) :
    Observes cfg bf.hashKey bf.seqNum w (w.forwardBlock cfg raw bf env).1 := by
  rw [forwardBlock]
  dsimp only
  rw [if_pos hs]
  split
  · exact (track_observes _ _ _ _ _).congr (tracker_emitBlockHeader bf)
  · exact (track_observes _ _ _ _ _).congr rfl

/-- A stamped subtree data frame is observed. -/
theorem forwardSubtreeData_observes (raw : Bytes) (sf : SubtreeDataFrame) (hs : sf.seqNum ≠ 0) :
    Observes cfg sf.hashKey sf.seqNum w (w.forwardSubtreeData cfg raw sf env).1 := by
  rw [forwardSubtreeData]
  dsimp only
  rw [if_pos hs]
  exact (track_observes _ _ _ _ _).congr rfl

/-- The lookup of a frame changes the duplicate set only. -/
theorem suppress_fst (groupIdx : UInt32) (f : Frame) :
    (w.suppress groupIdx f env).1 =
      { w with dedupSet := (w.suppress groupIdx f env).1.dedupSet } := by
  rw [suppress]
  split
  · rfl
  · split <;> rfl

/-- A stamped frame that passes is observed, as a duplicate too. -/
theorem processTransaction_observes (raw : Bytes) {f : Frame} (hpass : Passes cfg w f env)
    (hstamped : f.Stamped) :
    Observes cfg f.hashKey f.seqNum w (w.processTransaction cfg raw f env).1 := by
  have hsup : (w.suppress (cfg.codec.groupIndex f.txID) f env).1.tracker = w.tracker := by
    rw [suppress_fst]
  cases hdup : (w.suppress (cfg.codec.groupIndex f.txID) f env).2 with
  | true =>
      rw [processTransaction_of_dup hpass hdup]
      exact (track_observes _ _ _ _ _).congr hsup
  | false =>
      rw [processTransaction_of_fresh hpass hdup]
      dsimp only
      obtain ⟨hver, hs⟩ := hstamped
      rw [if_pos ⟨hver, hs⟩]
      exact (track_observes _ _ _ _ _).congr hsup

variable (cfg w env) in
/-- A transaction frame leaves filter and buffer alone. -/
theorem processTransaction_filt_reassemBuf (raw : Bytes) (f : Frame) :
    (w.processTransaction cfg raw f env).1.filt = w.filt ∧
      (w.processTransaction cfg raw f env).1.reassemBuf = w.reassemBuf := by
  have hsup : (w.suppress (cfg.codec.groupIndex f.txID) f env).1.filt = w.filt ∧
      (w.suppress (cfg.codec.groupIndex f.txID) f env).1.reassemBuf = w.reassemBuf := by
    rw [suppress_fst]
    exact ⟨rfl, rfl⟩
  by_cases hpass : Passes cfg w f env
  · cases hdup : (w.suppress (cfg.codec.groupIndex f.txID) f env).2 with
    | true =>
        rw [processTransaction_of_dup hpass hdup]
        exact hsup
    | false =>
        rw [processTransaction_of_fresh hpass hdup]
        dsimp only
        split <;> exact hsup
  · rw [(processTransaction_of_not_passes raw hpass).1]
    exact ⟨rfl, rfl⟩

/-- The worker hands a completed message on: a transaction passes the filter, and the message can
be encoded again. -/
def Forwards (cfg : WorkerConfig) (filt : Filter) (env : Env) :
    Reassembly.Event → Prop
  | .complete f =>
      filt.allow env.filterNow (cfg.codec.groupIndex f.txID) f = none ∧
        (cfg.codec.encode f (headerSize + f.payload.length)).isSome
  | .completeBlock bf => (cfg.codec.encodeBlock bf (headerSize + bf.payload.length)).isSome
  | .completeSubtree sf => (cfg.codec.encodeSubtreeData sf (headerSize + sf.payload.length)).isSome
  | _ => True

/-- A message that is handed on is observed, under the number of the fragment its header is
from. -/
theorem deliver_observes {P : Bytes} (hfwd : Forwards cfg w.filt env (message ff P))
    (hs : ff.seqNum ≠ 0) :
    Observes cfg ff.hashKey ff.seqNum w (w.deliver cfg env (message ff P)).1 := by
  by_cases hV4 : ff.origFrameVer = frameVerV4
  · rw [message, if_pos hV4] at hfwd ⊢
    obtain ⟨raw, hraw⟩ := Option.isSome_iff_exists.mp hfwd
    rw [deliver, deliverReassembledBlock, hraw]
    exact forwardBlock_observes raw ⟨ff.msgType, ff.txID, ff.hashKey, ff.seqNum, P⟩ hs
  by_cases hV5 : ff.origFrameVer = frameVerV5
  · rw [message, if_neg hV4, if_pos hV5] at hfwd ⊢
    obtain ⟨raw, hraw⟩ := Option.isSome_iff_exists.mp hfwd
    rw [deliver, deliverReassembledSubtreeData, hraw]
    exact forwardSubtreeData_observes raw ⟨ff.msgType, ff.txID, ff.hashKey, ff.seqNum, P⟩ hs
  · rw [message, if_neg hV4, if_neg hV5] at hfwd ⊢
    obtain ⟨hallow, hfwd⟩ := hfwd
    obtain ⟨raw, hraw⟩ := Option.isSome_iff_exists.mp hfwd
    rw [deliver, deliverReassembled_of_allowed hallow hraw]
    dsimp only
    rw [if_pos hs]
    exact (track_observes _ _ _ _ _).congr rfl

end Worker

/-! ### Streams -/

/-- A datagram, and what its environment decides while it is processed. -/
structure Datagram where
  raw : Bytes
  env : Env

namespace Datagram

/-- The datagram as an operation of a worker. -/
def op (d : Datagram) : Worker.Op := .datagram d.raw d.env

/-- The fragment the reassembly buffer gets from a datagram, with the clock reading. -/
def observation (c : Codec) (d : Datagram) : Option Reassembly.Observation :=
  (c.fragment d.raw).map fun ff => (d.env.bufferNow, ff)

/-- The fragments the reassembly buffer gets from some datagrams. -/
def observations (c : Codec) (ds : List Datagram) : List Reassembly.Observation :=
  ds.filterMap (observation c)

/-- The payload the fragments add up to, in the order of the datagrams. -/
def payload (c : Codec) (ds : List Datagram) : Bytes :=
  ((observations c ds).map fun o => o.2.fragData).flatten

end Datagram

/-- The datagrams are the fragments of one message, complete and in order, on the flow `h` and
numbered from `seq`. The slot does not expire before the last one, and the message may be handed
on. -/
structure FragmentSet (cfg : WorkerConfig) (filt : Filter) (h : UInt64) (seq : ℕ)
    (ds : List Datagram) : Prop where
  read : ∀ d ∈ ds, (d.observation cfg.codec).isSome
  split : ∃ id ver msgType, Reassembly.Split id (Datagram.payload cfg.codec ds) ver msgType
    ((Datagram.observations cfg.codec ds).map Prod.snd)
  numbered : ∀ p ∈ (Datagram.observations cfg.codec ds).zipIdx seq,
    p.1.2.hashKey = h ∧ p.1.2.seqNum.toNat = p.2
  kept : ∀ first ∈ (Datagram.observations cfg.codec ds).head?,
    ∀ o ∈ Datagram.observations cfg.codec ds, o.1 ≤ first.1 + cfg.reassembly.ttl
  forwarded : ∀ first ∈ (Datagram.observations cfg.codec ds).head?, ∀ d ∈ ds.getLast?,
    Worker.Forwards cfg filt d.env
      (Reassembly.message first.2 (Datagram.payload cfg.codec ds))

/-- A message of a stream: a whole frame, or a set of fragments. -/
inductive Message
  | whole (d : Datagram)
  | fragments (ds : List Datagram)

namespace Message

/-- The datagrams of a message, in order. -/
def datagrams : Message → List Datagram
  | .whole d => [d]
  | .fragments ds => ds

/-- How many sequence numbers the message takes. -/
def size (m : Message) : ℕ := m.datagrams.length

/-- The message is complete on the flow `h`, its datagrams are numbered from `seq`, and it is
allowed by the filter. -/
def Numbered (cfg : WorkerConfig) (filt : Filter) (h : UInt64) (seq : ℕ) : Message → Prop
  | .whole d => ∃ f, cfg.codec.transaction d.raw = some f ∧ f.version = frameVerV2 ∧
      f.hashKey = h ∧ f.seqNum.toNat = seq ∧
      filt.allow d.env.filterNow (cfg.codec.groupIndex f.txID) f = none
  | .fragments ds => FragmentSet cfg filt h seq ds

/-- The message passes payload verification, if that is enabled. -/
def Verified (cfg : WorkerConfig) : Message → Prop
  | .whole d => ∀ f ∈ cfg.codec.transaction d.raw, cfg.verifyPayloadHash = true →
      Reassembly.sha256d cfg.codec.sha256 f.payload = f.txID
  | .fragments ds => ∀ first ∈ (Datagram.observations cfg.codec ds).head?,
      cfg.reassembly.Verifies cfg.codec.sha256 first.2.origFrameVer first.2.txID
        (Datagram.payload cfg.codec ds)

instance (cfg : WorkerConfig) : ∀ m : Message, Decidable (m.Verified cfg)
  | .whole d => inferInstanceAs (Decidable (∀ f ∈ cfg.codec.transaction d.raw, _ → _))
  | .fragments ds =>
      inferInstanceAs (Decidable (∀ first ∈ (Datagram.observations cfg.codec ds).head?, _))

end Message

/-- A loss-free stream on the flow `h` that starts with the number `seq`. -/
def Stream (cfg : WorkerConfig) (filt : Filter) (h : UInt64) : ℕ → List Message → Prop
  | _, [] => True
  | seq, m :: ms => m.Numbered cfg filt h seq ∧ Stream cfg filt h (seq + m.size) ms

/-- The sequence numbers that the tracker gets to see. -/
def seen (cfg : WorkerConfig) : ℕ → List Message → List ℕ
  | _, [] => []
  | seq, m :: ms => (if m.Verified cfg then [seq] else []) ++ seen cfg (seq + m.size) ms

namespace Worker

open Reassembly (Observation Silent deliveries message)

variable {cfg : WorkerConfig} {w : Worker} {b : Reassembly.Buffer} {h : UInt64} {seq : ℕ}
  {ds : List Datagram} {d : Datagram} {os : List Observation} {m : Message}

/-- Every datagram is a fragment. -/
theorem map_observation {c : Codec} (hread : ∀ d ∈ ds, (d.observation c).isSome) :
    ds.map (Datagram.observation c) = (Datagram.observations c ds).map some := by
  induction ds with
  | nil => rfl
  | cons d ds ih =>
      obtain ⟨o, ho⟩ := Option.isSome_iff_exists.mp (hread d List.mem_cons_self)
      rw [Datagram.observations, List.filterMap_cons_some ho, List.map_cons, List.map_cons, ho]
      exact congrArg _ (ih fun d' hd' => hread d' (List.mem_cons_of_mem _ hd'))

/-- One datagram that is a fragment. -/
theorem step_of_observation {o : Observation} (hb : w.reassemBuf = some b)
    (ho : d.observation cfg.codec = some o) :
    Worker.step cfg w d.op =
      { w with
        reassemBuf := some (Reassembly.step cfg.reassembly cfg.codec.sha256 b o).1 }.deliverAll cfg
        d.env (Reassembly.step cfg.reassembly cfg.codec.sha256 b o).2 := by
  obtain ⟨ff, hff, rfl⟩ := Option.map_eq_some_iff.mp ho
  exact processFrame_of_fragment hff hb

/-- Fragments that deliver nothing only reach the buffer. -/
theorem after_of_silent (hb : w.reassemBuf = some b)
    (hread : ds.map (Datagram.observation cfg.codec) = os.map some)
    (hsilent : Machine.Guarded
      (Machine.next (Reassembly.step cfg.reassembly cfg.codec.sha256))
      (Silent cfg.reassembly cfg.codec.sha256) b os) :
    w.after cfg (ds.map Datagram.op) =
      { w with
        reassemBuf := some (Machine.run
          (Machine.next (Reassembly.step cfg.reassembly cfg.codec.sha256)) b os) } := by
  induction ds generalizing w b os with
  | nil =>
      obtain rfl := List.map_eq_nil_iff.mp hread.symm
      rw [Machine.run_nil, ← hb]
      rfl
  | cons d ds ih =>
      obtain ⟨o, os, rfl⟩ : ∃ o os', os = o :: os' := by
        cases os with
        | nil => cases hread
        | cons o os => exact ⟨o, os, rfl⟩
      obtain ⟨ho, hread⟩ := List.cons.inj hread
      have hstep : (Worker.step cfg w d.op).1 =
          { w with
            reassemBuf := some (Reassembly.step cfg.reassembly cfg.codec.sha256 b o).1 } := by
        rw [step_of_observation hb ho, deliverAll_of_silent hsilent.1]
      have hrest := ih (w := (Worker.step cfg w d.op).1) (by rw [hstep]) hread hsilent.2
      rw [hstep] at hrest
      rw [Worker.after, List.map_cons, Machine.run_cons, Machine.next, hstep]
      exact hrest

/-- The worker has the filter `filt` and a reassembly buffer without open slots. -/
structure Ready (filt : Filter) (w : Worker) : Prop where
  filt : w.filt = filt
  idle : ∃ b, w.reassemBuf = some b ∧ b.Idle

/-- **What a message does**, when it comes in one piece: the tracker sees it with its last datagram
or not at all, under its first number, and the worker is ready for the next one. -/
structure Handles (cfg : WorkerConfig) (filt : Filter) (h : UInt64) (seq : ℕ) (m : Message)
    (w : Worker) : Prop where
  quiet : ∀ ds, ds <+: m.datagrams → ds ≠ m.datagrams →
    (w.after cfg (ds.map Datagram.op)).tracker = w.tracker
  ready : Ready filt (w.after cfg (m.datagrams.map Datagram.op))
  observed : m.Verified cfg → ∃ n, n.toNat = seq ∧
    Observes cfg h n w (w.after cfg (m.datagrams.map Datagram.op))
  unobserved : ¬ m.Verified cfg →
    (w.after cfg (m.datagrams.map Datagram.op)).tracker = w.tracker

variable {filt : Filter}

/-- A number above zero is the number of a stamped message. -/
theorem ne_zero_of_toNat {n : UInt64} (hn : n.toNat = seq) (hseq : 0 < seq) : n ≠ 0 := by
  rintro rfl
  exact Nat.lt_irrefl _ (hn ▸ hseq)

/-- A whole frame. -/
theorem handles_whole (hready : Ready filt w) (hm : (Message.whole d).Numbered cfg filt h seq)
    (hseq : 0 < seq) : Handles cfg filt h seq (.whole d) w := by
  obtain ⟨f, hf, hver, rfl, hnum, hallow⟩ := hm
  have hafter : w.after cfg ((Message.whole d).datagrams.map Datagram.op) =
      (w.processTransaction cfg d.raw f d.env).1 := by
    rw [← processFrame_of_transaction hf]
    rfl
  obtain ⟨hfilt, hbuf⟩ := processTransaction_filt_reassemBuf cfg w d.env d.raw f
  refine ⟨?_, ?_, ?_, ?_⟩
  · intro ds hds hne
    rcases List.prefix_cons_iff.mp hds with rfl | ⟨ds', rfl, hds'⟩
    · rfl
    · rw [List.prefix_nil.mp hds'] at hne
      exact absurd rfl hne
  · rw [hafter]
    exact ⟨hfilt.trans hready.filt, by rw [hbuf]; exact hready.idle⟩
  · intro hverified
    have hpass : Passes cfg w f d.env := by
      refine ⟨fun hbad => hbad.2 (hverified f hf hbad.1.1), ?_⟩
      rw [hready.filt, hallow]
    rw [hafter]
    exact ⟨f.seqNum, hnum,
      processTransaction_observes d.raw hpass ⟨hver, ne_zero_of_toNat hnum hseq⟩⟩
  · intro hunverified
    have hdrop : ¬ Passes cfg w f d.env := by
      intro hpass
      refine hunverified ?_
      intro f' hf' hverify
      rw [hf] at hf'
      obtain rfl := Option.some.inj hf'
      exact not_not.mp fun hne => hpass.1 ⟨⟨hverify, hver⟩, hne⟩
    rw [hafter, (processTransaction_of_not_passes d.raw hdrop).1]

/-- The datagrams of a set reach the buffer only, and the last one completes the message. -/
theorem after_fragments (hreg : ∀ ver, cfg.reassembly.registered ver = true)
    (hb : w.reassemBuf = some b) (hidle : b.Idle)
    (hset : FragmentSet cfg filt h seq (ds ++ [d])) :
    (∀ ds', ds' <+: ds → (w.after cfg (ds'.map Datagram.op)).tracker = w.tracker) ∧
      ∃ b' : Reassembly.Buffer, b'.Idle ∧
        ∃ first ∈ (Datagram.observations cfg.codec (ds ++ [d])).head?,
          w.after cfg ((ds ++ [d]).map Datagram.op) =
            ({ w with reassemBuf := some b' }.deliverAll cfg d.env
              (if (Message.fragments (ds ++ [d])).Verified cfg then
                [message first.2 (Datagram.payload cfg.codec (ds ++ [d]))]
              else [.hashMismatch])).1 := by
  obtain ⟨id, ver, msgType, hsplit⟩ := hset.split
  have hsequence : Reassembly.InSequence cfg.reassembly id (Datagram.payload cfg.codec (ds ++ [d]))
      ver msgType (Datagram.observations cfg.codec (ds ++ [d])) := ⟨hsplit, hset.kept⟩
  obtain ⟨o, ho⟩ := Option.isSome_iff_exists.mp (hset.read d (by simp))
  have hos : Datagram.observations cfg.codec (ds ++ [d]) =
      Datagram.observations cfg.codec ds ++ [o] := by
    rw [Datagram.observations, List.filterMap_append, List.filterMap_cons_some ho]
    rfl
  have hread : ∀ d' ∈ ds, (d'.observation cfg.codec).isSome :=
    fun d' hd' => hset.read d' (List.mem_append_left _ hd')
  rw [hos] at hsequence
  obtain ⟨-, hsilent, -⟩ := hsequence.unfinished cfg.codec.sha256 hidle
  constructor
  · rintro ds' ⟨ds'', rfl⟩
    rw [Datagram.observations, List.filterMap_append] at hsilent
    have hread' := map_observation fun d' hd' => hread d' (List.mem_append_left _ hd')
    rw [after_of_silent hb hread' hsilent.left]
  · obtain ⟨hidle', evs, s, first, hfirst, hevs, hevents, hopened, hpayload⟩ :=
      hsequence.finished cfg.codec.sha256 hidle
    rw [← hos] at hfirst
    have hverified : (Message.fragments (ds ++ [d])).Verified cfg ↔
        cfg.reassembly.Verifies cfg.codec.sha256 first.2.origFrameVer first.2.txID s.payload := by
      rw [hpayload]
      constructor
      · exact fun hall => hall first hfirst
      · intro hver first' hfirst'
        obtain rfl := Option.mem_unique hfirst hfirst'
        exact hver
    refine ⟨_, hidle', first, hfirst, ?_⟩
    rw [List.map_append, List.map_cons, List.map_nil, Worker.after_snoc,
      after_of_silent hb (map_observation hread) hsilent, step_of_observation rfl ho, hevents,
      deliverAll_append, deliverAll_of_silent hevs,
      Reassembly.Slot.complete_of_openedBy cfg.codec.sha256 (hreg _) hopened,
      if_congr hverified rfl rfl, hpayload]

/-- A set of fragments. -/
theorem handles_fragments (hreg : ∀ ver, cfg.reassembly.registered ver = true)
    (hready : Ready filt w) (hset : FragmentSet cfg filt h seq ds) (hseq : 0 < seq) :
    Handles cfg filt h seq (.fragments ds) w := by
  obtain ⟨b, hb, hidle⟩ := hready.idle
  obtain rfl | ⟨ds, d, rfl⟩ := List.eq_nil_or_concat' ds
  · obtain ⟨id, ver, msgType, hsplit⟩ := hset.split
    exact absurd rfl hsplit.ne_nil
  obtain ⟨hquiet, b', hidle', first, hfirst, hafter⟩ := after_fragments hreg hb hidle hset
  refine ⟨?_, ?_, ?_, ?_⟩
  · intro ds' hds' hne
    rcases List.prefix_concat_iff.mp hds' with heq | hds'
    · exact absurd heq hne
    · exact hquiet ds' hds'
  · rw [Message.datagrams, hafter]
    exact ⟨(deliverAll_sameCore _).filt.trans hready.filt, b', (deliverAll_sameCore _).reassemBuf,
      hidle'⟩
  · intro hverified
    obtain ⟨rest, hrest⟩ := List.head?_eq_some_iff.mp hfirst
    obtain ⟨hkey, hnum⟩ := hset.numbered (first, seq) (by rw [hrest, List.zipIdx_cons]; simp)
    have hfwd := hset.forwarded first hfirst d (by simp)
    rw [← hready.filt] at hfwd
    rw [if_pos hverified] at hafter
    have hobs := deliver_observes (w := { w with reassemBuf := some b' }) hfwd
      (ne_zero_of_toNat hnum hseq)
    refine ⟨first.2.seqNum, hnum, ?_⟩
    rw [Message.datagrams, hafter, ← hkey]
    exact hobs.congr rfl
  · intro hunverified
    rw [if_neg hunverified] at hafter
    rw [Message.datagrams, hafter]
    rfl

/-- **One message of a stream.** -/
theorem handles_message (hreg : ∀ ver, cfg.reassembly.registered ver = true)
    (hready : Ready filt w) (hm : m.Numbered cfg filt h seq) (hseq : 0 < seq) :
    Handles cfg filt h seq m w := by
  cases m with
  | whole d => exact handles_whole hready hm hseq
  | fragments ds => exact handles_fragments hreg hready hm hseq

/-! ### Gaps along a stream -/

/-- The tracker has not seen the flow, or follows it up to the number `last`; and it has no
gaps. -/
def Follows (h : UInt64) (t : Tracker) : Option ℕ → Prop
  | none => t.flows.lookup h = none ∧ t.pendingGaps = 0
  | some last => t.At h last 0

/-- A tracker that follows a flow without gaps has none pending. -/
theorem Follows.pendingGaps {t : Tracker} {last : Option ℕ} (hf : Follows h t last) :
    t.pendingGaps = 0 := by
  cases last with
  | none => exact hf.2
  | some last => exact hf.pending

variable (cfg) in
/-- The tracker after the next message of the flow. -/
theorem Follows.observe {t : Tracker} {last : Option ℕ} {a : Arrival} (hf : Follows h t last)
    (hlast : ∀ n ∈ last, 0 < n ∧ n < seq) (hkey : a.hashKey = h) (hnum : a.seqNum.toNat = seq)
    (hseq : 0 < seq) :
    (t.observe cfg.tracker a).At h seq (last.elim 0 fun n => seq - n - 1) := by
  subst hkey hnum
  cases last with
  | none => exact .first cfg.tracker hf.1 hf.2 (ne_zero_of_toNat rfl hseq)
  | some n =>
      obtain ⟨hpos, hlt⟩ := hlast n rfl
      have hnext := Tracker.At.next cfg.tracker hf hpos rfl hlt
      rwa [Nat.zero_add] at hnext

/-- `PendingGaps` is 0 after each of the datagrams, and before the first. -/
def Gapless (cfg : WorkerConfig) (w : Worker) (ds : List Datagram) : Prop :=
  ∀ ds', ds' <+: ds →
    (w.after cfg (ds'.map Datagram.op)).tracker.map Tracker.pendingGaps = some 0

/-- A message registers no gap before its last datagram. -/
theorem Handles.gapless_iff (hm : Handles cfg filt h seq m w)
    (hzero : w.tracker.map Tracker.pendingGaps = some 0) :
    Gapless cfg w (m.datagrams ++ ds) ↔
      Gapless cfg (w.after cfg (m.datagrams.map Datagram.op)) ds := by
  have hafter : ∀ ds', w.after cfg ((m.datagrams ++ ds').map Datagram.op) =
      (w.after cfg (m.datagrams.map Datagram.op)).after cfg (ds'.map Datagram.op) := by
    intro ds'
    rw [List.map_append]
    exact Machine.run_append _ _ _ _
  constructor
  · intro hall ds' hds'
    rw [← hafter]
    exact hall _ ((List.prefix_append_right_inj _).mpr hds')
  · intro hall ds' hds'
    by_cases hpart : ds' <+: m.datagrams ∧ ds' ≠ m.datagrams
    · rw [hm.quiet ds' hpart.1 hpart.2, hzero]
    · have hfull : m.datagrams <+: ds' := by
        rcases List.prefix_or_prefix_of_prefix hds' (List.prefix_append _ _) with hle | hle
        · exact (not_not.mp fun hne => hpart ⟨hle, hne⟩) ▸ List.prefix_rfl
        · exact hle
      obtain ⟨tail, rfl⟩ := hfull
      rw [hafter]
      exact hall tail ((List.prefix_append_right_inj _).mp hds')

/-- A message takes a number. -/
theorem size_pos (hm : m.Numbered cfg filt h seq) : 0 < m.size := by
  cases m with
  | whole d => exact Nat.one_pos
  | fragments ds =>
      obtain ⟨id, ver, msgType, hsplit⟩ := FragmentSet.split hm
      refine List.length_pos_iff.mpr ?_
      rintro rfl
      exact hsplit.ne_nil rfl

/-- A number continues a run of consecutive numbers when it skips none after the last one. -/
theorem isChain_append_iff {last : Option ℕ} {n : ℕ} (hlast : ∀ k ∈ last, k < n) (ns : List ℕ) :
    ((last.toList ++ n :: ns).IsChain fun n n' => n' = n + 1) ↔
      (last.elim 0 fun k => n - k - 1) = 0 ∧ (n :: ns).IsChain fun n n' => n' = n + 1 := by
  cases last with
  | none => exact (and_iff_right rfl).symm
  | some k =>
      refine List.isChain_cons_cons.trans (and_congr_left' ?_)
      have hlt := hlast k rfl
      rw [Option.elim_some]
      omega

/-- **A stream registers no gap exactly when the numbers that reach the tracker are
consecutive.** -/
theorem gapless_iff (hreg : ∀ ver, cfg.reassembly.registered ver = true) {ms : List Message}
    {t : Tracker} {last : Option ℕ} (hready : Ready filt w) (ht : w.tracker = some t)
    (hf : Follows h t last) (hlast : ∀ n ∈ last, 0 < n ∧ n < seq) (hseq : 0 < seq)
    (hstream : Stream cfg filt h seq ms) :
    Gapless cfg w (ms.flatMap Message.datagrams) ↔
      (last.toList ++ seen cfg seq ms).IsChain fun n n' => n' = n + 1 := by
  -- the tracker after the messages so far is known by the number of the last one it has seen
  induction ms generalizing w t seq last with
  | nil =>
      have hchain : (last.toList ++ seen cfg seq []).IsChain fun n n' => n' = n + 1 := by
        cases last with
        | none => exact List.isChain_nil
        | some n => exact List.isChain_singleton n
      refine iff_of_true ?_ hchain
      intro ds' hds'
      rw [List.prefix_nil.mp hds']
      exact (congrArg (Option.map _) ht).trans (congrArg some hf.pendingGaps)
  | cons m ms ih =>
      obtain ⟨hm, hstream⟩ := hstream
      have hsize := size_pos hm
      have hhandles := handles_message hreg hready hm hseq
      have hzero : w.tracker.map Tracker.pendingGaps = some 0 := by
        rw [ht, Option.map_some, hf.pendingGaps]
      rw [List.flatMap_cons, hhandles.gapless_iff hzero, seen]
      by_cases hverified : m.Verified cfg
      · obtain ⟨_, rfl, a, hkey, rfl, htracker⟩ := hhandles.observed hverified
        rw [ht, Option.map_some] at htracker
        have hat := hf.observe cfg hlast hkey rfl hseq
        rw [if_pos hverified]
        rw [List.singleton_append, isChain_append_iff fun n hn => (hlast n hn).2]
        by_cases hgap : (last.elim 0 fun n => a.seqNum.toNat - n - 1) = 0
        · rw [hgap] at hat
          have hf' : Follows h (t.observe cfg.tracker a) (some a.seqNum.toNat) := hat
          rw [ih hhandles.ready htracker hf' (by rintro _ ⟨⟩; omega) (by omega) hstream]
          exact (and_iff_right hgap).symm
        · refine iff_of_false ?_ fun hchain => hgap hchain.1
          intro hall
          have hnow := hall [] List.nil_prefix
          rw [show (w.after cfg _).after cfg ([].map Datagram.op) = w.after cfg _ from rfl,
            htracker, Option.map_some, hat.pending] at hnow
          exact hgap (Option.some.inj hnow)
      · rw [if_neg hverified, List.nil_append]
        have htracker := (hhandles.unobserved hverified).trans ht
        refine ih hhandles.ready htracker hf ?_ (by omega) hstream
        intro n hn
        have := hlast n hn
        omega

/-- The numbers that reach the tracker, when all messages do: each message must leave no number
over for the next one to skip. -/
theorem seen_isChain_iff {ms : List Message} (hverified : ∀ m ∈ ms, m.Verified cfg) :
    ((seen cfg seq ms).IsChain fun n n' => n' = n + 1) ↔ ∀ m ∈ ms.dropLast, m.size = 1 := by
  induction ms generalizing seq with
  | nil => exact iff_of_true List.isChain_nil fun _ hm => (nomatch hm)
  | cons m ms ih =>
      rw [seen, if_pos (hverified m List.mem_cons_self)]
      cases ms with
      | nil => exact iff_of_true (List.isChain_singleton seq) fun _ hm => (nomatch hm)
      | cons m' ms =>
          have hrest : ((seen cfg (seq + m.size) (m' :: ms)).IsChain fun n n' => n' = n + 1) ↔
              ∀ m'' ∈ (m' :: ms).dropLast, m''.size = 1 :=
            ih fun m'' hm'' => hverified m'' (List.mem_cons_of_mem _ hm'')
          rw [seen, if_pos (hverified m' (by simp))] at hrest ⊢
          rw [List.dropLast_cons_cons, List.forall_mem_cons, ← hrest]
          refine (List.isChain_cons_cons (R := fun n n' => n' = n + 1)).trans (and_congr ?_ Iff.rfl)
          omega

/-- **When a loss-free stream registers no gap.** A worker that has not seen the flow processes
whole frames and complete sets of fragments in order, each datagram with the next number.
`PendingGaps` stays 0 exactly when the numbers that reach the tracker are consecutive; as long as
all messages pass payload verification, exactly when none but the last message has more than one
datagram. -/
theorem no_phantom_gaps_iff (cfg : WorkerConfig)
    (hreg : ∀ ver, cfg.reassembly.registered ver = true) (w : Worker) (t : Tracker)
    (b : Reassembly.Buffer) (ht : w.tracker = some t) (hb : w.reassemBuf = some b)
    (hidle : b.Idle) (h : UInt64) (hnew : t.flows.lookup h = none) (hzero : t.pendingGaps = 0)
    (seq : ℕ) (hseq : 0 < seq) (ms : List Message) (hstream : Stream cfg w.filt h seq ms) :
    (Gapless cfg w (ms.flatMap Message.datagrams) ↔
      (seen cfg seq ms).IsChain fun n n' => n' = n + 1) ∧
    ((∀ m ∈ ms, m.Verified cfg) →
      (Gapless cfg w (ms.flatMap Message.datagrams) ↔ ∀ m ∈ ms.dropLast, m.size = 1)) := by
  have hf : Follows h t none := ⟨hnew, hzero⟩
  have hiff := gapless_iff hreg ⟨rfl, b, hb, hidle⟩ ht hf (fun _ hn => (nomatch hn)) hseq hstream
  exact ⟨hiff, fun hverified => hiff.trans (seen_isChain_iff hverified)⟩

end Worker

/-! ### Four datagrams of one flow -/

/-- Fragment `i` of two of a transaction. -/
def testFrag (i : UInt16) (seqNum : UInt64) (data : Bytes) : FragFrame :=
  { Reassembly.subtreeFrag 0 i data with seqNum := seqNum, origFrameVer := frameVerV2 }

/-- The datagram of a fragment. The two are numbered 2 and 3. -/
def testFragRaw (i : UInt8) : Bytes :=
  Wire.fragment (testFrag i.toUInt16 (2 + i.toUInt64) [0xC0 + i])

namespace Worker

/-- A whole frame is a message of the stream. -/
theorem whole_numbered {f : Frame} (env : Env)
    (hf : Codec.wire.transaction (testRaw f) = some f) (hver : f.version = frameVerV2)
    (hkey : f.hashKey = 1) :
    (Message.whole ⟨testRaw f, env⟩).Numbered (testConfig Codec.wire) testWorker.filt 1
      f.seqNum.toNat := ⟨f, hf, hver, hkey, rfl, rfl⟩

/-- What the buffer gets from the two fragments. -/
theorem observations_fragments :
    Datagram.observations Codec.wire [⟨testFragRaw 0, Env.test 1⟩, ⟨testFragRaw 1, Env.test 2⟩] =
      [(1, testFrag 0 2 [0xC0]), (2, testFrag 1 3 [0xC1])] := by
  decide +kernel

/-- The two fragments are a message of the stream. -/
theorem fragments_numbered :
    (Message.fragments [⟨testFragRaw 0, Env.test 1⟩, ⟨testFragRaw 1, Env.test 2⟩]).Numbered
      (testConfig Codec.wire) testWorker.filt 1 2 where
  read := by
    intro d hd
    rcases List.mem_cons.mp hd with rfl | hd
    · decide +kernel
    · rw [List.mem_singleton.mp hd]
      decide +kernel
  split := by
    refine ⟨Bytes32.ofByte 7, frameVerV2, 0, ?_⟩
    rw [Datagram.payload, testConfig, observations_fragments]
    exact ⟨by decide, by decide, by decide, by decide, by decide, by decide⟩
  numbered := by
    rw [testConfig, observations_fragments]
    decide
  kept := by
    rw [testConfig, observations_fragments]
    decide
  forwarded := by
    rw [Datagram.payload, testConfig, observations_fragments]
    rintro _ ⟨⟩ _ ⟨⟩
    exact ⟨rfl, rfl⟩

/-- Two fragments between two whole frames, nothing lost and nothing reordered: the number of the
second fragment is taken for lost. -/
theorem phantom_gap :
    Stream (testConfig Codec.wire) testWorker.filt 1 1
      [.whole ⟨testRaw (testFrame 1 1 0xA), Env.test 0⟩,
        .fragments [⟨testFragRaw 0, Env.test 1⟩, ⟨testFragRaw 1, Env.test 2⟩],
        .whole ⟨testRaw (testFrame 1 4 0xB), Env.test 3⟩] ∧
    (testWorker.after (testConfig Codec.wire)
      [.datagram (testRaw (testFrame 1 1 0xA)) (Env.test 0),
        .datagram (testFragRaw 0) (Env.test 1), .datagram (testFragRaw 1) (Env.test 2),
        .datagram (testRaw (testFrame 1 4 0xB)) (Env.test 3)]).tracker.map Tracker.pendingGaps =
      some 1 := by
  refine ⟨⟨?_, fragments_numbered, ?_, trivial⟩, by decide +kernel⟩
  · exact whole_numbered (f := testFrame 1 1 0xA) _ (by decide +kernel) rfl rfl
  · exact whole_numbered (f := testFrame 1 4 0xB) _ (by decide +kernel) rfl rfl

/-- Without the last frame the stream registers no gap. -/
theorem no_phantom_gaps_iff_fragments_last :
    Gapless (testConfig Codec.wire) testWorker
      [⟨testRaw (testFrame 1 1 0xA), Env.test 0⟩, ⟨testFragRaw 0, Env.test 1⟩,
        ⟨testFragRaw 1, Env.test 2⟩] := by
  have hreg : ∀ ver, (testConfig Codec.wire).reassembly.registered ver = true := by
    intro ver
    rw [Reassembly.Config.registered]
    split
    · rfl
    · split <;> rfl
  have hstream : Stream (testConfig Codec.wire) testWorker.filt 1 1
      [.whole ⟨testRaw (testFrame 1 1 0xA), Env.test 0⟩,
        .fragments [⟨testFragRaw 0, Env.test 1⟩, ⟨testFragRaw 1, Env.test 2⟩]] :=
    ⟨whole_numbered (f := testFrame 1 1 0xA) _ (by decide +kernel) rfl rfl,
      fragments_numbered, trivial⟩
  refine (no_phantom_gaps_iff (testConfig Codec.wire) hreg testWorker Tracker.new
    Reassembly.Buffer.new rfl rfl .new 1 rfl rfl 1 Nat.one_pos _ hstream).1.mpr ?_
  decide +kernel

end Worker

end ShardListener
