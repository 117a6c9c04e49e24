import ShardListener.Control

/-!
# Merkle Verification of Subtree Data

The SubtreeID of a BRC-132 frame is the Merkle root of its payload. With
`-subtree-data-verify-merkle` the reassembled payload is to be checked against it: `main.go`
sets the flag `verifyMerkle` of every reassembly buffer (`Flags.buffer`), `complete` defers the
check to the callback, and the callback, `DeliverReassembledSubtreeData`, forwards and tracks
whatever it is given. Nothing reads the flag, so it stands apart from the settings that the
functions of the buffer take.

The Merkle root is a parameter, any function of the message type and the payload.

## Main results

* `Flags.verifyMerkle_buffer`: the flag reaches the buffer.
* `Worker.withheld_iff`: a completed frame leaves the worker if it can be encoded.
* `Worker.merkle_enforced_iff`: a run keeps the frames with another root back exactly when it
  completes none that can be encoded.
* `Worker.mismatch_forwarded`: a run that does not.
-/

namespace ShardListener

/-! ### The settings -/

/-- All settings of a reassembly buffer. -/
structure Reassembly.Setup extends Reassembly.Config where
  verifyMerkle : Bool

/-- `SetVerifyMerkle`. -/
def Reassembly.Setup.setVerifyMerkle (s : Setup) (v : Bool) : Setup := { s with verifyMerkle := v }

/-- The flags of the command line that a worker and its buffer take their verification from. -/
structure Flags where
  verifyPayloadHash : Bool
  subtreeDataVerifyMerkle : Bool

namespace Flags

/-- The buffer of `main.go`: the default sizes and the three callbacks of the worker. -/
def buffer (flags : Flags) : Reassembly.Setup :=
  let buf : Reassembly.Setup :=
    { Reassembly.Config.new Reassembly.defaultMaxSlots Reassembly.defaultTTL
        flags.verifyPayloadHash true true true with
      verifyMerkle := false }
  if flags.subtreeDataVerifyMerkle then buf.setVerifyMerkle true else buf

/-- The worker of `main.go`. -/
def worker (flags : Flags) (codec : Codec) (tracker : TrackerConfig) : WorkerConfig where
  codec := codec
  tracker := tracker
  reassembly := flags.buffer.toConfig
  verifyPayloadHash := flags.verifyPayloadHash

/-- The flag reaches the buffer. -/
theorem verifyMerkle_buffer (flags : Flags) :
    flags.buffer.verifyMerkle = flags.subtreeDataVerifyMerkle := by
  rw [buffer]
  split
  · rename_i h
    exact h.symm
  · rename_i h
    exact (Bool.eq_false_of_not_eq_true h).symm

end Flags

/-! ### Completed frames -/

/-- The subtree data frame of a full slot. -/
def Reassembly.Slot.subtreeData (s : Slot) : SubtreeDataFrame where
  msgType := s.msgType
  subtreeID := s.txID
  hashKey := s.hashKey
  seqNum := s.seqNum
  payload := s.payload

namespace Worker

variable (cfg : WorkerConfig)

/-- The subtree data frame that an operation completes: its datagram is a fragment that fills
a V5 slot. -/
def completedSubtree (w : Worker) (op : Op) : Option SubtreeDataFrame := do
  let b ← w.reassemBuf
  let o ← op.observation cfg.codec
  let s ← b.slotFor cfg.reassembly o.1 o.2
  let full ← s.filled o.2
  if full.origFrameVer = frameVerV5 then some full.subtreeData else none

/-- The operation sends nothing and leaves the tracker alone. -/
def Withheld (w : Worker) (op : Op) : Prop :=
  egressed (w.step cfg op).2 = [] ∧ (w.step cfg op).1.tracker = w.tracker

/-- A frame that the operation completes with another Merkle root is neither forwarded nor
observed. -/
def EnforcesMerkle (root : UInt8 → Bytes → Bytes32) (w : Worker) (op : Op) : Prop :=
  ∀ sf ∈ w.completedSubtree cfg op, root sf.msgType sf.payload ≠ sf.subtreeID → w.Withheld cfg op

/-- A frame that the operation completes has the right Merkle root, or cannot be encoded. -/
def Consistent (root : UInt8 → Bytes → Bytes32) (w : Worker) (op : Op) : Prop :=
  ∀ sf ∈ w.completedSubtree cfg op, root sf.msgType sf.payload = sf.subtreeID ∨
    cfg.codec.encodeSubtreeData sf (headerSize + sf.payload.length) = none

variable {cfg} {w : Worker} {op : Op} {sf : SubtreeDataFrame}

/-- **What a completed frame causes**: hook calls, and the callback for the frame. -/
theorem step_of_completed (hreg : cfg.reassembly.onCompleteSubtree = true) (hw : w.Buffered)
    (h : sf ∈ w.completedSubtree cfg op) :
    ∃ b env evs, Reassembly.deliveries evs = [] ∧
      w.step cfg op = (w.withBuffer b).deliverAll cfg env (evs ++ [.completeSubtree sf]) := by
  obtain ⟨b, hb, hsound⟩ := hw
  simp only [completedSubtree, Option.mem_def, Option.bind_eq_bind, Option.bind_eq_some_iff,
    Option.ite_none_right_eq_some, Option.some.injEq] at h
  obtain ⟨b', hb', ⟨now, ff⟩, hobs, s, hs, full, hfull, hver, rfl⟩ := h
  obtain rfl : b = b' := Option.some.inj (hb.symm.trans hb')
  cases op with
  | tick env => cases hobs
  | groups op => cases hobs
  | track c => cases hobs
  | datagram raw env =>
      obtain ⟨ff', hff, heq⟩ := Option.map_eq_some_iff.mp hobs
      obtain ⟨rfl, rfl⟩ := Prod.mk.inj heq
      obtain ⟨evs, hevs, heq⟩ := @Reassembly.Buffer.observe_events cfg.reassembly cfg.codec.sha256 _
        env.bufferNow ff' hsound
      have hV4 : full.origFrameVer ≠ frameVerV4 := by
        rw [hver]
        decide
      rw [hs, Option.bind_some, hfull, Option.map_some, Option.getD_some, Reassembly.Slot.complete,
        if_neg hV4, if_pos hver, if_pos hreg] at heq
      refine ⟨some (b.observe cfg.reassembly cfg.codec.sha256 env.bufferNow ff').1, env, evs, hevs,
        ?_⟩
      rw [step, processFrame_of_fragment hff hb, Reassembly.step, heq]
      rfl

/-- **A completed frame leaves the worker if it can be encoded**, whatever its Merkle root. -/
theorem withheld_iff (hreg : cfg.reassembly.onCompleteSubtree = true) (hw : w.Buffered)
    (h : sf ∈ w.completedSubtree cfg op) :
    w.Withheld cfg op ↔
      cfg.codec.encodeSubtreeData sf (headerSize + sf.payload.length) = none := by
  obtain ⟨b, env, evs, hevs, heq⟩ := step_of_completed hreg hw h
  rw [Withheld, heq, deliverAll_append, deliverAll_append_effects, egressed_append,
    egressed_of_silent hevs, deliverAll_of_silent hevs, List.nil_append, deliverAll, deliverAll,
    deliver, deliverReassembledSubtreeData]
  cases hraw : cfg.codec.encodeSubtreeData sf (headerSize + sf.payload.length) with
  | none => exact iff_of_true ⟨rfl, rfl⟩ rfl
  | some raw =>
      exact iff_of_false (fun hwith => absurd hwith.1 (List.cons_ne_nil _ _))
        (Option.some_ne_none raw)

/-- An operation enforces the root exactly if what it completes, and can encode, has its root. -/
theorem enforcesMerkle_iff (root : UInt8 → Bytes → Bytes32)
    (hreg : cfg.reassembly.onCompleteSubtree = true) (hw : w.Buffered) (op : Op) :
    w.EnforcesMerkle cfg root op ↔ w.Consistent cfg root op := by
  refine forall₂_congr fun sf hsf => ?_
  rw [withheld_iff hreg hw hsf]
  exact or_iff_not_imp_left.symm

/-- **When Merkle verification is enforced.** A worker and its buffer are wired as in `main.go`,
with Merkle verification enabled. In a run every completed frame with a Merkle root other than
its SubtreeID is kept from egress and tracker exactly when no such frame is completed, apart
from those that cannot be encoded. -/
theorem merkle_enforced_iff (root : UInt8 → Bytes → Bytes32) (codec : Codec)
    (tracker : TrackerConfig) (verifyPayloadHash : Bool) (w : Worker) (ops : List Op) :
    let cfg := Flags.worker ⟨verifyPayloadHash, true⟩ codec tracker
    Machine.Guarded (Machine.next (step cfg)) (EnforcesMerkle cfg root)
        (w.withBuffer (some .new)) ops ↔
      Machine.Guarded (Machine.next (step cfg)) (Consistent cfg root)
        (w.withBuffer (some .new)) ops :=
  Machine.guarded_congr (P := Buffered) ⟨_, rfl, Reassembly.Buffer.Sound.new⟩
    (fun _ op hw => hw.step op) (fun _ op hw => enforcesMerkle_iff root rfl hw op) ops

/-! ### A frame with another root -/

/-- The worker of `main.go` with Merkle verification enabled. -/
def merkleConfig : WorkerConfig := Flags.worker ⟨false, true⟩ Codec.wire Tracker.testConfig

/-- The length of the payload in place of a Merkle root. -/
def lengthRoot (_ : UInt8) (payload : Bytes) : Bytes32 := Bytes32.ofByte (.ofNat payload.length)

/-- A subtree data frame with two hashes. -/
def testSubtreeData : SubtreeDataFrame where
  msgType := 0x01
  subtreeID := Bytes32.ofByte 7
  hashKey := 1
  seqNum := 5
  payload := List.replicate 32 0xA0 ++ List.replicate 32 0xA1

/-- The fragment with hash `i`. -/
def testSubtreeFrag (i : UInt16) : FragFrame :=
  { Reassembly.subtreeFrag 0x01 i (List.replicate 32 (0xA0 + i.toUInt8)) with
    seqNum := 5
    origPayloadLen := 64 }

/-- The worker waits for one more fragment of the frame. -/
def almostComplete : Worker :=
  testWorker.after merkleConfig [.datagram (Wire.fragment (testSubtreeFrag 1)) (Env.test 0)]

/-- The missing fragment. -/
def lastFragment : Op := .datagram (Wire.fragment (testSubtreeFrag 0)) (Env.test 1)

/-- **The flag keeps nothing back.** Merkle verification is enabled, and the second fragment
completes a frame whose SubtreeID is not its root. The frame is sent, and the tracker takes its
sequence number. -/
theorem mismatch_forwarded :
    (Flags.buffer ⟨false, true⟩).verifyMerkle = true ∧
      almostComplete.completedSubtree merkleConfig lastFragment = some testSubtreeData ∧
      lengthRoot testSubtreeData.msgType testSubtreeData.payload ≠ testSubtreeData.subtreeID ∧
      egressed (almostComplete.step merkleConfig lastFragment).2 =
        [.unicast ⟨(Wire.Packet.ofSubtreeData testSubtreeData).fill (headerSize + 64), true⟩] ∧
      (almostComplete.step merkleConfig lastFragment).1.tracker.map
        (fun t => (t.flows.lookup 1).map fun fs => fs.lastSeqNum) = some (some 5) ∧
      ¬ Machine.Guarded (Machine.next (step merkleConfig)) (EnforcesMerkle merkleConfig lengthRoot)
        testWorker
        [.datagram (Wire.fragment (testSubtreeFrag 1)) (Env.test 0), lastFragment] := by
  have hcompleted : almostComplete.completedSubtree merkleConfig lastFragment =
      some testSubtreeData := by decide +kernel
  have hsent : egressed (almostComplete.step merkleConfig lastFragment).2 =
      [.unicast ⟨(Wire.Packet.ofSubtreeData testSubtreeData).fill (headerSize + 64), true⟩] := by
    decide +kernel
  have hroot : lengthRoot testSubtreeData.msgType testSubtreeData.payload ≠
      testSubtreeData.subtreeID := by decide
  refine ⟨rfl, hcompleted, hroot, hsent, by decide +kernel, ?_⟩
  intro henforced
  have hwithheld : almostComplete.Withheld merkleConfig lastFragment :=
    henforced.2.1 testSubtreeData hcompleted hroot
  rw [hwithheld.1] at hsent
  cases hsent

end Worker

end ShardListener
