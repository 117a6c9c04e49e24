import ShardListener.Assembly
import ShardListener.Wire

/-!
# What Duplicate Suppression Suppresses

A worker remembers the keys of the stamped transaction frames it has let through, and
suppresses a frame whose key it remembers. A key has the group index, the subtree id and the
sequence number of a frame; the sequence numbers are counted per flow, and the flow is named
by the `HashKey`, which is not part of the key. So a suppressed frame has the key of an
earlier frame (`key_of_suppressed`), and it is a frame of the same flow only as long as no two
flows of the run use one key (`KeyedByFlow`).

## Main results

* `Remembers.step`: a remembered key is the key of a datagram of the run.
* `suppressed_seen_in_flow`: under `KeyedByFlow` a suppressed frame has been seen before in its
  own flow.
* `other_flow_suppressed`: two senders with one group and subtree suppress each other.
-/

namespace ShardListener

/-- The transaction frame a datagram is taken for. -/
def Codec.transaction (c : Codec) (raw : Bytes) : Option Frame :=
  if c.isBlockFrame raw = true ∨ c.isSubtreeDataFrame raw = true ∨ c.isFragment raw = true then
    none
  else c.decode raw

/-- A BRC-124/BRC-128 frame with a sequence number. -/
def Frame.Stamped (f : Frame) : Prop := f.version = frameVerV2 ∧ f.seqNum ≠ 0

instance (f : Frame) : Decidable f.Stamped := inferInstanceAs (Decidable (_ ∧ _))

/-- The key a frame is looked up with. -/
def Codec.dedupKey (c : Codec) (f : Frame) : DedupKey :=
  ⟨c.groupIndex f.txID, f.subtreeID, f.seqNum⟩

namespace Worker

variable {cfg : WorkerConfig} {w : Worker} {raw : Bytes} {env : Env} {f : Frame}

/-- A datagram that is taken for a transaction frame. -/
theorem processFrame_of_transaction (h : cfg.codec.transaction raw = some f) :
    w.processFrame cfg raw env = w.processTransaction cfg raw f env := by
  rw [Codec.transaction] at h
  split at h
  · cases h
  · rename_i hkind
    obtain ⟨hblock, hkind⟩ := not_or.mp hkind
    obtain ⟨hsubtree, hfrag⟩ := not_or.mp hkind
    rw [processFrame, if_neg hblock, if_neg hsubtree, if_neg hfrag, h]

/-- Any other datagram leaves the duplicate set alone. -/
theorem processFrame_of_not_transaction (h : cfg.codec.transaction raw = none) :
    (w.processFrame cfg raw env).1.dedupSet = w.dedupSet := by
  rw [processFrame]
  split
  · exact (processBlockFrame_sameCore raw).dedupSet
  split
  · exact (processSubtreeDataFrame_sameCore raw).dedupSet
  split
  · rw [processFragment]
    split
    · rfl
    split
    · rfl
    · exact (deliverAll_sameCore _).dedupSet
  · rename_i hblock hsubtree hfrag
    rw [Codec.transaction, if_neg (by simp [hblock, hsubtree, hfrag])] at h
    rw [h]

/-- The frame passes payload verification and filter. -/
def Passes (cfg : WorkerConfig) (w : Worker) (f : Frame) (env : Env) : Prop :=
  ¬ ((cfg.verifyPayloadHash = true ∧ f.version = frameVerV2) ∧
      Reassembly.sha256d cfg.codec.sha256 f.payload ≠ f.txID) ∧
    w.filt.allow env.filterNow (cfg.codec.groupIndex f.txID) f = none

/-! **What a transaction frame does.** It is dropped; or it is a duplicate, and only tracked;
or it is sent on and tracked. -/

/-- A frame that does not pass is counted, and not as a duplicate. -/
theorem processTransaction_of_not_passes (raw : Bytes) (h : ¬ Passes cfg w f env) :
    (w.processTransaction cfg raw f env).1 = w ∧
      ∀ e ∈ (w.processTransaction cfg raw f env).2, ∃ m, e = .count m ∧ m ≠ .frameDeduped := by
  rw [processTransaction]
  dsimp only
  split
  · exact ⟨rfl, by simp⟩
  · rename_i hhash
    cases hallow : w.filt.allow env.filterNow (cfg.codec.groupIndex f.txID) f with
    | none => exact absurd ⟨hhash, hallow⟩ h
    | some reason => exact ⟨rfl, by simp⟩

/-- A duplicate is counted and reported, and not sent. -/
theorem processTransaction_of_dup (h : Passes cfg w f env)
    (hdup : (w.suppress (cfg.codec.groupIndex f.txID) f env).2 = true) :
    w.processTransaction cfg raw f env =
      ((w.suppress (cfg.codec.groupIndex f.txID) f env).1.track cfg
          (cfg.codec.groupIndex f.txID) f.subtreeID f.hashKey f.seqNum env,
        [.count (.frameReceived (if f.version = frameVerV2 then .brc124 else .brc12)),
          .count .frameDeduped]) := by
  rw [processTransaction, if_neg h.1]
  dsimp only
  rw [h.2]
  dsimp only
  rw [if_pos hdup]

/-- A frame that is no duplicate is sent and reported. -/
theorem processTransaction_of_fresh (h : Passes cfg w f env)
    (hdup : (w.suppress (cfg.codec.groupIndex f.txID) f env).2 = false) :
    w.processTransaction cfg raw f env =
      let fresh := (w.suppress (cfg.codec.groupIndex f.txID) f env).1
      let uni := fresh.unicast (fresh.egr.send raw f env.unicast)
      (if f.version = frameVerV2 ∧ f.seqNum ≠ 0 then
          uni.1.track cfg (cfg.codec.groupIndex f.txID) f.subtreeID f.hashKey f.seqNum env
        else uni.1,
        .count (.frameReceived (if f.version = frameVerV2 then .brc124 else .brc12)) ::
          (uni.2 ++ uni.1.multicast raw f (cfg.codec.groupIndex f.txID) env)) := by
  rw [processTransaction, if_neg h.1]
  dsimp only
  rw [h.2]
  dsimp only
  rw [hdup, if_neg Bool.false_ne_true]

/-- Only a duplicate is counted as one. -/
theorem suppress_of_deduped
    (h : .count .frameDeduped ∈ (w.processTransaction cfg raw f env).2) :
    (w.suppress (cfg.codec.groupIndex f.txID) f env).2 = true := by
  by_cases hpass : Passes cfg w f env
  · by_contra hdup
    rw [processTransaction_of_fresh hpass (Bool.eq_false_of_not_eq_true hdup)] at h
    dsimp only at h
    rw [List.mem_cons, List.mem_append, unicast, multicast] at h
    rcases h with h | h | h
    · cases h
    · revert h
      split <;> simp
    · revert h
      split
      · simp
      · split <;> simp
  · obtain ⟨m, hm, hne⟩ := (processTransaction_of_not_passes raw hpass).2 _ h
    exact absurd (Effect.count.inj hm).symm hne

/-- A frame that passes leaves the duplicate set as its lookup does. -/
theorem dedupSet_of_passes (raw : Bytes) (h : Passes cfg w f env) :
    (w.processTransaction cfg raw f env).1.dedupSet =
      (w.suppress (cfg.codec.groupIndex f.txID) f env).1.dedupSet := by
  cases hdup : (w.suppress (cfg.codec.groupIndex f.txID) f env).2 with
  | true => rw [processTransaction_of_dup h hdup, (track_sameCore _ _ _ _).dedupSet]
  | false =>
      rw [processTransaction_of_fresh h hdup]
      dsimp only
      split
      · rw [(track_sameCore _ _ _ _).dedupSet, (unicast_sameCore _).dedupSet]
      · rw [(unicast_sameCore _).dedupSet]

/-! ### Keys and frames -/

/-- Looking a frame up remembers its key, if the frame is stamped. -/
theorem mem_suppress {s s' : DedupSet} {k : DedupKey} (hs : w.dedupSet = some s)
    (hs' : (w.suppress (cfg.codec.groupIndex f.txID) f env).1.dedupSet = some s')
    (hk : k ∈ s'.entries) : k ∈ s.entries ∨ (f.Stamped ∧ k = cfg.codec.dedupKey f) := by
  simp only [suppress, hs] at hs'
  split at hs'
  · rename_i hstamped
    obtain rfl := Option.some.inj hs'
    rcases DedupSet.mem_seenAndAdd hk with rfl | hold
    · exact Or.inr ⟨hstamped, rfl⟩
    · exact Or.inl hold
  · rw [hs] at hs'
    obtain rfl := Option.some.inj hs'
    exact Or.inl hk

/-- A duplicate is stamped and its key is remembered. -/
theorem mem_of_suppress (h : (w.suppress (cfg.codec.groupIndex f.txID) f env).2 = true) :
    f.Stamped ∧ ∃ s, w.dedupSet = some s ∧ cfg.codec.dedupKey f ∈ s.entries := by
  rw [suppress] at h
  cases hs : w.dedupSet with
  | none =>
      simp only [hs] at h
      cases h
  | some s =>
      simp only [hs] at h
      split at h
      · rename_i hstamped
        exact ⟨hstamped, s, rfl, DedupSet.seen_mem h⟩
      · cases h

/-- **What a step can remember**: a key that was remembered before, or the key of a stamped
frame that passes and is no duplicate. -/
theorem mem_entries_step {op : Op} {s' : DedupSet} {k : DedupKey}
    (hs' : (w.step cfg op).1.dedupSet = some s') (hk : k ∈ s'.entries) :
    (∃ s, w.dedupSet = some s ∧ k ∈ s.entries) ∨
      ∃ raw env f, op = .datagram raw env ∧ cfg.codec.transaction raw = some f ∧ f.Stamped ∧
        cfg.codec.dedupKey f = k ∧ Passes cfg w f env ∧
        (w.suppress (cfg.codec.groupIndex f.txID) f env).2 = false := by
  have hold : (w.step cfg op).1.dedupSet = w.dedupSet →
      ∃ s, w.dedupSet = some s ∧ k ∈ s.entries := fun h => ⟨s', h ▸ hs', hk⟩
  cases op with
  | datagram raw env =>
      cases hf : cfg.codec.transaction raw with
      | none => exact Or.inl (hold (processFrame_of_not_transaction hf))
      | some f =>
          have hstep : (w.step cfg (.datagram raw env)).1 =
              (w.processTransaction cfg raw f env).1 := by
            rw [Worker.step, processFrame_of_transaction hf]
          by_cases hpass : Passes cfg w f env
          swap
          · refine Or.inl (hold ?_)
            rw [hstep, (processTransaction_of_not_passes raw hpass).1]
          cases hdup : (w.suppress (cfg.codec.groupIndex f.txID) f env).2 with
          | true =>
              -- the key of a duplicate is remembered already
              obtain ⟨hstamped, s, hs, hmem⟩ := mem_of_suppress hdup
              rw [hstep, dedupSet_of_passes raw hpass] at hs'
              rcases mem_suppress hs hs' hk with hk | ⟨-, rfl⟩
              · exact Or.inl ⟨s, hs, hk⟩
              · exact Or.inl ⟨s, hs, hmem⟩
          | false =>
              rw [hstep, dedupSet_of_passes raw hpass] at hs'
              cases hs : w.dedupSet with
              | none =>
                  simp only [suppress, hs] at hs'
                  cases hs'
              | some s =>
                  rcases mem_suppress hs hs' hk with hk | ⟨hstamped, rfl⟩
                  · exact Or.inl ⟨s, rfl, hk⟩
                  · exact Or.inr ⟨raw, env, f, rfl, hf, hstamped, rfl, hpass, hdup⟩
  | tick env =>
      refine Or.inl (hold ?_)
      rw [Worker.step]
      split
      · rfl
      · exact (deliverAll_sameCore _).dedupSet
  | groups op => exact Or.inl (hold rfl)
  | track c => exact Or.inl (hold rfl)

/-- Every remembered key is the key of a stamped frame among the datagrams of `ops`. -/
def Remembers (cfg : WorkerConfig) (ops : List Op) (w : Worker) : Prop :=
  ∀ s, w.dedupSet = some s → ∀ k ∈ s.entries, ∃ raw env f, Op.datagram raw env ∈ ops ∧
    cfg.codec.transaction raw = some f ∧ f.Stamped ∧ cfg.codec.dedupKey f = k

/-- **The step lemma**: the set remembers what passes. -/
theorem Remembers.step {ops : List Op} (h : Remembers cfg ops w) (op : Op) :
    Remembers cfg (ops ++ [op]) (w.step cfg op).1 := by
  intro s' hs' k hk
  rcases mem_entries_step hs' hk with ⟨s, hs, hk⟩ | ⟨raw, env, f, rfl, hf, hstamped, hkey, -⟩
  · obtain ⟨raw, env, f, hmem, hf, hstamped, hkey⟩ := h s hs k hk
    exact ⟨raw, env, f, List.mem_append_left _ hmem, hf, hstamped, hkey⟩
  · exact ⟨raw, env, f, List.mem_append_right _ (List.mem_singleton.mpr rfl), hf, hstamped, hkey⟩

/-- A worker whose duplicate set is new. -/
def FreshDedup (w : Worker) : Prop :=
  ∃ capacity ttl, w.dedupSet = some (DedupSet.new capacity ttl)

/-- **The run lemma.** -/
theorem remembers_after (h : w.FreshDedup) (ops : List Op) :
    Remembers cfg ops (w.after cfg ops) := by
  refine Machine.run_history (R := Remembers cfg) ?_ (fun _ op h => h.step op) ops
  obtain ⟨capacity, ttl, hnew⟩ := h
  intro s hs k hk
  rw [hnew] at hs
  obtain rfl := Option.some.inj hs
  rw [DedupSet.new] at hk
  split at hk <;> cases hk

/-- **A suppressed frame has the key of an earlier frame.** -/
theorem key_of_suppressed (h : w.FreshDedup) {ops : List Op}
    (hf : cfg.codec.transaction raw = some f)
    (hdup : .count .frameDeduped ∈ ((w.after cfg ops).processFrame cfg raw env).2) :
    f.Stamped ∧ ∃ raw' env' f', Op.datagram raw' env' ∈ ops ∧
      cfg.codec.transaction raw' = some f' ∧ f'.Stamped ∧
      cfg.codec.dedupKey f' = cfg.codec.dedupKey f := by
  rw [processFrame_of_transaction hf] at hdup
  obtain ⟨hstamped, s, hs, hmem⟩ := mem_of_suppress (suppress_of_deduped hdup)
  exact ⟨hstamped, remembers_after h ops s hs _ hmem⟩

/-- **The condition on the traffic.** Stamped frames that agree on group index, subtree id and
sequence number are frames of one flow. -/
def KeyedByFlow (c : Codec) (ops : List Op) : Prop :=
  ∀ raw env raw' env' f f', Op.datagram raw env ∈ ops → Op.datagram raw' env' ∈ ops →
    c.transaction raw = some f → c.transaction raw' = some f' → f.Stamped → f'.Stamped →
    c.dedupKey f = c.dedupKey f' → f.hashKey = f'.hashKey

/-- **A suppressed frame has been seen before in its own flow**, in every run in which no two
flows use one key. -/
theorem suppressed_seen_in_flow (cfg : WorkerConfig) (w : Worker) (hfresh : w.FreshDedup)
    (ops : List Op) (hkeyed : KeyedByFlow cfg.codec ops) (pre post : List Op) (raw : Bytes)
    (env : Env) (f : Frame) (hops : ops = pre ++ .datagram raw env :: post)
    (hf : cfg.codec.transaction raw = some f)
    (hdup : .count .frameDeduped ∈ ((w.after cfg pre).processFrame cfg raw env).2) :
    ∃ raw' env' f', Op.datagram raw' env' ∈ pre ∧ cfg.codec.transaction raw' = some f' ∧
      f'.hashKey = f.hashKey ∧ f'.subtreeID = f.subtreeID ∧ f'.seqNum = f.seqNum := by
  obtain ⟨hstamped, raw', env', f', hmem, hf', hstamped', hkey⟩ := key_of_suppressed hfresh hf hdup
  have hin : Op.datagram raw env ∈ ops := by
    rw [hops]
    exact List.mem_append_right _ List.mem_cons_self
  have hin' : Op.datagram raw' env' ∈ ops := by
    rw [hops]
    exact List.mem_append_left _ hmem
  refine ⟨raw', env', f', hmem, hf', ?_, ?_, ?_⟩
  · exact hkeyed raw' env' raw env f' f hin' hin hf' hf hstamped' hstamped hkey
  · exact congrArg DedupKey.subtreeID hkey
  · exact congrArg DedupKey.seqNum hkey

end Worker

/-! ### Two senders -/

/-- A worker configuration over a codec, without payload verification. -/
def Worker.testConfig (c : Codec) : WorkerConfig where
  codec := c
  tracker := Tracker.testConfig
  reassembly := Reassembly.testConfig
  verifyPayloadHash := false

/-- A worker that forwards everything by UDP, with a duplicate set for four keys. -/
def Worker.testWorker : Worker where
  filt := Filter.new [] [] [] none
  egr := ⟨.udp, false, false⟩
  mcastEgr := none
  headerEgr := none
  headerMCastEgr := none
  tracker := some Tracker.new
  dedupSet := some (DedupSet.new 4 second)
  reassemBuf := some Reassembly.Buffer.new

/-- Everything happens at one time and every send succeeds. -/
def Env.test (now : Time) : Env where
  filterNow := fun _ => now
  dedupNow := now
  trackerNow := now
  bufferNow := now
  draw := fun _ => 0
  unicast := NetResult.ok
  multicast := true
  header := NetResult.ok
  headerMulticast := true

/-- Frame `seqNum` of a flow. -/
def testFrame (hashKey seqNum : UInt64) (tx : UInt8) : Frame where
  version := frameVerV2
  txID := Bytes32.ofByte tx
  hashKey := hashKey
  seqNum := seqNum
  subtreeID := Bytes32.ofByte 0
  payload := [tx]

/-- The datagram of a frame. -/
def testRaw (f : Frame) : Bytes := (Wire.Packet.ofFrame f).fill (headerSize + f.payload.length)

namespace Worker

/-- The first frame of the second sender is suppressed, although nothing of its flow has been
seen: the transaction is lost. -/
theorem other_flow_suppressed :
    Codec.wire.transaction (testRaw (testFrame 1 1 0xA)) = some (testFrame 1 1 0xA) ∧
    Codec.wire.transaction (testRaw (testFrame 2 1 0xB)) = some (testFrame 2 1 0xB) ∧
    (testFrame 1 1 0xA).hashKey ≠ (testFrame 2 1 0xB).hashKey ∧
    ((testWorker.after (testConfig Codec.wire)
      [.datagram (testRaw (testFrame 1 1 0xA)) (Env.test 0)]).processFrame
      (testConfig Codec.wire) (testRaw (testFrame 2 1 0xB)) (Env.test 1)).2 =
        [.count (.frameReceived .brc124), .count .frameDeduped] := by
  decide +kernel

/-- A retransmit is suppressed, and its flow has been seen. -/
theorem suppressed_seen_in_flow_retransmit :
    .count .frameDeduped ∈ ((testWorker.after (testConfig Codec.wire)
      [.datagram (testRaw (testFrame 1 1 0xA)) (Env.test 0)]).processFrame
      (testConfig Codec.wire) (testRaw (testFrame 1 1 0xA)) (Env.test 1)).2 ∧
    ∃ raw' env' f', Op.datagram raw' env' ∈
        [Op.datagram (testRaw (testFrame 1 1 0xA)) (Env.test 0)] ∧
      Codec.wire.transaction raw' = some f' ∧ f'.hashKey = (testFrame 1 1 0xA).hashKey ∧
      f'.subtreeID = (testFrame 1 1 0xA).subtreeID ∧ f'.seqNum = (testFrame 1 1 0xA).seqNum := by
  have hdup : .count .frameDeduped ∈ ((testWorker.after (testConfig Codec.wire)
      [.datagram (testRaw (testFrame 1 1 0xA)) (Env.test 0)]).processFrame
      (testConfig Codec.wire) (testRaw (testFrame 1 1 0xA)) (Env.test 1)).2 := by
    decide +kernel
  refine ⟨hdup, suppressed_seen_in_flow (testConfig Codec.wire) testWorker ⟨4, second, rfl⟩
    [.datagram (testRaw (testFrame 1 1 0xA)) (Env.test 0),
      .datagram (testRaw (testFrame 1 1 0xA)) (Env.test 1)] ?_
    [.datagram (testRaw (testFrame 1 1 0xA)) (Env.test 0)] [] (testRaw (testFrame 1 1 0xA))
    (Env.test 1) (testFrame 1 1 0xA) rfl (by decide +kernel) hdup⟩
  have hone : ∀ raw env, Op.datagram raw env ∈
      [Op.datagram (testRaw (testFrame 1 1 0xA)) (Env.test 0),
        Op.datagram (testRaw (testFrame 1 1 0xA)) (Env.test 1)] →
      raw = testRaw (testFrame 1 1 0xA) := by
    intro raw env hmem
    rcases List.mem_cons.mp hmem with h | h
    · exact (Op.datagram.inj h).1
    · exact (Op.datagram.inj (List.mem_singleton.mp h)).1
  intro raw env raw' env' f f' hmem hmem' hf hf' _ _ _
  rw [hone raw env hmem] at hf
  rw [hone raw' env' hmem', hf] at hf'
  rw [Option.some.inj hf']

end Worker

end ShardListener
