import ShardListener.Suppression

/-!
# Inline and Reassembled Transactions

A transaction reaches the egress on two paths: as one datagram, through `processFrame`, and
reassembled from fragments, through `deliverReassembled`. The second path is a copy of the
first without the duplicate suppression. The two agree exactly when the lookup would have had
no effect (`reassembled_as_inline_iff`).

## Main results

* `reassembled_as_inline_iff`: when the two paths send the same and leave the same state.
* `reassembled_duplicate_sent`: a duplicate that arrives in fragments is sent again.
-/

namespace ShardListener

/-- **What is assumed of the codec**: an encoded BRC-124 frame is taken for a transaction frame
and decodes to itself. -/
def Codec.LawfulV2 (c : Codec) : Prop :=
  ∀ f raw, f.version = frameVerV2 → c.encode f (headerSize + f.payload.length) = some raw →
    c.isBlockFrame raw = false ∧ c.isSubtreeDataFrame raw = false ∧ c.isFragment raw = false ∧
      c.decode raw = some f

theorem Codec.LawfulV2.transaction {c : Codec} (h : c.LawfulV2) {f : Frame} {raw : Bytes}
    (hver : f.version = frameVerV2)
    (henc : c.encode f (headerSize + f.payload.length) = some raw) :
    c.transaction raw = some f := by
  obtain ⟨hblock, hsubtree, hfrag, hdec⟩ := h f raw hver henc
  rw [Codec.transaction, if_neg (by simp [hblock, hsubtree, hfrag]), hdec]

/-- A unicast or multicast datagram. -/
def Effect.isSend : Effect → Bool
  | .unicast _ | .multicast _ => true
  | _ => false

/-- The unicast and multicast datagrams among some effects. -/
def sends (effs : List Effect) : List Effect := effs.filter Effect.isSend

/-- The datagrams sent, the duplicate set and the tracker are the same. -/
structure SameHandling (out out' : Worker × List Effect) : Prop where
  sends : sends out.2 = ShardListener.sends out'.2
  dedupSet : out.1.dedupSet = out'.1.dedupSet
  tracker : out.1.tracker = out'.1.tracker

namespace Worker

variable {cfg : WorkerConfig} {w : Worker} {raw : Bytes} {env : Env} {f : Frame}

/-- Looking the frame up would do something: the frame passes the filter, is stamped, and the
worker has a duplicate set that is not disabled. -/
def LookedUp (cfg : WorkerConfig) (w : Worker) (f : Frame) (env : Env) : Prop :=
  w.filt.allow env.filterNow (cfg.codec.groupIndex f.txID) f = none ∧ f.seqNum ≠ 0 ∧
    ∃ s, w.dedupSet = some s ∧ s.capacity ≠ 0

/-- A lookup in an absent or disabled set has no effect, and neither has that of an unstamped
frame. -/
theorem suppress_of_idle (groupIdx : UInt32) (env : Env)
    (h : f.seqNum = 0 ∨ ∀ s, w.dedupSet = some s → s.capacity = 0) :
    w.suppress groupIdx f env = (w, false) := by
  rw [suppress]
  cases hs : w.dedupSet with
  | none => rfl
  | some s =>
      dsimp only
      split
      · rename_i hstamped
        have hcap : s.capacity = 0 := by
          rcases h with hzero | hcap
          · exact absurd hzero hstamped.2
          · exact hcap s hs
        rw [DedupSet.seenAndAdd, if_pos hcap, ← hs]
      · rfl

/-- The duplicate set after the lookup of a stamped frame. -/
theorem suppress_of_stamped {s : DedupSet} (groupIdx : UInt32) (env : Env)
    (hs : w.dedupSet = some s) (hstamped : f.Stamped) :
    w.suppress groupIdx f env =
      ({ w with
          dedupSet := some (s.seenAndAdd env.dedupNow ⟨groupIdx, f.subtreeID, f.seqNum⟩).1 },
        (s.seenAndAdd env.dedupNow ⟨groupIdx, f.subtreeID, f.seqNum⟩).2) := by
  rw [suppress, hs]
  exact if_pos hstamped

/-- The frame is denied: both paths drop it. -/
theorem sameHandling_of_denied
    (hdeny : w.filt.allow env.filterNow (cfg.codec.groupIndex f.txID) f ≠ none) :
    SameHandling (w.deliverReassembled cfg f.payload f env)
      (w.processTransaction cfg raw f env) := by
  obtain ⟨hstate, heffs⟩ := processTransaction_of_not_passes raw
    (fun hpass : Passes cfg w f env => hdeny hpass.2)
  have hnosend : sends (w.processTransaction cfg raw f env).2 = [] := by
    rw [sends, List.filter_eq_nil_iff]
    intro e he
    obtain ⟨m, rfl, -⟩ := heffs e he
    exact Bool.false_ne_true
  obtain ⟨reason, hreason⟩ := Option.ne_none_iff_exists'.mp hdeny
  have hdeliver : w.deliverReassembled cfg f.payload f env =
      (w, [.count .reassemblyCompleted, .count (.frameDropped reason)]) := by
    rw [deliverReassembled]
    dsimp only
    rw [hreason]
  rw [hdeliver]
  exact ⟨hnosend.symm, by rw [hstate], by rw [hstate]⟩

/-- The steps of the reassembled path for a frame that passes the filter. -/
theorem deliverReassembled_of_allowed
    (hallow : w.filt.allow env.filterNow (cfg.codec.groupIndex f.txID) f = none)
    (henc : cfg.codec.encode f (headerSize + f.payload.length) = some raw) :
    w.deliverReassembled cfg f.payload f env =
      let uni := w.unicast (w.egr.send raw f env.unicast)
      (if f.seqNum ≠ 0 then
          uni.1.track cfg (cfg.codec.groupIndex f.txID) f.subtreeID f.hashKey f.seqNum env
        else uni.1,
        .count .reassemblyCompleted :: .count (.frameReceived .brc130) ::
          (uni.2 ++ uni.1.multicast raw f (cfg.codec.groupIndex f.txID) env)) := by
  rw [deliverReassembled]
  dsimp only
  rw [hallow]
  dsimp only
  rw [henc]

/-- The reassembled path hands the frame to the unicast sender, and leaves the duplicate set
alone. -/
theorem sends_deliverReassembled_ne_nil
    (hallow : w.filt.allow env.filterNow (cfg.codec.groupIndex f.txID) f = none)
    (henc : cfg.codec.encode f (headerSize + f.payload.length) = some raw) :
    sends (w.deliverReassembled cfg f.payload f env).2 ≠ [] := by
  rw [deliverReassembled_of_allowed hallow henc]
  simp [sends, unicast, Effect.isSend]

/-- **Inline and reassembled transactions are handled alike exactly when the duplicate
suppression would have had no effect on the inline one.** -/
theorem reassembled_as_inline_iff (cfg : WorkerConfig) (hlaw : cfg.codec.LawfulV2) (w : Worker)
    (env : Env) (f : Frame) (raw : Bytes) (hver : f.version = frameVerV2)
    (henc : cfg.codec.encode f (headerSize + f.payload.length) = some raw)
    (hhash : cfg.verifyPayloadHash = true →
      Reassembly.sha256d cfg.codec.sha256 f.payload = f.txID) :
    SameHandling (w.deliverReassembled cfg f.payload f env) (w.processFrame cfg raw env) ↔
      ¬ LookedUp cfg w f env := by
  rw [processFrame_of_transaction (hlaw.transaction hver henc)]
  by_cases hallow : w.filt.allow env.filterNow (cfg.codec.groupIndex f.txID) f = none
  swap
  · exact iff_of_true (sameHandling_of_denied hallow) fun hlook => hallow hlook.1
  have hpass : Passes cfg w f env := ⟨fun hbad => hbad.2 (hhash hbad.1.1), hallow⟩
  constructor
  · rintro ⟨hsends, hset, -⟩ ⟨-, hseq, s, hs, hcap⟩
    have hsup := suppress_of_stamped (cfg.codec.groupIndex f.txID) env hs ⟨hver, hseq⟩
    cases hdup : (w.suppress (cfg.codec.groupIndex f.txID) f env).2 with
    | true =>
        -- the inline path drops the duplicate, the other one sends it
        rw [processTransaction_of_dup hpass hdup] at hsends
        exact sends_deliverReassembled_ne_nil hallow henc hsends
    | false =>
        -- the inline path remembers the key, the other one does not
        rw [(deliverReassembled_sameCore _ _).dedupSet, dedupSet_of_passes raw hpass, hsup,
          hs] at hset
        rw [hsup] at hdup
        exact DedupSet.seenAndAdd_ne hcap hdup (Option.some.inj hset).symm
  · intro hlook
    have hidle : f.seqNum = 0 ∨ ∀ s, w.dedupSet = some s → s.capacity = 0 := by
      by_contra hbusy
      obtain ⟨hseq, hcap⟩ := not_or.mp hbusy
      obtain ⟨s, hs⟩ := not_forall.mp hcap
      obtain ⟨hs, hcap⟩ := Classical.not_imp.mp hs
      exact hlook ⟨hallow, hseq, s, hs, hcap⟩
    have hsup := suppress_of_idle (cfg.codec.groupIndex f.txID) env hidle
    rw [processTransaction_of_fresh hpass (by rw [hsup]), hsup,
      deliverReassembled_of_allowed hallow henc]
    dsimp only
    rw [if_congr (and_iff_right hver) rfl rfl]
    exact ⟨rfl, rfl, rfl⟩

/-- The codec with the documented layout meets the assumption. -/
theorem wire_lawfulV2 : Codec.wire.LawfulV2 := by
  intro f raw hver henc
  have hversion : Wire.version raw = [frameVerV2] := Wire.version_of_encode henc
  refine ⟨?_, ?_, ?_, Wire.decode_encode hver henc⟩
  · exact decide_eq_false (by rw [hversion]; decide)
  · exact decide_eq_false (by rw [hversion]; decide)
  · exact decide_eq_false (by rw [hversion]; decide)

/-- The frame has been forwarded inline. Its second copy is suppressed if it arrives inline, and
sent again if it arrives in fragments. -/
theorem reassembled_duplicate_sent :
    Codec.wire.LawfulV2 ∧
    Codec.wire.encode (testFrame 1 1 0xA) (headerSize + [0xA].length) =
      some (testRaw (testFrame 1 1 0xA)) ∧
    sends ((testWorker.after (testConfig Codec.wire)
      [.datagram (testRaw (testFrame 1 1 0xA)) (Env.test 0)]).processFrame
      (testConfig Codec.wire) (testRaw (testFrame 1 1 0xA)) (Env.test 1)).2 = [] ∧
    sends ((testWorker.after (testConfig Codec.wire)
      [.datagram (testRaw (testFrame 1 1 0xA)) (Env.test 0)]).deliverReassembled
      (testConfig Codec.wire) [0xA] (testFrame 1 1 0xA) (Env.test 1)).2 =
        [.unicast ⟨testRaw (testFrame 1 1 0xA), true⟩] :=
  ⟨wire_lawfulV2, by decide +kernel, by decide +kernel, by decide +kernel⟩

/-- Without a duplicate set the two paths agree. -/
theorem reassembled_as_inline_without_dedup :
    SameHandling
      ({ testWorker with dedupSet := none }.deliverReassembled (testConfig Codec.wire) [0xA]
        (testFrame 1 1 0xA) (Env.test 0))
      ({ testWorker with dedupSet := none }.processFrame (testConfig Codec.wire)
        (testRaw (testFrame 1 1 0xA)) (Env.test 0)) := by
  refine (reassembled_as_inline_iff (testConfig Codec.wire) wire_lawfulV2
    { testWorker with dedupSet := none } (Env.test 0) (testFrame 1 1 0xA) _ rfl
    (by decide +kernel) (fun h => nomatch h)).mpr ?_
  rintro ⟨-, -, s, hs, -⟩
  cases hs

end Worker

end ShardListener
