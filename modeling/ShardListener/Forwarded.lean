import ShardListener.Suppression

/-!
# Suppressed Frames and their First Copies

A worker suppresses a frame because its key is remembered, and a key is remembered before its
frame is handed to the unicast egress. So the first copy of a suppressed frame has been handed
to the egress, but nothing says that its send succeeded: the retransmit of a frame whose send
failed is suppressed all the same, and the frame is lost.

## Main results

* `Backed.step`: as long as the sends for a key succeed, a remembered key has been forwarded.
* `suppressed_was_forwarded`: a suppressed frame has been forwarded before, in every run in
  which no send for its key fails.
* `failed_send_suppresses`: after a failed send, the retransmit is suppressed.
-/

namespace ShardListener

namespace Worker

variable {cfg : WorkerConfig} {w : Worker} {raw : Bytes} {env : Env} {f : Frame}

/-- **The condition on a step.** A new frame with the key `k` that is about to be remembered is
sent without an error. -/
def Delivers (cfg : WorkerConfig) (k : DedupKey) (w : Worker) : Op → Prop
  | .datagram raw env => ∀ f, cfg.codec.transaction raw = some f → f.Stamped →
      cfg.codec.dedupKey f = k → Passes cfg w f env →
      (w.suppress (cfg.codec.groupIndex f.txID) f env).2 = false →
      (w.egr.send raw f env.unicast).2.ok = true
  | _ => True

/-- A frame with the key `k` was passed to the unicast sender in the run `ops` of `w`, and the
send returned no error. -/
def Forwarded (cfg : WorkerConfig) (w : Worker) (ops : List Op) (k : DedupKey) : Prop :=
  ∃ pre raw env post f sent, ops = pre ++ .datagram raw env :: post ∧
    cfg.codec.transaction raw = some f ∧ cfg.codec.dedupKey f = k ∧
    .unicast sent ∈ ((w.after cfg pre).processFrame cfg raw env).2 ∧ sent.ok = true

/-- What was forwarded stays forwarded. -/
theorem Forwarded.append {ops : List Op} {k : DedupKey} (h : Forwarded cfg w ops k) (op : Op) :
    Forwarded cfg w (ops ++ [op]) k := by
  obtain ⟨pre, raw, env, post, f, sent, rfl, hf, hkey, hsent, hok⟩ := h
  exact ⟨pre, raw, env, post ++ [op], f, sent, by rw [List.append_assoc, List.cons_append], hf,
    hkey, hsent, hok⟩

/-- Looking a frame up does not touch the sender. -/
theorem suppress_egr (groupIdx : UInt32) (f : Frame) (env : Env) :
    (w.suppress groupIdx f env).1.egr = w.egr := by
  rw [suppress]
  split
  · rfl
  · split <;> rfl

/-- A new frame that passes is handed to the unicast sender. -/
theorem unicast_of_fresh (hf : cfg.codec.transaction raw = some f) (hpass : Passes cfg w f env)
    (hdup : (w.suppress (cfg.codec.groupIndex f.txID) f env).2 = false) :
    .unicast (w.egr.send raw f env.unicast).2 ∈ (w.processFrame cfg raw env).2 := by
  rw [processFrame_of_transaction hf, processTransaction_of_fresh hpass hdup]
  dsimp only
  rw [unicast, suppress_egr]
  exact List.mem_cons_of_mem _ (List.mem_append_left _ List.mem_cons_self)

/-- If the key `k` is remembered, a frame with this key has been forwarded. -/
def Backed (cfg : WorkerConfig) (k : DedupKey) (w₀ : Worker) (ops : List Op) (w : Worker) :
    Prop :=
  ∀ s, w.dedupSet = some s → k ∈ s.entries → Forwarded cfg w₀ ops k

/-- **The step lemma.** -/
theorem Backed.step {k : DedupKey} {ops : List Op} (h : Backed cfg k w ops (w.after cfg ops))
    (op : Op) (hok : Delivers cfg k (w.after cfg ops) op) :
    Backed cfg k w (ops ++ [op]) (Worker.step cfg (w.after cfg ops) op).1 := by
  intro s' hs' hk
  rcases mem_entries_step hs' hk with
    ⟨s, hs, hk⟩ | ⟨raw, env, f, rfl, hf, hstamped, hkey, hpass, hdup⟩
  · exact (h s hs hk).append op
  · exact ⟨ops, raw, env, [], f, _, rfl, hf, hkey, unicast_of_fresh hf hpass hdup,
      hok f hf hstamped hkey hpass hdup⟩

theorem backed_after (hfresh : w.FreshDedup) {k : DedupKey} {ops : List Op}
    (hok : Machine.Guarded (Machine.next (Worker.step cfg)) (Delivers cfg k) w ops) :
    Backed cfg k w ops (w.after cfg ops) := by
  induction ops using List.reverseRecOn with
  | nil =>
      obtain ⟨capacity, ttl, hnew⟩ := hfresh
      intro s hs hk
      rw [after, Machine.run_nil, hnew] at hs
      obtain rfl := Option.some.inj hs
      rw [DedupSet.new] at hk
      split at hk <;> exact absurd hk (AList.notMem_empty k)
  | append_singleton ops op ih =>
      obtain ⟨hold, hlast⟩ := Machine.guarded_snoc.mp hok
      rw [after_snoc]
      exact (ih hold).step op hlast

/-- **A suppressed frame has been forwarded before**, in every run in which each new frame with
its key is sent without an error. -/
theorem suppressed_was_forwarded (cfg : WorkerConfig) (w : Worker) (hfresh : w.FreshDedup)
    (ops : List Op) (raw : Bytes) (env : Env) (f : Frame)
    (hf : cfg.codec.transaction raw = some f)
    (hok : Machine.Guarded (Machine.next (Worker.step cfg)) (Delivers cfg (cfg.codec.dedupKey f))
      w ops)
    (hdup : .count .frameDeduped ∈ ((w.after cfg ops).processFrame cfg raw env).2) :
    Forwarded cfg w ops (cfg.codec.dedupKey f) := by
  rw [processFrame_of_transaction hf] at hdup
  obtain ⟨-, s, hs, hmem⟩ := mem_of_suppress (suppress_of_deduped hdup)
  exact backed_after hfresh hok s hs hmem

end Worker

/-! ### A failed send -/

/-- The write of the unicast send fails. -/
def Env.testFailed (now : Time) : Env := { Env.test now with unicast := ⟨true, true, false⟩ }

namespace Worker

/-- The send of a frame fails. Its retransmit is suppressed, although no copy of the frame has
left the worker. -/
theorem failed_send_suppresses :
    Codec.wire.transaction (testRaw (testFrame 1 1 0xA)) = some (testFrame 1 1 0xA) ∧
    ((testWorker.after (testConfig Codec.wire)
      [.datagram (testRaw (testFrame 1 1 0xA)) (Env.testFailed 0)]).processFrame
      (testConfig Codec.wire) (testRaw (testFrame 1 1 0xA)) (Env.test 1)).2 =
        [.count (.frameReceived .brc124), .count .frameDeduped] ∧
    ¬ Forwarded (testConfig Codec.wire) testWorker
      [.datagram (testRaw (testFrame 1 1 0xA)) (Env.testFailed 0)]
      (Codec.wire.dedupKey (testFrame 1 1 0xA)) := by
  refine ⟨by decide +kernel, by decide +kernel, ?_⟩
  rintro ⟨pre, raw, env, post, f, sent, hops, -, -, hsent, hok⟩
  -- the run has one datagram, and its send failed
  obtain ⟨rfl, hop⟩ := (List.singleton_eq_append_iff.mp hops).resolve_right
    fun h => List.cons_ne_nil _ _ h.2
  obtain ⟨rfl, rfl⟩ := Op.datagram.inj (List.cons.inj hop).1
  have hfailed : (testWorker.processFrame (testConfig Codec.wire)
      (testRaw (testFrame 1 1 0xA)) (Env.testFailed 0)).2 =
      [.count (.frameReceived .brc124), .unicast ⟨testRaw (testFrame 1 1 0xA), false⟩,
        .count .egressError] := by decide +kernel
  rw [after, Machine.run_nil, hfailed] at hsent
  simp only [List.mem_cons, reduceCtorEq, Effect.unicast.injEq, List.not_mem_nil, or_false,
    false_or] at hsent
  rw [hsent] at hok
  cases hok

/-- The retransmit of a frame whose send succeeded. -/
theorem suppressed_was_forwarded_retransmit :
    .count .frameDeduped ∈ ((testWorker.after (testConfig Codec.wire)
      [.datagram (testRaw (testFrame 1 1 0xA)) (Env.test 0)]).processFrame
      (testConfig Codec.wire) (testRaw (testFrame 1 1 0xA)) (Env.test 1)).2 ∧
    Forwarded (testConfig Codec.wire) testWorker
      [.datagram (testRaw (testFrame 1 1 0xA)) (Env.test 0)]
      (Codec.wire.dedupKey (testFrame 1 1 0xA)) := by
  have hdup : .count .frameDeduped ∈ ((testWorker.after (testConfig Codec.wire)
      [.datagram (testRaw (testFrame 1 1 0xA)) (Env.test 0)]).processFrame
      (testConfig Codec.wire) (testRaw (testFrame 1 1 0xA)) (Env.test 1)).2 := by
    decide +kernel
  refine ⟨hdup, suppressed_was_forwarded (testConfig Codec.wire) testWorker ⟨4, second, rfl⟩
    [.datagram (testRaw (testFrame 1 1 0xA)) (Env.test 0)] _ (Env.test 1) (testFrame 1 1 0xA)
    (by decide +kernel) ⟨?_, trivial⟩ hdup⟩
  intro f _ _ _ _ _
  rfl

end Worker

end ShardListener
