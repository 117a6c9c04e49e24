import ShardListener.Epoch
import ShardListener.Stream

/-!
# Denied Frames and the Gap Tracker

The tracker stands behind the filter: it observes the frames that pass, and a frame the filter
denies is dropped before it. Which subtrees pass changes while a flow keeps counting, as subtree
groups are announced and expire. So a number that arrived while its subtree was denied looks
like a lost one to the tracker as soon as a smaller and a larger number have passed.

## Main results

* `knows_after`: the tracker knows of a flow exactly the numbers that passed.
* `never_reported_missing_iff`: received numbers are never pending exactly when no denied one
  lies between the first and a larger number that passed.
* `denied_reported_missing`: a subtree expires and is announced again, and the frame that was
  denied in between is reported missing.
-/

namespace ShardListener

namespace Worker

variable {cfg : WorkerConfig} {w : Worker} {h : UInt64}

/-- The sequence number of a transaction frame that arrives. -/
def Op.received (c : Codec) : Op → List UInt64
  | .datagram raw _ => ((c.transaction raw).map Frame.seqNum).toList
  | _ => []

/-- The sequence numbers of the transaction frames that arrive. -/
def received (c : Codec) (ops : List Op) : List UInt64 := ops.flatMap (Op.received c)

/-- The sequence number of a transaction frame that arrives and passes the filter. -/
def passing (cfg : WorkerConfig) (w : Worker) : Op → List UInt64
  | .datagram raw env =>
      match cfg.codec.transaction raw with
      | none => []
      | some f =>
          if w.filt.allow env.filterNow (cfg.codec.groupIndex f.txID) f = none then [f.seqNum]
          else []
  | _ => []

/-- The sequence numbers of the transaction frames that pass the filter, in order. -/
def passed (cfg : WorkerConfig) (w : Worker) (ops : List Op) : List UInt64 :=
  Machine.outputs (fun w op => ((Worker.step cfg w op).1, passing cfg w op)) w ops

/-- A change of the group registry, or a whole BRC-124 frame of the flow `h` above the restart
threshold. -/
def FlowOp (cfg : WorkerConfig) (h : UInt64) : Op → Prop
  | .groups _ => True
  | .datagram raw _ => ∃ f, cfg.codec.transaction raw = some f ∧ f.version = frameVerV2 ∧
      f.hashKey = h ∧ cfg.tracker.resetThreshold < f.seqNum
  | _ => False

/-- The number `s` of the flow `h` is reported missing. -/
def Missing (h s : UInt64) (w : Worker) : Prop := ∃ t, w.tracker = some t ∧ s ∈ t.pendingKeys h

/-- The number `s` lies between the first number and a larger one. -/
def Spanned (s : UInt64) (ns : List UInt64) : Prop :=
  (∃ first ∈ ns.head?, first < s) ∧ ∃ m ∈ ns, s < m

end Worker

/-! ### What the tracker knows of the flow -/

theorem ne_zero_of_above {T s : UInt64} (hT : T < s) : s ≠ 0 := by
  rintro rfl
  exact UInt64.not_lt.mpr UInt64.zero_le hT

/-- The epoch of the numbers `ns`, when none of them restarts the flow. -/
def Epoch.ofSeen (registered : List UInt64) : List UInt64 → Option Epoch
  | [] => none
  | n :: ns => some ⟨n, n :: ns, registered, []⟩

/-- A number above the restart threshold extends the epoch. -/
theorem Epoch.arrive_ofSeen {T s : UInt64} (hT : T < s) (registered new ns : List UInt64) :
    ∃ registered', some (Epoch.arrive T s new (ofSeen registered ns)) =
      ofSeen registered' (ns ++ [s]) := by
  cases ns with
  | nil => exact ⟨[], rfl⟩
  | cons n ns =>
      refine ⟨registered ++ new, ?_⟩
      rw [ofSeen, arrive, if_neg fun hle => UInt64.not_lt.mpr hle.1 hT]
      rfl

namespace Worker

variable {cfg : WorkerConfig} {w w' : Worker} {h s : UInt64} {ns : List UInt64}

/-- The tracker has observed the numbers `ns` of the flow `h`, and nothing else of it. -/
def Knows (h : UInt64) (ns : List UInt64) (w : Worker) : Prop :=
  ∃ t registered, w.tracker = some t ∧
    Tracks (t.flows.lookup h) (Epoch.ofSeen registered ns)

theorem Knows.congr (hw : Knows h ns w) (htracker : w'.tracker = w.tracker) :
    Knows h ns w' := by
  obtain ⟨t, registered, ht, htracks⟩ := hw
  exact ⟨t, registered, htracker.trans ht, htracks⟩

/-- The next number is observed. -/
theorem Knows.observe (hw : Knows h ns w) (hobs : Observes cfg h s w w')
    (hT : cfg.tracker.resetThreshold < s) : Knows h (ns ++ [s]) w' := by
  obtain ⟨t, registered, ht, htracks⟩ := hw
  obtain ⟨a, rfl, rfl, ht'⟩ := hobs
  obtain ⟨registered', heq⟩ := Epoch.arrive_ofSeen hT registered
    (t.registeredBy (t.observe cfg.tracker a) a.hashKey) ns
  refine ⟨t.observe cfg.tracker a, registered', ?_, ?_⟩
  · rw [ht', ht, Option.map_some]
  · rw [← heq]
    exact htracks.arrive (ne_zero_of_above hT)

/-- **What is pending**: the numbers between the first and the largest observed one that have
not been observed. -/
theorem Knows.missing_iff (hw : Knows h ns w) (s : UInt64) :
    Missing h s w ↔ Spanned s ns ∧ s ∉ ns := by
  obtain ⟨t, registered, ht, htracks⟩ := hw
  have hmissing : Missing h s w ↔ s ∈ t.pendingKeys h := by
    constructor
    · rintro ⟨t', ht', hs⟩
      obtain rfl := Option.some.inj (ht.symm.trans ht')
      exact hs
    · intro hs
      exact ⟨t, ht, hs⟩
  rw [hmissing]
  cases ns with
  | nil =>
      cases hfs : t.flows.lookup h with
      | none => simp [Tracker.pendingKeys, hfs, Spanned]
      | some fs =>
          rw [hfs] at htracks
          exact htracks.elim
  | cons n ns =>
      cases hfs : t.flows.lookup h with
      | none =>
          rw [hfs] at htracks
          exact htracks.elim
      | some fs =>
          rw [hfs] at htracks
          have ha : Agrees fs ⟨n, n :: ns, registered, []⟩ := htracks
          have htop : s < (⟨n, n :: ns, registered, []⟩ : Epoch).top ↔ ∃ m ∈ n :: ns, s < m := by
            constructor
            · intro hlt
              exact ⟨_, ha.top_mem, hlt⟩
            · rintro ⟨m, hm, hlt⟩
              exact UInt64.lt_of_lt_of_le hlt (Epoch.le_top hm)
          rw [Tracker.pendingKeys_of_lookup hfs, ← AList.mem_keys, ha.pending, htop]
          simp [Spanned, and_assoc]

/-! ### Runs of the flow -/

/-- **The step lemma**: the tracker observes what passes the filter. -/
theorem Knows.step (hverify : cfg.verifyPayloadHash = false) (hw : Knows h ns w) {op : Op}
    (hop : FlowOp cfg h op) :
    Knows h (ns ++ passing cfg w op) (Worker.step cfg w op).1 := by
  cases op with
  | tick env => exact hop.elim
  | track c => exact hop.elim
  | groups op =>
      have hnone : passing cfg w (.groups op) = [] := rfl
      rw [hnone, List.append_nil]
      exact hw.congr rfl
  | datagram raw env =>
      obtain ⟨f, hf, hver, hkey, hT⟩ := hop
      have hstep : (Worker.step cfg w (.datagram raw env)).1 =
          (w.processTransaction cfg raw f env).1 := by
        rw [Worker.step, processFrame_of_transaction hf]
      have hunverified : ¬ ((cfg.verifyPayloadHash = true ∧ f.version = frameVerV2) ∧
          Reassembly.sha256d cfg.codec.sha256 f.payload ≠ f.txID) := by
        rw [hverify]
        exact fun hbad => Bool.false_ne_true hbad.1.1
      rw [passing, hf, hstep]
      dsimp only
      by_cases hallow : w.filt.allow env.filterNow (cfg.codec.groupIndex f.txID) f = none
      · have hobs := processTransaction_observes raw (show Passes cfg w f env from
          ⟨hunverified, hallow⟩) ⟨hver, ne_zero_of_above hT⟩
        rw [if_pos hallow]
        exact hw.observe (hkey ▸ hobs) hT
      · rw [if_neg hallow, List.append_nil]
        refine hw.congr ?_
        rw [(processTransaction_of_not_passes raw fun hpass : Passes cfg w f env =>
          hallow hpass.2).1]

/-- **The run lemma**: the tracker knows of the flow exactly the numbers that passed. -/
theorem knows_after (hverify : cfg.verifyPayloadHash = false) {t : Tracker}
    (ht : w.tracker = some t) (hnew : t.flows.lookup h = none) {ops : List Op}
    (hops : ∀ op ∈ ops, FlowOp cfg h op) :
    Knows h (passed cfg w ops) (w.after cfg ops) := by
  induction ops using List.reverseRecOn with
  | nil =>
      refine ⟨t, [], ht, ?_⟩
      rw [hnew]
      exact trivial
  | append_singleton ops op ih =>
      have hold := ih fun o ho => hops o (List.mem_append_left _ ho)
      have hpassed : passed cfg w (ops ++ [op]) =
          passed cfg w ops ++ passing cfg (w.after cfg ops) op :=
        Machine.outputs_snoc ops op
      rw [hpassed, after_snoc]
      exact hold.step hverify (hops op (List.mem_append_right _ List.mem_cons_self))

/-- **Received numbers are never reported missing exactly when** at no point of the run a number
that was denied each time it arrived lies between the first and a larger number that passed. -/
theorem never_reported_missing_iff (cfg : WorkerConfig) (hverify : cfg.verifyPayloadHash = false)
    (h : UInt64) (w : Worker) (t : Tracker) (ht : w.tracker = some t)
    (hnew : t.flows.lookup h = none) (ops : List Op) (hops : ∀ op ∈ ops, FlowOp cfg h op) :
    (∀ pre, pre <+: ops → ∀ s ∈ received cfg.codec pre, ¬ Missing h s (w.after cfg pre)) ↔
      ∀ pre, pre <+: ops → ∀ s ∈ received cfg.codec pre, s ∉ passed cfg w pre →
        ¬ Spanned s (passed cfg w pre) := by
  refine forall_congr' fun pre => forall_congr' fun hpre => forall₂_congr fun s _ => ?_
  have hknows := knows_after hverify ht hnew fun op hop => hops op (hpre.subset hop)
  rw [hknows.missing_iff]
  tauto

end Worker

/-! ### A subtree that expires and is announced again -/

namespace Worker

/-- The group the test worker subscribes to. -/
def testGroup : GroupID := List.Vector.replicate 16 1

/-- A worker that takes the subtrees announced for one group. -/
def groupWorker : Worker :=
  { testWorker with filt := Filter.new [] [] [] (some (GroupRegistry.new [testGroup] 10)) }

/-- The subtree is announced for 10 ns. -/
def announce (now : Time) : Op := .groups (.add now testGroup (Bytes32.ofByte 0) 10)

/-- Frame `seqNum` of the flow 1 arrives. -/
def arrive (seqNum : UInt64) (now : Time) : Op :=
  .datagram (testRaw (testFrame 1 seqNum 0xA)) (Env.test now)

theorem flowOp_arrive (seqNum : UInt64) (now : Time)
    (hf : Codec.wire.transaction (testRaw (testFrame 1 seqNum 0xA)) =
      some (testFrame 1 seqNum 0xA))
    (hT : (testConfig Codec.wire).tracker.resetThreshold < seqNum) :
    FlowOp (testConfig Codec.wire) 1 (arrive seqNum now) := ⟨_, hf, rfl, rfl, hT⟩

/-- The announcement expires before frame 102 arrives and is renewed before frame 103. All three
frames were received, and 102 is reported missing. -/
theorem denied_reported_missing :
    (∀ op ∈ [announce 0, arrive 101 1, arrive 102 11, announce 12, arrive 103 13],
      FlowOp (testConfig Codec.wire) 1 op) ∧
    received Codec.wire [announce 0, arrive 101 1, arrive 102 11, announce 12,
      arrive 103 13] = [101, 102, 103] ∧
    ((groupWorker.after (testConfig Codec.wire) [announce 0, arrive 101 1, arrive 102 11,
      announce 12, arrive 103 13]).tracker.map fun t => t.pendingKeys 1) = some [102] := by
  refine ⟨?_, by decide +kernel, by decide +kernel⟩
  simp only [List.forall_mem_cons]
  exact ⟨trivial, flowOp_arrive 101 1 (by decide +kernel) (by decide),
    flowOp_arrive 102 11 (by decide +kernel) (by decide), trivial,
    flowOp_arrive 103 13 (by decide +kernel) (by decide), List.forall_mem_nil _⟩

/-- Both frames arrive in time. -/
theorem never_reported_missing_iff_announced :
    (∀ pre, pre <+: [announce 0, arrive 101 1, arrive 102 2] →
      ∀ s ∈ received Codec.wire pre,
        ¬ Missing 1 s (groupWorker.after (testConfig Codec.wire) pre)) ↔
    ∀ pre, pre <+: [announce 0, arrive 101 1, arrive 102 2] →
      ∀ s ∈ received Codec.wire pre,
        s ∉ passed (testConfig Codec.wire) groupWorker pre →
          ¬ Spanned s (passed (testConfig Codec.wire) groupWorker pre) := by
  refine never_reported_missing_iff (testConfig Codec.wire) rfl 1 groupWorker Tracker.new rfl
    rfl [announce 0, arrive 101 1, arrive 102 2] ?_
  simp only [List.forall_mem_cons]
  exact ⟨trivial, flowOp_arrive 101 1 (by decide +kernel) (by decide),
    flowOp_arrive 102 2 (by decide +kernel) (by decide), List.forall_mem_nil _⟩

end Worker

end ShardListener
