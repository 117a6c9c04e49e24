import ShardListener.Stages

/-!
# What a Worker Reports

Of the shared parts of the process a worker reads the filter and calls the gap tracker. Datagrams
and ticks leave the filter as it is, and every call they make of the tracker is a report of an
arrival, `Tracker.Observe`. So a worker can be run without a tracker, and its arrivals reported
afterwards.

## Main results

* `Worker.step_datagram_filt`, `Worker.step_tick_filt`: the filter is only read.
* `Worker.calls_eq_arrivals`: the tracker gets the arrivals of a worker and nothing else.
* `Worker.length_arrivals_datagram`, `Worker.arrivals_tick`: a datagram makes one arrival at most,
  and a tick makes none.
-/

namespace ShardListener

/-- The arrival a tracker call reports. -/
def Call.arrival? : Call → Option Arrival
  | .observe a => some a
  | _ => none

/-- The arrivals a worker reports in a run. -/
def Worker.arrivals (cfg : WorkerConfig) (w : Worker) (ops : List Worker.Op) : List Arrival :=
  (w.calls cfg ops).filterMap Call.arrival?

namespace Reassembly

variable (cfg : Config) (sha256 : Bytes → Bytes32)

/-- A full slot makes one callback at most. -/
theorem Slot.length_deliveries_complete (s : Slot) :
    (deliveries (s.complete cfg sha256)).length ≤ 1 := by
  rw [complete]
  split_ifs <;> simp [deliveries, List.filterMap_cons, Event.delivery]

/-- A fragment for an open slot makes one delivery at most, if it fills the slot. -/
theorem Buffer.length_deliveries_accept (b : Buffer) (s : Slot) (ff : FragFrame) :
    (deliveries (b.accept cfg sha256 s ff).2).length ≤ 1 := by
  rw [accept_events]
  cases s.filled ff with
  | none => exact Nat.zero_le 1
  | some full => exact full.length_deliveries_complete cfg sha256

/-- A fragment makes one delivery at most: the slots it gives up make none. -/
theorem Buffer.length_deliveries_observe (b : Buffer) (now : Time) (ff : FragFrame) :
    (deliveries (b.observe cfg sha256 now ff).2).length ≤ 1 := by
  rw [observe]
  dsimp only
  split
  · rw [deliveries_append, deliveries_evictExpired]
    exact length_deliveries_accept cfg sha256 _ _ ff
  · split
    · rw [deliveries_evictExpired]
      exact Nat.zero_le 1
    · rw [deliveries_append, deliveries_append, deliveries_evictExpired, deliveries_makeRoom]
      exact length_deliveries_accept cfg sha256 _ _ ff

end Reassembly

namespace Intake

variable {cfg : WorkerConfig} {i : Intake} {r : Readings}

/-! ### The filter is only read -/

/-- The duplicate check reads no filter. -/
theorem suppress_filt (groupIdx : UInt32) (f : Frame) :
    (i.suppress groupIdx f r).1.filt = i.filt := by
  rw [suppress]
  split
  · rfl
  · split <;> rfl

/-- A datagram leaves the filter alone. -/
theorem datagram_filt (raw : Bytes) : (i.datagram cfg raw r).1.filt = i.filt := by
  rw [datagram]
  split
  · split <;> rfl
  split
  · split <;> rfl
  split
  · rw [fragment]
    split
    · rfl
    · split <;> rfl
  split
  · rfl
  · rw [transaction]
    dsimp only
    split
    · rfl
    split
    · rfl
    · split <;> exact suppress_filt _ _

/-- A tick leaves the filter alone. -/
theorem tick_filt : (i.tick cfg r).1.filt = i.filt := by
  rw [tick]
  split <;> rfl

/-! ### Tracker calls are reports -/

/-- The items make `n` tracker calls at most, all of them reports of arrivals. -/
def Reports (n : ℕ) (items : List Item) : Prop :=
  (items.filterMap Item.call?).length ≤ n ∧ ∀ c, .call c ∈ items → ∃ a, c = .observe a

/-- No items, no calls. -/
@[simp] theorem reports_nil {n : ℕ} : Reports n [] := ⟨Nat.zero_le n, by simp⟩

/-- What is counted makes no difference. -/
@[simp] theorem reports_count {n : ℕ} {m : Metric} {items : List Item} :
    Reports n (.count m :: items) ↔ Reports n items :=
  and_congr Iff.rfl (by simp)

/-- What is sent makes no difference. -/
@[simp] theorem reports_parcel {n : ℕ} {p : Parcel} {items : List Item} :
    Reports n (.parcel p :: items) ↔ Reports n items :=
  and_congr Iff.rfl (by simp)

/-- One report. -/
@[simp] theorem reports_observe {groupIdx : UInt32} {subtreeID : Bytes32}
    {hashKey seqNum : UInt64} : Reports 1 [r.observe groupIdx subtreeID hashKey seqNum] := by
  simp [Reports, Readings.observe, Item.call?]

/-- A report that is made for stamped frames only. -/
@[simp] theorem reports_report {groupIdx : UInt32} {subtreeID : Bytes32}
    {hashKey seqNum : UInt64} :
    Reports 1 (report seqNum (r.observe groupIdx subtreeID hashKey seqNum)) := by
  rw [report]
  split <;> simp

/-- Two parts of the items. -/
theorem Reports.append {n n' : ℕ} {items items' : List Item} (h : Reports n items)
    (h' : Reports n' items') : Reports (n + n') (items ++ items') := by
  refine ⟨?_, fun c hc => (List.mem_append.mp hc).elim (h.2 c) (h'.2 c)⟩
  rw [List.filterMap_append, List.length_append]
  exact Nat.add_le_add h.1 h'.1

/-- A hook of the buffer makes no call, and a callback one at most. -/
theorem reports_reassembled (filt : Filter) (ev : Reassembly.Event) :
    Reports ev.delivery.toList.length (reassembled cfg filt r ev) := by
  cases ev with
  | started | abandoned | hashMismatch => simp [reassembled]
  | complete f =>
      rw [reassembled, Reassembly.Event.delivery]
      split
      · simp
      · split <;> simp
  | completeBlock bf =>
      rw [reassembled, Reassembly.Event.delivery]
      split <;> simp [block]
  | completeSubtree sf =>
      rw [reassembled, Reassembly.Event.delivery]
      split <;> simp [subtreeData]

/-- The events of the buffer make as many calls as they deliver messages, at most. -/
theorem reports_flatMap (filt : Filter) (evs : List Reassembly.Event) :
    Reports (Reassembly.deliveries evs).length (evs.flatMap (reassembled cfg filt r)) := by
  induction evs with
  | nil => exact reports_nil
  | cons ev evs ih =>
      have hlength : (Reassembly.deliveries (ev :: evs)).length =
          ev.delivery.toList.length + (Reassembly.deliveries evs).length := by
        rw [Reassembly.deliveries, List.filterMap_cons]
        cases ev.delivery with
        | none => exact (Nat.zero_add _).symm
        | some d => exact Nat.add_comm _ 1
      rw [hlength, List.flatMap_cons]
      exact (reports_reassembled filt ev).append ih

/-- A transaction makes one call at most. -/
theorem reports_transaction (raw : Bytes) (f : Frame) :
    Reports 1 (i.transaction cfg raw f r).2 := by
  rw [transaction]
  dsimp only
  split
  · simp
  split
  · simp
  split
  · simp
  · split <;> simp

/-- A datagram makes one call at most. -/
theorem reports_datagram (raw : Bytes) : Reports 1 (i.datagram cfg raw r).2 := by
  rw [datagram]
  split
  · split <;> simp [block]
  split
  · split <;> simp [subtreeData]
  split
  · rw [fragment]
    split
    · simp
    · split
      · simp
      · refine ⟨?_, (reports_flatMap _ _).2⟩
        exact (reports_flatMap _ _).1.trans
          (Reassembly.Buffer.length_deliveries_observe cfg.reassembly cfg.codec.sha256 _ _ _)
  split
  · simp
  · exact reports_transaction raw _

/-- A tick makes no call. -/
theorem reports_tick : Reports 0 (i.tick cfg r).2 := by
  rw [tick]
  split
  · simp
  · rename_i b _
    have hnone := congrArg List.length
      (@Reassembly.Buffer.deliveries_evictExpired b r.bufferNow)
    rw [← List.length_nil (α := Bytes32 × Bytes), ← hnone]
    exact reports_flatMap _ _

/-- The calls are the arrivals. -/
theorem Reports.filterMap_call {n : ℕ} {items : List Item} (h : Reports n items) :
    ((items.filterMap Item.call?).filterMap Call.arrival?).map Call.observe =
      items.filterMap Item.call? := by
  obtain ⟨-, h⟩ := h
  induction items with
  | nil => rfl
  | cons item items ih =>
      have hitems := ih fun c hc => h c (List.mem_cons_of_mem _ hc)
      cases item with
      | call c =>
          obtain ⟨a, rfl⟩ := h c List.mem_cons_self
          exact congrArg _ hitems
      | _ => exact hitems

end Intake

namespace Worker

variable {cfg : WorkerConfig} {w : Worker}

/-- A worker without a tracker stays without one. -/
theorem step_tracker (cfg : WorkerConfig) (hw : w.tracker = none) (op : Op) :
    (w.step cfg op).1.tracker = none := by
  have h := @tracker_after cfg w [op]
  rwa [hw] at h

/-- Datagrams leave the filter alone. -/
theorem step_datagram_filt (raw : Bytes) (env : Env) :
    (w.step cfg (.datagram raw env)).1.filt = w.filt := by
  rw [step_eq]
  exact Intake.datagram_filt raw

/-- Ticks leave the filter alone. -/
theorem step_tick_filt (env : Env) : (w.step cfg (.tick env)).1.filt = w.filt := by
  rw [step_eq]
  exact Intake.tick_filt

/-- The tracker calls of a run that is split at some point. -/
theorem calls_append (w : Worker) (ops ops' : List Op) :
    w.calls cfg (ops ++ ops') = w.calls cfg ops ++ (w.after cfg ops).calls cfg ops' := by
  rw [calls, calls, calls, List.map_append, Machine.outputs_append, List.filterMap_append,
    (two_stages w ops).1]

/-- The arrivals of a run that is split at some point. -/
theorem arrivals_append (w : Worker) (ops ops' : List Op) :
    w.arrivals cfg (ops ++ ops') = w.arrivals cfg ops ++ (w.after cfg ops).arrivals cfg ops' := by
  rw [arrivals, calls_append, List.filterMap_append]
  rfl

/-- The tracker calls of one operation. -/
theorem calls_singleton (w : Worker) (op : Op) :
    w.calls cfg [op] = (w.intake.step cfg op.intake).2.filterMap Item.call? := by
  rw [calls, List.map_singleton, Machine.outputs, Machine.outputs, List.append_nil]

/-- **A worker reports arrivals**: as long as nobody else calls its tracker, the tracker gets
nothing but them. -/
theorem calls_eq_arrivals (w : Worker) {ops : List Op} (hops : ∀ op ∈ ops, ∀ c, op ≠ .track c) :
    w.calls cfg ops = (w.arrivals cfg ops).map Call.observe := by
  induction ops generalizing w with
  | nil => rfl
  | cons op ops ih =>
      have hop : w.calls cfg [op] = (w.arrivals cfg [op]).map Call.observe := by
        rw [arrivals, calls_singleton]
        cases op with
        | datagram raw env => exact (Intake.reports_datagram raw).filterMap_call.symm
        | tick env => exact Intake.reports_tick.filterMap_call.symm
        | groups op => rfl
        | track c => exact absurd rfl (hops _ List.mem_cons_self c)
      rw [← List.singleton_append, calls_append, arrivals_append, List.map_append, hop,
        ih _ fun op hop => hops op (List.mem_cons_of_mem _ hop)]

/-- A datagram makes one arrival at most. -/
theorem length_arrivals_datagram (raw : Bytes) (env : Env) :
    (w.arrivals cfg [.datagram raw env]).length ≤ 1 := by
  rw [arrivals, calls_singleton]
  exact (List.length_filterMap_le _ _).trans (Intake.reports_datagram raw).1

/-- A tick makes no arrival. -/
theorem arrivals_tick (env : Env) : w.arrivals cfg [.tick env] = [] := by
  have hnone := List.length_eq_zero_iff.mp (Nat.le_zero.mp
    (@Intake.reports_tick cfg w.intake env.readings).1)
  rw [arrivals, calls_singleton]
  exact congrArg _ hnone

end Worker

end ShardListener
