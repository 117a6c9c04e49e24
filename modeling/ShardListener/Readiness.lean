import Mathlib.Data.List.TakeWhile
import ShardListener.AssocMap
import ShardListener.Groups
import ShardListener.Machine

/-!
# Readiness

From its start to its shutdown, the process as a load balancer sees it. Every worker opens its
socket, joins the groups one by one and then receives; it counts itself as ready from the last
join until its `Run` returns. `/readyz` compares that count with the number of workers, unless the
process is draining. A signal waits in a channel until `run` takes it; then `run` sets the
draining flag, sleeps for the drain timeout, and only then cancels the context of the workers.
With no drain timeout it cancels the context at once and sets no flag.

Once the context is cancelled, every worker has a goroutine that closes the socket under it, and
the worker itself returns when its `Recvfrom` does. Until then it is counted. The handler of a
request reads the count first and the flag later, and anything may happen in between.

## Main results

* `Service.sound_after`: the count is the number of workers between their last join and their
  return, and these have joined all groups.
* `Service.main_after`: how far `run` has come, and when the flag is set.
* `Service.serving_after`: until the context is cancelled, the workers that are counted receive.
* `Service.readyz_ok_iff`: when a request is answered with 200.
-/

namespace ShardListener

/-! ### Workers -/

/-- How far the `Run` of a worker has come. While it joins and afterwards: the groups that its
socket has joined. While it receives: the socket is still open. A worker is leaving once its
receive loop has returned, until the deferred `WorkerDone` has run. -/
inductive RunState
  | opening
  | joining (joined : List Bytes) (rest : List UDPAddr)
  | receiving (joined : List Bytes) (isOpen : Bool)
  | leaving (joined : List Bytes)
  | returned
  deriving DecidableEq

/-- What a `Recvfrom` returns: a datagram; EAGAIN or EWOULDBLOCK; EBADF or EINVAL; EINTR; any
other error. -/
inductive Recv
  | datagram
  | again
  | closed
  | interrupted
  | failed
  deriving DecidableEq

/-- The receive loop returns. -/
def Recv.ends (cancelled : Bool) : Recv → Bool
  | .datagram | .interrupted => false
  | .closed => true
  | .again | .failed => cancelled

/-- The next call of a worker, with the outcome of a system call; or the `Close` of the goroutine
that waits for the context. -/
inductive RunCall
  | openSocket (ok : Bool)
  | join (ok : Bool)
  | workerReady
  | recv (r : Recv)
  | workerDone
  | closeSocket
  deriving DecidableEq

namespace RunState

/-- The worker is between `WorkerReady` and `WorkerDone`. -/
def isCounted : RunState → Bool
  | .receiving _ _ | .leaving _ => true
  | _ => false

/-- The worker is counted, but has lost its socket or left its loop. -/
def isStopping : RunState → Bool
  | .receiving _ false | .leaving _ => true
  | _ => false

/-- `Run`, one call, and what it adds to the count of ready workers. A group that the socket has
joined cannot be joined again. The goroutine waits until the context is cancelled. What a
`Recvfrom` on a closed socket returns is left open. -/
def step (groups : List UDPAddr) (cancelled : Bool) : RunState → RunCall → RunState × ℤ
  | .opening, .openSocket ok => (if ok then .joining [] groups else .returned, 0)
  | .joining joined (grp :: rest), .join ok =>
      (if joined.contains grp.ip then .returned
        else if ok then .joining (joined ++ [grp.ip]) rest else .returned, 0)
  | .joining joined [], .workerReady => (.receiving joined true, 1)
  | .receiving joined isOpen, .recv r =>
      (if r.ends cancelled then .leaving joined else .receiving joined isOpen, 0)
  | .receiving joined isOpen, .closeSocket =>
      (.receiving joined (isOpen && !cancelled), 0)
  | .leaving _, .workerDone => (.returned, -1)
  | w, _ => (w, 0)

/-- What is joined, and what is still to be joined, are the groups; none is joined twice. -/
def Joins (groups : List UDPAddr) : RunState → Prop
  | .joining joined rest => joined.Nodup ∧ joined ++ rest.map UDPAddr.ip = groups.map UDPAddr.ip
  | .receiving joined _ | .leaving joined => joined.Nodup ∧ joined = groups.map UDPAddr.ip
  | _ => True

variable {groups : List UDPAddr}

/-- A call joins the next group, or leaves the groups as they are. -/
theorem Joins.step {w : RunState} (h : w.Joins groups) (cancelled : Bool) (call : RunCall) :
    (w.step groups cancelled call).1.Joins groups := by
  unfold RunState.step
  split
  · split
    · exact ⟨List.nodup_nil, rfl⟩
    · trivial
  · rename_i joined grp rest ok
    obtain ⟨hnodup, hall⟩ := h
    split_ifs with hmem
    · trivial
    · refine ⟨?_, ?_⟩
      · rw [← List.concat_eq_append]
        exact hnodup.concat (List.contains_iff_mem.not.mp hmem)
      · rw [← hall, List.append_assoc]
        rfl
    · trivial
  · rename_i joined
    obtain ⟨hnodup, hall⟩ := h
    exact ⟨hnodup, by rwa [List.map_nil, List.append_nil] at hall⟩
  · split <;> exact h
  · exact h
  · trivial
  · exact h

/-- A worker adds itself to the count and takes itself out again. -/
theorem step_count (w : RunState) (cancelled : Bool) (call : RunCall) :
    (w.step groups cancelled call).2 =
      (w.step groups cancelled call).1.isCounted.toInt - w.isCounted.toInt := by
  unfold RunState.step
  split
  · split <;> rfl
  · split_ifs <;> rfl
  · rfl
  · split <;> rfl
  · rfl
  · rfl
  · simp

/-- Before the context is cancelled, only an error of the socket makes a worker stop. -/
theorem isStopping_step {w : RunState} (h : w.isStopping = false) {call : RunCall}
    (hcall : call ≠ .recv .closed) : (w.step groups false call).1.isStopping = false := by
  unfold RunState.step
  split
  · split <;> rfl
  · split_ifs <;> rfl
  · rfl
  · rename_i joined isOpen r
    have hends : r.ends false = false := by
      cases r with
      | closed => exact absurd rfl hcall
      | datagram | again | interrupted | failed => rfl
    rw [hends]
    exact h
  · rename_i joined isOpen
    cases isOpen with
    | false => exact h
    | true => rfl
  · rfl
  · exact h

end RunState

/-! ### The process -/

/-- How far `run` has come after it started the workers: it waits for a signal, has taken one,
sleeps for the drain timeout, or has cancelled the context. -/
inductive MainState
  | waiting
  | notified
  | sleeping
  | cancelled
  deriving DecidableEq

/-- How far `run` has come when it has made `n` steps since the first signal. -/
def MainState.reached (drainTimeout : Duration) : ℕ → MainState
  | 0 => .waiting
  | 1 => .notified
  | 2 => if 0 < drainTimeout then .sleeping else .cancelled
  | _ => .cancelled

/-- The status in the body of an answer of `/readyz`. -/
inductive Status
  | draining
  | ready
  | starting
  deriving DecidableEq

/-- An answer of `/readyz`. -/
structure Readyz where
  code : ℕ
  status : Status
  workersReady : ℤ
  workersTotal : ℤ
  deriving DecidableEq

/-- `handleReadyz`, once it has read count and flag. -/
def handleReadyz (total ready : ℤ) (draining : Bool) : Readyz :=
  if draining then ⟨503, .draining, ready, total⟩
  else if total ≤ ready ∧ 0 < total then ⟨200, .ready, ready, total⟩
  else ⟨503, .starting, ready, total⟩

/-- What is fixed. -/
structure ServiceConfig where
  groups : List UDPAddr
  numWorkers : ℤ
  drainTimeout : Duration

/-- The process, with the requests whose handlers have read the count, and what they have read.
The channel of the signals has room for one. -/
structure Service where
  workers : List RunState
  readyCount : ℤ
  sigCh : Bool
  draining : Bool
  main : MainState
  requests : AssocMap ℕ ℤ

namespace Service

/-- A step of a worker, the arrival of a signal, a step of `run`, or one of the two halves of the
handler of a request. -/
inductive Event
  | worker (i : ℕ) (call : RunCall)
  | signal
  | run
  | request (id : ℕ)
  | respond (id : ℕ)
  deriving DecidableEq

/-- The workers are started and `run` is registered for signals, and nothing else has run yet.
(An earlier signal ends the process.) -/
def start (cfg : ServiceConfig) : Service :=
  ⟨List.replicate cfg.numWorkers.toNat .opening, 0, false, false, .waiting, ∅⟩

/-- The next step of `run`: it takes a signal, sets the flag if there is a drain timeout, and
cancels the context. -/
def runMain (cfg : ServiceConfig) (s : Service) : Service :=
  match s.main with
  | .waiting => if s.sigCh then { s with sigCh := false, main := .notified } else s
  | .notified =>
      if 0 < cfg.drainTimeout then { s with draining := true, main := .sleeping }
      else { s with main := .cancelled }
  | .sleeping => { s with main := .cancelled }
  | .cancelled => s

/-- One step, with the answer it gives. After the context has been cancelled the server is shut
down; that it takes no new requests then is not used. -/
def step (cfg : ServiceConfig) (s : Service) : Event → Service × List (ℕ × Readyz)
  | .worker i call =>
      match s.workers[i]? with
      | some w =>
          let out := w.step cfg.groups (s.main = .cancelled) call
          ({ s with workers := s.workers.set i out.1, readyCount := s.readyCount + out.2 }, [])
      | none => (s, [])
  | .signal => ({ s with sigCh := true }, [])
  | .run => (s.runMain cfg, [])
  | .request id =>
      (if id ∈ s.requests then s
        else { s with requests := s.requests.insert id s.readyCount }, [])
  | .respond id =>
      match s.requests.lookup id with
      | some ready =>
          ({ s with requests := s.requests.erase id },
            [(id, handleReadyz cfg.numWorkers ready s.draining)])
      | none => (s, [])

/-- The process after some steps. -/
def after (cfg : ServiceConfig) (es : List Event) : Service :=
  Machine.run (Machine.next (step cfg)) (start cfg) es

variable {cfg : ServiceConfig} {s : Service}

/-- `run` touches the channel, the flag and the context only. -/
theorem runMain_frame (cfg : ServiceConfig) (s : Service) :
    (s.runMain cfg).workers = s.workers ∧ (s.runMain cfg).readyCount = s.readyCount ∧
      (s.runMain cfg).requests = s.requests := by
  rw [runMain]
  split
  · split_ifs <;> exact ⟨rfl, rfl, rfl⟩
  · split_ifs <;> exact ⟨rfl, rfl, rfl⟩
  · exact ⟨rfl, rfl, rfl⟩
  · exact ⟨rfl, rfl, rfl⟩

/-! ### The count -/

/-- The number of workers between `WorkerReady` and `WorkerDone`. -/
def counted (s : Service) : ℕ := s.workers.countP RunState.isCounted

/-- What holds in every state. -/
structure Sound (cfg : ServiceConfig) (s : Service) : Prop where
  workers : s.workers.length = cfg.numWorkers.toNat
  joins : ∀ w ∈ s.workers, w.Joins cfg.groups
  readyCount : s.readyCount = s.counted

/-- At the start no worker is counted. -/
theorem Sound.start (cfg : ServiceConfig) : Sound cfg (start cfg) where
  workers := List.length_replicate
  joins := by
    intro w hw
    obtain rfl := List.eq_of_mem_replicate hw
    trivial
  readyCount := by
    have hcount : (List.replicate cfg.numWorkers.toNat RunState.opening).countP
        RunState.isCounted = 0 := by simp [List.countP_replicate, RunState.isCounted]
    exact congrArg Nat.cast hcount.symm

/-- The invariant is about the workers and their count alone. -/
theorem Sound.congr {s' : Service} (h : Sound cfg s) (hworkers : s'.workers = s.workers)
    (hcount : s'.readyCount = s.readyCount) : Sound cfg s' where
  workers := hworkers ▸ h.workers
  joins := hworkers ▸ h.joins
  readyCount := by rw [hcount, h.readyCount, counted, counted, hworkers]

/-- The number of counted workers after one of them has changed. -/
theorem countP_set {ws : List RunState} {i : ℕ} {w : RunState} (hw : ws[i]? = some w)
    (w' : RunState) :
    ((ws.set i w').countP RunState.isCounted : ℤ) =
      ws.countP RunState.isCounted + (w'.isCounted.toInt - w.isCounted.toInt) := by
  obtain ⟨hi, rfl⟩ := List.getElem?_eq_some_iff.mp hw
  have hpos : ws[i].isCounted = true → 0 < ws.countP RunState.isCounted := fun hr =>
    List.countP_pos_iff.mpr ⟨ws[i], List.getElem_mem hi, hr⟩
  rw [List.countP_set hi]
  cases hold : ws[i].isCounted with
  | false => cases w'.isCounted <;> simp
  | true =>
      have hpos := hpos hold
      cases w'.isCounted <;> simp <;> omega

/-- **The step lemma** for the count. -/
theorem Sound.step (h : Sound cfg s) (ev : Event) : Sound cfg (s.step cfg ev).1 := by
  cases ev with
  | worker i call =>
      rw [Service.step]
      split
      · rename_i w hw
        refine ⟨List.length_set.trans h.workers, ?_, ?_⟩
        · intro w' hw'
          rcases List.mem_or_eq_of_mem_set hw' with hw' | rfl
          · exact h.joins w' hw'
          · exact (h.joins w (List.mem_of_getElem? hw)).step _ call
        · change s.readyCount + (w.step _ _ call).2 = _
          rw [counted, countP_set hw, RunState.step_count, h.readyCount, counted]
      · exact h
  | signal => exact h.congr rfl rfl
  | run => exact h.congr (runMain_frame cfg s).1 (runMain_frame cfg s).2.1
  | request id =>
      simp only [Service.step]
      split_ifs
      · exact h
      · exact h.congr rfl rfl
  | respond id =>
      simp only [Service.step]
      split
      · exact h.congr rfl rfl
      · exact h

/-- **The run lemma**: the count is the number of workers between their last join and their
return. -/
theorem sound_after (cfg : ServiceConfig) (es : List Event) : Sound cfg (after cfg es) :=
  Machine.run_invariant (Sound.start cfg) (fun _ ev h => h.step ev) es

/-- The count is that of all workers exactly when all of them are counted. -/
theorem Sound.all_counted_iff (h : Sound cfg s) (hpos : 0 < cfg.numWorkers) :
    cfg.numWorkers ≤ s.readyCount ↔ ∀ w ∈ s.workers, w.isCounted = true := by
  have hlen := h.workers
  have hle : s.counted ≤ s.workers.length := List.countP_le_length
  have hall : cfg.numWorkers ≤ s.readyCount ↔ s.counted = s.workers.length := by
    rw [h.readyCount]
    omega
  rw [hall, counted, List.countP_eq_length]

/-- A worker that is counted has joined all groups, none of them twice. -/
theorem Sound.joined (h : Sound cfg s) {w : RunState} (hw : w ∈ s.workers)
    (hc : w.isCounted = true) :
    ((∃ isOpen, w = .receiving (cfg.groups.map UDPAddr.ip) isOpen) ∨
      w = .leaving (cfg.groups.map UDPAddr.ip)) ∧ (cfg.groups.map UDPAddr.ip).Nodup := by
  have hjoins := h.joins w hw
  cases w with
  | receiving joined isOpen =>
      obtain ⟨hnodup, rfl⟩ := hjoins
      exact ⟨.inl ⟨isOpen, rfl⟩, hnodup⟩
  | leaving joined =>
      obtain ⟨hnodup, rfl⟩ := hjoins
      exact ⟨.inr rfl, hnodup⟩
  | opening | joining | returned => cases hc

/-! ### The signal -/

/-- The steps that `run` has made since the first signal. -/
def sinceSignal (es : List Event) : ℕ := (es.dropWhile (· != .signal)).count .run

/-- There is nothing since the first signal if there is none. -/
theorem dropWhile_signal {es : List Event} :
    es.dropWhile (· != .signal) = [] ↔ .signal ∉ es := by
  rw [List.dropWhile_eq_nil_iff]
  constructor
  · exact fun h hmem => absurd (h _ hmem) (by decide)
  · exact fun h ev hev => bne_iff_ne.mpr fun heq => h (heq ▸ hev)

/-- A step of `run` counts if a signal has arrived before. -/
theorem sinceSignal_snoc (es : List Event) (ev : Event) :
    sinceSignal (es ++ [ev]) = sinceSignal es + if .signal ∈ es ∧ ev = .run then 1 else 0 := by
  simp only [sinceSignal, List.dropWhile_append, List.isEmpty_iff, dropWhile_signal]
  by_cases hmem : .signal ∈ es
  · rw [if_neg (not_not.mpr hmem), List.count_append, List.count_singleton]
    simp [hmem]
  · rw [if_pos hmem, dropWhile_signal.mpr hmem, if_neg fun h => hmem h.1]
    cases ev <;> rfl

/-- Without a signal no step of `run` counts. -/
theorem sinceSignal_of_notMem {es : List Event} (h : .signal ∉ es) : sinceSignal es = 0 := by
  rw [sinceSignal, dropWhile_signal.mpr h]
  rfl

/-- A step of `run` that does not wait takes it to the next state, and sets the flag if it is the
second one and there is a drain timeout. -/
theorem runMain_reached {n : ℕ} (h : s.main = .reached cfg.drainTimeout n)
    (hsigCh : n = 0 → s.sigCh = true) :
    (s.runMain cfg).main = .reached cfg.drainTimeout (n + 1) ∧
      ((s.runMain cfg).draining = true ↔ s.draining = true ∨ (0 < cfg.drainTimeout ∧ n = 1)) := by
  match n with
  | 0 => simp [runMain, h, hsigCh rfl, MainState.reached]
  | 1 => by_cases hpos : 0 < cfg.drainTimeout <;> simp [runMain, h, MainState.reached, hpos]
  | 2 => by_cases hpos : 0 < cfg.drainTimeout <;> simp [runMain, h, MainState.reached, hpos]
  | n + 3 => simp [runMain, h, MainState.reached]

/-- What is known of `run` after some events. -/
structure Follows (cfg : ServiceConfig) (es : List Event) (s : Service) : Prop where
  main : s.main = .reached cfg.drainTimeout (sinceSignal es)
  sigCh : sinceSignal es = 0 → (s.sigCh = true ↔ .signal ∈ es)
  draining : s.draining = true ↔ 0 < cfg.drainTimeout ∧ 2 ≤ sinceSignal es

/-- An event other than a signal that `run` does not notice. -/
theorem Follows.congr {s' : Service} {es : List Event} {ev : Event} (h : Follows cfg es s)
    (hsignal : ev ≠ .signal) (hsince : sinceSignal (es ++ [ev]) = sinceSignal es)
    (hmain : s'.main = s.main) (hsigCh : s'.sigCh = s.sigCh)
    (hdraining : s'.draining = s.draining) :
    Follows cfg (es ++ [ev]) s' := by
  have hmem : .signal ∈ es ++ [ev] ↔ .signal ∈ es := by
    rw [List.mem_append, List.mem_singleton, or_iff_left hsignal.symm]
  constructor
  · rw [hsince, hmain, h.main]
  · rw [hsince, hsigCh, hmem]
    exact h.sigCh
  · rw [hsince, hdraining]
    exact h.draining

/-- A step of `run` takes it to its next state, unless it waits for a signal. -/
theorem Follows.run {es : List Event} (h : Follows cfg es s) :
    Follows cfg (es ++ [.run]) (s.runMain cfg) := by
  by_cases hsignal : .signal ∈ es
  · have hsince : sinceSignal (es ++ [.run]) = sinceSignal es + 1 := by
      rw [sinceSignal_snoc, if_pos ⟨hsignal, rfl⟩]
    obtain ⟨hmain, hdraining⟩ := runMain_reached h.main fun hzero => (h.sigCh hzero).mpr hsignal
    refine ⟨hsince ▸ hmain, fun hzero => absurd hzero (by omega), ?_⟩
    rw [hsince, hdraining, h.draining, ← and_or_left]
    exact and_congr_right' (by omega)
  · have hzero := sinceSignal_of_notMem hsignal
    have hmain : s.main = .waiting := by rw [h.main, hzero, MainState.reached]
    have hstay : s.runMain cfg = s := by
      simp only [runMain, hmain]
      rw [if_neg ((h.sigCh hzero).not.mpr hsignal)]
    rw [hstay]
    refine h.congr (by decide) ?_ rfl rfl rfl
    rw [sinceSignal_snoc, if_neg fun hc => hsignal hc.1, add_zero]

/-- A signal is put in the channel; `run` does not move. -/
theorem Follows.signal {es : List Event} (h : Follows cfg es s) :
    Follows cfg (es ++ [.signal]) { s with sigCh := true } := by
  have hsince : sinceSignal (es ++ [.signal]) = sinceSignal es := by
    rw [sinceSignal_snoc, if_neg fun hc => absurd hc.2 (by decide), add_zero]
  refine ⟨by rw [hsince, ← h.main], fun _ => ?_, by rw [hsince, ← h.draining]⟩
  exact ⟨fun _ => List.mem_append_right _ List.mem_cons_self, fun _ => rfl⟩

/-- **How far `run` has come**: as far as the steps take it that it made since the first signal.
The flag is set with the second of them, if there is a drain timeout. -/
theorem main_after (cfg : ServiceConfig) (es : List Event) : Follows cfg es (after cfg es) := by
  refine Machine.run_history (s := start cfg) (R := Follows cfg) ?_ ?_ es
  · exact ⟨rfl, fun _ => by simp [start], by simp [start, sinceSignal]⟩
  · intro es ev h
    rw [Machine.next]
    generalize Machine.run (Machine.next (step cfg)) (start cfg) es = s at h ⊢
    have hother : ev ≠ .run → sinceSignal (es ++ [ev]) = sinceSignal es := fun hev => by
      rw [sinceSignal_snoc, if_neg fun hc => hev hc.2, add_zero]
    cases ev with
    | worker i call =>
        simp only [step]
        split <;> exact h.congr (by simp) (hother (by simp)) rfl rfl rfl
    | signal => exact h.signal
    | run => exact h.run
    | request id =>
        simp only [step]
        split_ifs <;> exact h.congr (by simp) (hother (by simp)) rfl rfl rfl
    | respond id =>
        simp only [step]
        split <;> exact h.congr (by simp) (hother (by simp)) rfl rfl rfl

/-- The context is cancelled by the second step since the first signal, or by the third if there
is a drain timeout. -/
theorem main_eq_cancelled_iff (cfg : ServiceConfig) (es : List Event) :
    (after cfg es).main = .cancelled ↔
      2 ≤ sinceSignal es ∧ (0 < cfg.drainTimeout → 3 ≤ sinceSignal es) := by
  rw [(main_after cfg es).main]
  rcases sinceSignal es with _ | _ | _ | n
  · simp [MainState.reached]
  · simp [MainState.reached]
  · simp only [MainState.reached]
    split_ifs with hpos <;> simp [hpos]
  · simp [MainState.reached]

/-- Later events do not take steps of `run` back. -/
theorem sinceSignal_le_append (es fs : List Event) :
    sinceSignal es ≤ sinceSignal (es ++ fs) := by
  induction fs using List.reverseRecOn with
  | nil => rw [List.append_nil]
  | append_singleton fs ev ih =>
      rw [← List.append_assoc, sinceSignal_snoc]
      exact ih.trans (Nat.le_add_right _ _)

/-! ### The sockets -/

/-- **Until the context is cancelled**, the sockets stay open and the workers in their loops, if no
`Recvfrom` fails as on a closed socket. -/
theorem serving_after (cfg : ServiceConfig) (es : List Event)
    (hmain : (after cfg es).main ≠ .cancelled)
    (hrecv : ∀ i, .worker i (.recv .closed) ∉ es) :
    ∀ w ∈ (after cfg es).workers, w.isStopping = false := by
  induction es using List.reverseRecOn with
  | nil =>
      intro w hw
      obtain rfl := List.eq_of_mem_replicate hw
      rfl
  | append_singleton es ev ih =>
      have hbefore : (after cfg es).main ≠ .cancelled := by
        have hle := sinceSignal_le_append es [ev]
        rw [Ne, main_eq_cancelled_iff] at hmain ⊢
        exact fun hc => hmain ⟨hc.1.trans hle, fun hpos => (hc.2 hpos).trans hle⟩
      have ih := ih hbefore fun i hmem => hrecv i (List.mem_append_left _ hmem)
      rw [after, Machine.run_snoc, ← after, Machine.next]
      cases ev with
      | worker i call =>
          simp only [step]
          split
          · rename_i w hw
            intro w' hw'
            rcases List.mem_or_eq_of_mem_set hw' with hw' | rfl
            · exact ih w' hw'
            · rw [decide_eq_false hbefore]
              refine RunState.isStopping_step (ih w (List.mem_of_getElem? hw)) ?_
              rintro rfl
              exact hrecv i (List.mem_append_right _ List.mem_cons_self)
          · exact ih
      | signal => exact ih
      | run =>
          simp only [step, (runMain_frame cfg _).1]
          exact ih
      | request id =>
          simp only [step]
          split_ifs <;> exact ih
      | respond id =>
          simp only [step]
          split <;> exact ih

/-! ### Requests -/

/-- A handler keeps the count that it has read. -/
theorem lookup_step {id : ℕ} {ready : ℤ} (h : s.requests.lookup id = some ready) {ev : Event}
    (hev : ev ≠ .respond id) : (s.step cfg ev).1.requests.lookup id = some ready := by
  cases ev with
  | worker i call =>
      simp only [step]
      split <;> exact h
  | signal => exact h
  | run =>
      simp only [step, (runMain_frame cfg s).2.2]
      exact h
  | request id' =>
      simp only [step]
      split_ifs with hmem
      · exact h
      · have hne : id ≠ id' := by
          rintro rfl
          exact hmem (AList.mem_iff_lookup.mpr ⟨ready, h⟩)
        exact (AList.lookup_insert_ne hne).trans h
  | respond id' =>
      have hne : id ≠ id' := by
        rintro rfl
        exact hev rfl
      simp only [step]
      split
      · exact (AList.lookup_erase_ne hne).trans h
      · exact h

/-- A handler keeps the count until it answers. -/
theorem lookup_run {id : ℕ} {ready : ℤ} (h : s.requests.lookup id = some ready) {es : List Event}
    (hes : .respond id ∉ es) :
    (Machine.run (Machine.next (step cfg)) s es).requests.lookup id = some ready := by
  induction es generalizing s with
  | nil => exact h
  | cons ev es ih =>
      rw [List.mem_cons, not_or] at hes
      exact ih (lookup_step h (Ne.symm hes.1)) hes.2

/-- A handler that starts after `es₁` answers with the count of then. -/
theorem lookup_request (cfg : ServiceConfig) (es₁ : List Event) {es₂ : List Event} {id : ℕ}
    (hnew : id ∉ (after cfg es₁).requests) (hopen : .respond id ∉ es₂) :
    (after cfg (es₁ ++ .request id :: es₂)).requests.lookup id =
      some (after cfg es₁).readyCount := by
  rw [after, Machine.run_append, Machine.run_cons]
  refine lookup_run ?_ hopen
  change (step cfg (after cfg es₁) (.request id)).1.requests.lookup id = _
  rw [step, if_neg hnew]
  exact AList.lookup_insert _

end Service

/-- When the handler answers 200, by what it has read. -/
theorem handleReadyz_ok_iff {total ready : ℤ} {draining : Bool} :
    (handleReadyz total ready draining).code = 200 ↔
      0 < total ∧ total ≤ ready ∧ draining = false := by
  rw [handleReadyz]
  split_ifs with hdraining hready
  · simp [hdraining]
  · simp [hready, hdraining]
  · simp only [hdraining, and_true]
    exact iff_of_false (by decide) fun hc => hready hc.symm

/-- What `run` takes from the configuration. -/
def Configuration.service (c : Configuration) (engine : Engine c.mcPrefix c.mcGroupID c.shardBits)
    (drainTimeout : Duration) : ServiceConfig :=
  ⟨c.buildGroups engine, c.numWorkers, drainTimeout⟩

namespace Service

/-- **Readiness.** Take any run of a process whose command line `Load` accepts, and any request
to `/readyz`, whatever happens while it is handled. The answer is 200 exactly if there are
workers, all of them were counted when the handler read the count, that is, had joined every group
and not yet returned, and, unless there is no drain timeout, `run` had not set the flag when the
handler read it: it had made at most one step since the first signal, that of taking it.

If the answer is 200, and there is a drain timeout or the context had not been cancelled when the
count was read, then all workers were receiving on open sockets, if no `Recvfrom` had failed as on
a closed socket. And if two entries of the list of shards have the same value, the answer is
never 200. -/
theorem readyz_ok_iff (host : Host) (f : CommandLine) (c : Configuration)
    (hload : Configuration.load host f = .ok c) (engine : Engine c.mcPrefix c.mcGroupID c.shardBits)
    (drainTimeout : Duration) (es₁ es₂ : List Event) (id : ℕ) :
    let cfg := c.service engine drainTimeout
    let joined := (c.buildGroups engine).map UDPAddr.ip
    id ∉ (after cfg es₁).requests → .respond id ∉ es₂ →
    ∃ r, (step cfg (after cfg (es₁ ++ .request id :: es₂)) (.respond id)).2 = [(id, r)] ∧
      (r.code = 200 ↔
        0 < c.numWorkers ∧
        (∀ w ∈ (after cfg es₁).workers,
          (∃ isOpen, w = .receiving joined isOpen) ∨ w = .leaving joined) ∧
        (0 < drainTimeout → sinceSignal (es₁ ++ .request id :: es₂) ≤ 1)) ∧
      (r.code = 200 → (0 < drainTimeout ∨ (after cfg es₁).main ≠ .cancelled) →
        (∀ i, .worker i (.recv .closed) ∉ es₁) →
        ∀ w ∈ (after cfg es₁).workers, w = .receiving joined true) ∧
      (r.code = 200 → ((ShardListener.entries f.shardInclude).map (Text.value 10)).Nodup) := by
  intro cfg joined hnew hopen
  have hsound := sound_after cfg es₁
  have hdraining := (main_after cfg (es₁ ++ .request id :: es₂)).draining
  have hanswer : (step cfg (after cfg (es₁ ++ .request id :: es₂)) (.respond id)).2 =
      [(id, handleReadyz c.numWorkers (after cfg es₁).readyCount
        (after cfg (es₁ ++ .request id :: es₂)).draining)] := by
    simp only [step, lookup_request cfg es₁ hnew hopen]
    rfl
  have hflag : (after cfg (es₁ ++ .request id :: es₂)).draining = false ↔
      (0 < drainTimeout → sinceSignal (es₁ ++ .request id :: es₂) ≤ 1) := by
    rw [← Bool.not_eq_true, hdraining, not_and, not_le, Nat.lt_succ_iff]
    rfl
  refine ⟨_, hanswer, ?_, fun hok hcancel hrecv w hw => ?_, fun hok => ?_⟩
  · rw [handleReadyz_ok_iff, hflag]
    refine and_congr_right fun hpos => and_congr_left' ((hsound.all_counted_iff hpos).trans ?_)
    refine forall₂_congr fun w hw => ⟨fun hc => (hsound.joined hw hc).1, ?_⟩
    rintro (⟨isOpen, rfl⟩ | rfl) <;> rfl
  · obtain ⟨hpos, hall, hundrained⟩ := handleReadyz_ok_iff.mp hok
    -- the flag is set before the context is cancelled, and read after the count
    have hmain : (after cfg es₁).main ≠ .cancelled := by
      rcases hcancel with hdrain | hmain
      · have hle := (sinceSignal_le_append es₁ (.request id :: es₂)).trans
          (hflag.mp hundrained hdrain)
        rw [Ne, main_eq_cancelled_iff]
        omega
      · exact hmain
    have hserving := serving_after cfg es₁ hmain hrecv w hw
    rcases (hsound.joined hw ((hsound.all_counted_iff hpos).mp hall w hw)).1 with
      ⟨_ | _, rfl⟩ | rfl
    · cases hserving
    · rfl
    · cases hserving
  · -- there is a worker, and it has joined all groups
    obtain ⟨hpos, hall, -⟩ := handleReadyz_ok_iff.mp hok
    have hlen : 0 < (after cfg es₁).workers.length := by
      rw [hsound.workers]
      exact Int.pos_iff_toNat_pos.mp hpos
    have hw := List.getElem_mem hlen
    have hnodup : ((c.buildGroups engine).map UDPAddr.ip).Nodup :=
      (hsound.joined hw ((hsound.all_counted_iff hpos).mp hall _ hw)).2
    have hres := Configuration.load_eq_ok.mp hload
    rw [Configuration.map_ip_buildGroups, hres.wellFormed.nodup_groups_iff,
      hres.nodup_shardInclude_iff] at hnodup
    exact hnodup.1

/-- A worker joins its three groups. A signal arrives while a request is handled, and `run` takes
it; in the second case it sets the flag as well. -/
theorem readyz_ok_iff_joined :
    let cfg := (Configuration.withShards [3, 1]).service Configuration.siteLayout second
    let es := [Event.worker 0 (.openSocket true), .worker 0 (.join true), .worker 0 (.join true),
      .worker 0 (.join true), .worker 0 .workerReady]
    (∃ r, (step cfg (after cfg (es ++ [.request 1, .signal, .run])) (.respond 1)).2 = [(1, r)] ∧
        r.code = 200) ∧
      ∃ r, (step cfg (after cfg (es ++ [.request 1, .signal, .run, .run])) (.respond 1)).2 =
          [(1, r)] ∧ r.code ≠ 200 := by
  intro cfg es
  have hload : Configuration.load Configuration.eth0Host
      { CommandLine.default 1 with shardInclude := Text.ascii " 3 ,,01" } =
        .ok (Configuration.withShards [3, 1]) := by decide
  obtain ⟨r, hr, hok, -⟩ := readyz_ok_iff _ _ _ hload Configuration.siteLayout second es
    [.signal, .run] 1 (by decide) (by decide)
  obtain ⟨r', hr', hok', -⟩ := readyz_ok_iff _ _ _ hload Configuration.siteLayout second es
    [.signal, .run, .run] 1 (by decide) (by decide)
  have hworkers : ∀ w ∈ (after cfg es).workers,
      w = .receiving (((Configuration.withShards [3, 1]).buildGroups Configuration.siteLayout).map
        UDPAddr.ip) true := by decide
  refine ⟨⟨r, hr, hok.mpr ⟨by decide, fun w hw => .inl ⟨true, hworkers w hw⟩, by decide⟩⟩, r', hr',
    hok'.not.mpr fun hc => ?_⟩
  exact absurd (hc.2.2 (by decide)) (by decide)

end Service

end ShardListener
