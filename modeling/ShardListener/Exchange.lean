import ShardListener.Datagrams
import ShardListener.Retention

/-!
# The Answers to NACKs

`sendNACK` sends its request from a socket of its own and reads one datagram from it. The socket
is not connected, so that datagram may come from anywhere; it is cut to the size of the buffer,
decoded, and only its message type is used.

Answers are datagrams here, and the process takes them as inputs. The result says which inputs
close a gap, and that no other does: not a MISS, not a datagram that is malformed, not a timeout,
and not the answer to a NACK for another gap.

## Main results

* `Answer.ofDatagram_eq`: what `sendNACK` takes a datagram for.
* `System.gap_step_eq_none_iff`: which events close a gap.
* `Process.gap_open_iff`: the same for the inputs of the process, over whole runs.
-/

namespace ShardListener

open ByteBuffer

/-! ### The answer -/

/-- A datagram that `DecodeResponse` takes for a response of a type. -/
def IsResponse (msgType : UInt8) (raw : Bytes) : Prop :=
  responseSize ≤ raw.length ∧ get 0 4 raw = bigEndian 4 nackMagic.toNat ∧ get 6 1 raw = [msgType]

instance (msgType : UInt8) (raw : Bytes) : Decidable (IsResponse msgType raw) :=
  inferInstanceAs (Decidable (_ ∧ _ ∧ _))

/-- What a datagram tells `sendNACK`. -/
inductive Answer
  | ack
  | miss
  | invalid
  deriving DecidableEq

/-- What `sendNACK` takes the datagram it has read for; nothing if its switch over the message
type has no case for it. -/
def Answer.ofDatagram (raw : Bytes) : Option Answer :=
  match Response.decode (raw.take (responseSize + 16)) with
  | .error _ => some .invalid
  | .ok resp =>
      if resp.msgType = msgTypeACK then some .ack
      else if resp.msgType = msgTypeMISS then some .miss
      else none

/-- The buffer holds more than what is looked at. -/
theorem isResponse_take {msgType : UInt8} {raw : Bytes} :
    IsResponse msgType (raw.take (responseSize + 16)) ↔ IsResponse msgType raw := by
  rw [IsResponse, IsResponse, get_take (by decide), get_take (by decide), List.length_take]
  simp [responseSize]

/-- The type of a response is what the datagram shows. -/
theorem Response.isResponse_iff {raw : Bytes} {resp : Response} (h : decode raw = .ok resp)
    (msgType : UInt8) : IsResponse msgType raw ↔ resp.msgType = msgType := by
  obtain ⟨hlen, -, hshows⟩ := (decode_eq_ok raw resp).mp h
  simp only [Format.Shows, format, fields, canonical] at hshows
  have hmagic : get 0 4 raw = bigEndian 4 nackMagic.toNat :=
    hshows (0, bigEndian 4 nackMagic.toNat) (by simp) (by simp)
  have htype : get 6 1 raw = [resp.msgType] := hshows (6, [resp.msgType]) (by simp) (by simp)
  rw [IsResponse, htype, and_iff_right hlen, and_iff_right hmagic, List.singleton_inj]

/-- **What `sendNACK` takes a datagram for.** The switch has a case for all that is decoded. -/
theorem Answer.ofDatagram_eq (raw : Bytes) :
    ofDatagram raw = some (if IsResponse msgTypeACK raw then .ack
      else if IsResponse msgTypeMISS raw then .miss else .invalid) := by
  simp only [ofDatagram, ← @isResponse_take _ raw]
  generalize raw.take (responseSize + 16) = raw
  cases h : Response.decode raw with
  | error err =>
      have hno : ¬ ∃ resp, Response.decode raw = .ok resp := by simp [h]
      rw [Response.decode_accepts] at hno
      rw [if_neg fun hack => hno ⟨hack.1, hack.2.1, .inr hack.2.2⟩,
        if_neg fun hmiss => hno ⟨hmiss.1, hmiss.2.1, .inl hmiss.2.2⟩]
  | ok resp =>
      have htype := ((Response.decode_eq_ok raw resp).mp h).2.1
      simp only [Response.isResponse_iff h]
      rcases htype with htype | htype <;> rw [htype] <;> rfl

/-! ### What closes a gap -/

namespace Tracker

variable {cfg : TrackerConfig} {t : Tracker} {h m : UInt64} {e : GapEntry}

/-- The frame of an arrival starts the flow over. -/
def Restarts (cfg : TrackerConfig) (t : Tracker) (a : Arrival) : Prop :=
  ∃ fs, t.flows.lookup a.hashKey = some fs ∧ a.seqNum ≤ cfg.resetThreshold ∧
    cfg.resetThreshold < fs.lastSeqNum

/-- **An arrival closes a gap** exactly when it is the missing frame, or when its flow starts
over. -/
theorem gap_observe_eq_none_iff (he : t.gap h m = some e) (a : Arrival) :
    (t.observe cfg a).gap h m = none ↔
      a.seqNum ≠ 0 ∧ a.hashKey = h ∧ (a.seqNum = m ∨ Restarts cfg t a) := by
  by_cases hs : a.seqNum = 0
  · rw [observe, if_pos hs, he]
    exact iff_of_false (Option.some_ne_none _) fun hc => hc.1 hs
  by_cases hh : h = a.hashKey
  · subst hh
    obtain ⟨fs, hfs, hm⟩ := gap_eq_some.mp he
    have hrestarts : Restarts cfg t a ↔
        a.seqNum ≤ cfg.resetThreshold ∧ cfg.resetThreshold < fs.lastSeqNum := by
      simp [Restarts, hfs]
    rw [and_iff_right hs, and_iff_right rfl, hrestarts, gap_of_lookup (lookup_observe hs), hfs,
      Option.getD_some]
    have herase : (fs.pending.erase a.seqNum).lookup m = none ↔ a.seqNum = m := by
      rw [AList.lookup_erase_ite, hm, eq_comm (a := a.seqNum)]
      split <;> simp [*]
    by_cases h₀ : fs.lastSeqNum = 0
    · rw [FlowState.observe_first h₀, herase, h₀]
      exact (or_iff_left fun hc => absurd hc.2 UInt64.not_lt_zero).symm
    by_cases hre : a.seqNum ≤ cfg.resetThreshold ∧ cfg.resetThreshold < fs.lastSeqNum
    · rw [FlowState.observe_restart h₀ hre.1 hre.2]
      exact iff_of_true rfl (.inr hre)
    rw [or_iff_left hre]
    by_cases hle : a.seqNum ≤ fs.lastSeqNum
    · rw [FlowState.observe_old h₀ hle hre, herase]
    · have hlt : fs.lastSeqNum < a.seqNum := UInt64.not_le.mp hle
      rw [FlowState.observe_new h₀ hlt, AList.lookup_eq_none, mem_foldl_registerGap, not_or,
        ← AList.lookup_eq_none, herase, mem_missingSeqs hlt]
      refine and_iff_right_of_imp ?_
      rintro rfl ⟨-, hc⟩
      exact absurd hc (UInt64.lt_irrefl _)
  · rw [gap, lookup_observe_of_ne hh]
    exact iff_of_false (by rw [← gap, he]; exact Option.some_ne_none _) fun hc => hh hc.2.1.symm

end Tracker

namespace System

variable {cfg : TrackerConfig} {s : System} {h m : UInt64} {e : GapEntry}

/-- The events that close a gap. -/
def Closes (cfg : TrackerConfig) (s : System) (h m : UInt64) (e : GapEntry) : Event → Prop
  | .observe a => a.seqNum ≠ 0 ∧ a.hashKey = h ∧ (a.seqNum = m ∨ Tracker.Restarts cfg s.tracker a)
  | .fill hashKey seqNum => seqNum ≠ 0 ∧ h = hashKey ∧ m = seqNum
  | .sweep now _ => ¬ Tracker.Live cfg now e
  | .ack i => ∃ c endpoint n, s.senders[i]? = some ⟨c, .awaiting endpoint n⟩ ∧ c.key = (h, m)
  | _ => False

/-- **Which events close a gap.** -/
theorem gap_step_eq_none_iff (he : s.tracker.gap h m = some e) (ev : Event) :
    (s.step cfg ev).tracker.gap h m = none ↔ s.Closes cfg h m e ev := by
  have hkept : ∀ t : Tracker, t.gap h m = s.tracker.gap h m → (t.gap h m = none ↔ False) := by
    intro t ht
    rw [ht, he]
    simp
  have hadvance : ∀ now c immediate n,
      (s.tracker.advanceEndpoint cfg now c immediate n).gap h m = none ↔ False := by
    intro now c immediate n
    rw [Tracker.gap_advanceEndpoint, he]
    split <;> simp
  rw [tracker_step]
  cases ev with
  | observe a => exact Tracker.gap_observe_eq_none_iff he a
  | fill hashKey seqNum =>
      simp only [call, Option.elim_some, Tracker.step, Tracker.fill, Closes]
      split_ifs with hz
      · simp [he, hz]
      · rw [Tracker.gap_closeGap, he, and_iff_right hz]
        split <;> simp_all
  | sweep now ord => exact Tracker.gap_sweepOnce_eq_none_iff he
  | ack i =>
      simp only [call, Closes]
      split
      · rename_i c endpoint n hi
        rw [Option.elim_some, Tracker.step, Tracker.cancelGap, Tracker.gap_closeGap, he]
        simp [hi, GapEntry.key, eq_comm]
      · rename_i hno
        refine (hkept _ rfl).trans (iff_of_false id ?_)
        rintro ⟨c, endpoint, n, hi, -⟩
        exact hno c endpoint n hi
  | fail i now =>
      simp only [call, Closes]
      split
      · exact hadvance _ _ _ _
      · exact hadvance _ _ _ _
      · exact hkept _ rfl
  | miss i now =>
      simp only [call, Closes]
      split
      · exact hadvance _ _ _ _
      · exact hkept _ rfl
  | receive | send =>
      simp only [call, Closes]
      split <;> exact hkept _ rfl
  | launch | select | upsert | evict => exact hkept _ rfl

end System

/-! ### The process -/

namespace Process

/-- A sender has returned: it has its answer, or its attempt has failed. -/
def Event.completes : Event → Bool
  | .nack ⟨.fail _ _, _⟩ | .nack ⟨.ack _, _⟩ | .nack ⟨.miss _ _, _⟩ => true
  | _ => false

/-- What happens to the process, with the answers as datagrams. The endpoint of a sender may not
resolve, or there is no socket for it (`unsendable`). -/
inductive Input
  | event (ev : Event) (h : ev.completes = false)
  | unsendable (i : ℕ) (now : Time)
  | timeout (i : ℕ) (now : Time)
  | response (i : ℕ) (now : Time) (raw : Bytes)

/-- What the sender `i` does about an answer. -/
def Event.ofAnswer (i : ℕ) (now : Time) : Answer → Event
  | .ack => .nack ⟨.ack i, rfl⟩
  | .miss => .nack ⟨.miss i now, rfl⟩
  | .invalid => .nack ⟨.fail i now, rfl⟩

/-- The phase of a sender. -/
def phase (p : Process) (i : ℕ) : Option Phase := p.nacks.senders[i]?.map Sender.phase

/-- The event of an input. A sender that has not sent gets no answer. -/
def Input.event? (p : Process) : Input → Option Event
  | .event ev _ => some ev
  | .unsendable i now =>
      match p.phase i with
      | some (.selected _ _) => some (.nack ⟨.fail i now, rfl⟩)
      | _ => none
  | .timeout i now =>
      match p.phase i with
      | some (.awaiting _ _) => some (.nack ⟨.fail i now, rfl⟩)
      | _ => none
  | .response i now raw =>
      match p.phase i with
      | some (.awaiting _ _) => (Answer.ofDatagram raw).map (Event.ofAnswer i now)
      | _ => none

/-- One input. -/
def take (cfg : ProcessConfig) (p : Process) (inp : Input) : Process :=
  (inp.event? p).elim p fun ev => (p.step cfg ev).1

/-- **What closes a gap**: its frame, a restart of its flow, a sweep that finds it too old or out
of retries, or an ACK that the sender of a NACK for it has read. -/
inductive Closes (cfg : ProcessConfig) (p : Process) (h m : UInt64) : Input → Prop
  | frame {ev : Event} {hev : ev.completes = false} {i : ℕ} {a : Arrival}
      (ha : p.action cfg ev = some (.observe i a)) (hz : a.seqNum ≠ 0) (hh : a.hashKey = h)
      (hm : a.seqNum = m) : Closes cfg p h m (.event ev hev)
  | restart {ev : Event} {hev : ev.completes = false} {i : ℕ} {a : Arrival}
      (ha : p.action cfg ev = some (.observe i a)) (hz : a.seqNum ≠ 0) (hh : a.hashKey = h)
      (hre : Tracker.Restarts cfg.worker.tracker p.nacks.tracker a) :
      Closes cfg p h m (.event ev hev)
  | expired {now : Time} {ord : Tracker.SweepOrder} {e : GapEntry}
      (he : p.nacks.tracker.gap h m = some e)
      (hdead : e.deadline < now ∨ cfg.worker.tracker.maxRetries ≤ e.retries) :
      Closes cfg p h m (.event (.nack ⟨.sweep now ord, rfl⟩) rfl)
  | acked {i : ℕ} {now : Time} {raw : Bytes} {c : GapEntry} {endpoint : EndpointEntry} {n : ℕ}
      (hi : p.nacks.senders[i]? = some ⟨c, .awaiting endpoint n⟩) (hkey : c.key = (h, m))
      (hraw : IsResponse msgTypeACK raw) : Closes cfg p h m (.response i now raw)

variable {cfg : ProcessConfig} {p : Process} {h m : UInt64} {e : GapEntry}

/-- Which events close a gap, as to the tracker. -/
theorem gap_step_eq_none_iff (he : p.nacks.tracker.gap h m = some e) (ev : Event) :
    (p.step cfg ev).1.nacks.tracker.gap h m = none ↔
      ∃ a ev', p.action cfg ev = some a ∧ a.event? = some ev' ∧
        p.nacks.Closes cfg.worker.tracker h m e ev' := by
  have hkept : ¬ p.nacks.tracker.gap h m = none := by simp [he]
  rw [step]
  cases p.action cfg ev with
  | none => exact iff_of_false hkept (by simp)
  | some a =>
      cases a with
      | datagram | tick | groups => exact iff_of_false hkept (by simp [Action.event?])
      | observe i a =>
          refine (System.gap_step_eq_none_iff he (.observe a)).trans ?_
          simp [Action.event?]
      | nacks ev' =>
          refine (System.gap_step_eq_none_iff he ev').trans ?_
          simp [Action.event?]

/-- The same, with the workers told apart from the goroutines of the tracker. -/
theorem closes_event_iff (he : p.nacks.tracker.gap h m = some e) {ev : Event}
    (hev : ev.completes = false) :
    (p.step cfg ev).1.nacks.tracker.gap h m = none ↔ Closes cfg p h m (.event ev hev) := by
  rw [gap_step_eq_none_iff he]
  constructor
  · rintro ⟨a, ev', ha, hev', hc⟩
    cases ev' with
    | observe b =>
        cases a with
        | observe i b' =>
            cases hev'
            obtain ⟨hz, hh, hm | hre⟩ := hc
            · exact .frame ha hz hh hm
            · exact .restart ha hz hh hre
        | nacks ev' =>
            cases hev'
            exact absurd (arrival?_of_nacks ha) (Option.some_ne_none _)
        | _ => cases hev'
    | sweep now ord =>
        obtain rfl := eq_of_action rfl ha hev'
        refine .expired he ?_
        rwa [System.Closes, Tracker.Live, not_and_or, not_le, not_lt] at hc
    | ack i =>
        obtain rfl := eq_of_action rfl ha hev'
        cases hev
    | fill hashKey seqNum =>
        cases a with
        | nacks ev' =>
            cases hev'
            rcases eq_of_action_nacks ha with ⟨_, _, heq⟩ | ⟨_, _, heq⟩ | ⟨hint, -⟩
            · cases heq
            · cases heq
            · cases hint
        | _ => cases hev'
    | _ => exact hc.elim
  · intro hc
    cases hc with
    | frame ha hz hh hm => exact ⟨_, _, ha, rfl, hz, hh, .inl hm⟩
    | restart ha hz hh hre => exact ⟨_, _, ha, rfl, hz, hh, .inr hre⟩
    | expired he' hdead =>
        obtain rfl := Option.some.inj (he.symm.trans he')
        refine ⟨_, _, rfl, rfl, ?_⟩
        rwa [System.Closes, Tracker.Live, not_and_or, not_le, not_lt]

/-- An event of a goroutine of the tracker closes a gap of the process as it does there. -/
theorem closes_nack_iff (he : p.nacks.tracker.gap h m = some e)
    (ev : { ev : ShardListener.Event // ev.internal = true }) :
    (p.step cfg (.nack ev)).1.nacks.tracker.gap h m = none ↔
      p.nacks.Closes cfg.worker.tracker h m e ev.1 :=
  System.gap_step_eq_none_iff he ev.1

theorem closes_response_iff {i : ℕ} {now : Time} {raw : Bytes} :
    Closes cfg p h m (.response i now raw) ↔
      IsResponse msgTypeACK raw ∧
        ∃ c endpoint n, p.nacks.senders[i]? = some ⟨c, .awaiting endpoint n⟩ ∧ c.key = (h, m) := by
  constructor
  · intro hc
    cases hc with
    | acked hi hkey hraw => exact ⟨hraw, _, _, _, hi, hkey⟩
  · rintro ⟨hraw, c, endpoint, n, hi, hkey⟩
    exact .acked hi hkey hraw

/-- **The step lemma**: which inputs close a gap. -/
theorem closes_iff (he : p.nacks.tracker.gap h m = some e) (inp : Input) :
    (p.take cfg inp).nacks.tracker.gap h m = none ↔ Closes cfg p h m inp := by
  have hkept : p.nacks.tracker.gap h m ≠ none := by simp [he]
  cases inp with
  | event ev hev => exact closes_event_iff he hev
  | unsendable i now =>
      refine iff_of_false ?_ (by rintro ⟨⟩)
      rw [take, Input.event?]
      split
      · exact (closes_nack_iff he _).not.mpr id
      · exact hkept
  | timeout i now =>
      refine iff_of_false ?_ (by rintro ⟨⟩)
      rw [take, Input.event?]
      split
      · exact (closes_nack_iff he _).not.mpr id
      · exact hkept
  | response i now raw =>
      rw [take, Input.event?, closes_response_iff]
      split
      · rw [Answer.ofDatagram_eq, Option.map_some, Option.elim_some]
        split_ifs with hack hmiss
        · exact (closes_nack_iff he _).trans (and_iff_right hack).symm
        · exact (closes_nack_iff he _).trans (iff_of_false id fun hc => hack hc.1)
        · exact (closes_nack_iff he _).trans (iff_of_false id fun hc => hack hc.1)
      · rename_i hphase
        refine iff_of_false hkept ?_
        rintro ⟨-, c, endpoint, n, hi, -⟩
        exact hphase endpoint n (by rw [phase, hi]; rfl)

/-- The process after some inputs. -/
def fed (cfg : ProcessConfig) (p : Process) (inputs : List Input) : Process :=
  Machine.run (take cfg) p inputs

/-- **How long a gap stays open.** Whatever the process has been through, a gap that is pending
stays so over all further inputs exactly as long as none of them closes it: a worker reports the
missing frame, or a frame with which the flow starts over, a sweep finds the gap past its deadline
or out of retries, or the sender of a NACK for this very gap reads an ACK. No other answer does,
and nothing else. -/
theorem gap_open_iff (s : Setup) (before inputs : List Input) (h m : UInt64) :
    let cfg := s.processConfig
    let p := s.start.fed cfg before
    (p.nacks.tracker.gap h m).isSome →
    ((∀ inputs₁, inputs₁ <+: inputs → ((p.fed cfg inputs₁).nacks.tracker.gap h m).isSome) ↔
      ∀ inputs₁ inp inputs₂, inputs = inputs₁ ++ inp :: inputs₂ →
        ¬ Closes cfg (p.fed cfg inputs₁) h m inp) := by
  intro cfg p hopen
  refine @Machine.run_throughout_iff _ _ (take cfg) p
    (fun p => (p.nacks.tracker.gap h m).isSome) (fun p => Closes cfg p h m) hopen ?_ inputs
  intro p inp hp
  obtain ⟨e, he⟩ := Option.isSome_iff_exists.mp hp
  rw [← closes_iff he inp, ← Option.not_isSome_iff_eq_none, not_not]

/-- The gap across two workers, up to the NACK for it. -/
def nackSent : List Input :=
  (gapAcrossWorkers ++ [Event.nack ⟨.send 0, rfl⟩]).filterMap fun ev =>
    if hev : ev.completes = false then some (.event ev hev) else none

/-- An ACK for another number, from whomever, closes the gap. -/
theorem gap_open_iff_acked :
    let cfg := Setup.pair.processConfig
    let p := Setup.pair.start.fed cfg nackSent
    let raw := ((Response.mk msgTypeACK 0 7).encode (List.replicate responseSize 0)).getD []
    ¬ ∀ inputs₁, inputs₁ <+: [Input.response 0 (2 * second) raw] →
      ((p.fed cfg inputs₁).nacks.tracker.gap 1 2).isSome := by
  intro cfg p raw hopen
  let c : GapEntry := ⟨1, 2, 0, Bytes32.ofByte 0, 0, Tracker.stamp second, 5 * second, 0⟩
  have hi : p.nacks.senders[0]? = some ⟨c, .awaiting ((System.advertOf 1 0 0).entry 0) 1⟩ := by
    decide +kernel
  refine (gap_open_iff Setup.pair nackSent [.response 0 (2 * second) raw] 1 2
    (by decide +kernel)).mp hopen [] _ [] rfl (.acked hi rfl ?_)
  decide +kernel

end Process

end ShardListener
