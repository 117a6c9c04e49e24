import ShardListener.Streams

/-!
# What TCP Egress Writes

`EgressSender` says whether a TCP send succeeded. This module says what has gone over the wire.
A write that fails may have put part of its buffer on the connection, and the receiver of a byte
stream cannot see where a frame was cut. `sendTCP` closes the connection after every failed
write, so the cut end is the end of the stream, and the next frame starts a new one.

## Main results

* `TcpWire.sendTCP_refines`: as to success and connection state the sender is an `EgressSender`.
* `TcpWire.segments_after`: a connection carries whole buffers, and then perhaps a cut one.
* `Worker.tcp_stream`: so over every run of a worker; the whole buffers are those of the messages
  counted as forwarded.
-/

namespace ShardListener

/-- The outcomes of the calls of one TCP send. A write that fails has taken `accepted` bytes. -/
structure TcpResult extends NetResult where
  accepted : ℕ

/-- The connections of a TCP sender, newest first, with what has been written to each. -/
structure TcpWire where
  conns : List Bytes
  connected : Bool
  deriving DecidableEq

namespace TcpWire

/-- The connection is established lazily. -/
def start : TcpWire := ⟨[], false⟩

/-- Dial, if there is no connection. -/
def dial (w : TcpWire) : TcpWire := if w.connected then w else ⟨[] :: w.conns, true⟩

/-- Write to the connection. -/
def write (w : TcpWire) (bs : Bytes) : TcpWire :=
  match w.conns with
  | conn :: conns => { w with conns := (conn ++ bs) :: conns }
  | [] => w

/-- `closeTCP`. -/
def close (w : TcpWire) : TcpWire := { w with connected := false }

/-- `sendTCP`. -/
def sendTCP (w : TcpWire) (buf : Bytes) (r : TcpResult) : TcpWire × Bool :=
  if w.connected = false ∧ r.dialed = false then (w, false)
  else if r.deadlineSet = false then (w.dial.close, false)
  else if r.written = false then ((w.dial.write (buf.take r.accepted)).close, false)
  else (w.dial.write buf, true)

/-- One send, with the buffer and whether it succeeded. -/
def step (w : TcpWire) (call : Bytes × TcpResult) : TcpWire × List Sent :=
  ((w.sendTCP call.1 call.2).1, [⟨call.1, (w.sendTCP call.1 call.2).2⟩])

/-- The sender after some sends. -/
def after (calls : List (Bytes × TcpResult)) : TcpWire :=
  Machine.run (Machine.next step) start calls

/-- What the sends returned. -/
def sent (calls : List (Bytes × TcpResult)) : List Sent := Machine.outputs step start calls

/-- The last call is made on the connection the others left. -/
theorem sent_snoc (calls : List (Bytes × TcpResult)) (call : Bytes × TcpResult) :
    sent (calls ++ [call]) =
      sent calls ++ [⟨call.1, ((after calls).sendTCP call.1 call.2).2⟩] :=
  Machine.outputs_snoc _ _

/-- A write does not close the connection. -/
theorem write_connected (w : TcpWire) (bs : Bytes) : (w.write bs).connected = w.connected := by
  rw [write]
  split <;> rfl

/-- A dial opens one. -/
theorem dial_connected (w : TcpWire) : w.dial.connected = true := by
  rw [dial]
  split
  · assumption
  · rfl

/-- **The sender is an `EgressSender`**, as to success and connection state. -/
theorem sendTCP_refines (w : TcpWire) (s : EgressSender) (h : s.connected = w.connected)
    (buf : Bytes) (r : TcpResult) :
    (s.sendTCP r.toNetResult).1.connected = (w.sendTCP buf r).1.connected ∧
      (s.sendTCP r.toNetResult).2 = (w.sendTCP buf r).2 := by
  rw [EgressSender.sendTCP, sendTCP, h]
  split_ifs
  · exact ⟨h, rfl⟩
  · exact ⟨rfl, rfl⟩
  · exact ⟨rfl, rfl⟩
  · exact ⟨((write_connected _ _).trans (dial_connected w)).symm, rfl⟩

/-! ### Segments -/

/-- What a connection carries: whole buffers, and the first part of one whose write failed. -/
structure Segment where
  whole : List Bytes
  cut : Bytes

def Segment.bytes (seg : Segment) : Bytes := seg.whole.flatten ++ seg.cut

/-- The segments are what the sends have put on the connections of `w`: what succeeded is there
as a whole and in order, what is cut has failed, and the open connection is not cut. -/
structure Carries (sents : List Sent) (segs : List Segment) (w : TcpWire) : Prop where
  conns : w.conns = segs.map Segment.bytes
  whole : segs.reverse.flatMap Segment.whole = (sents.filter Sent.ok).map Sent.buf
  cut : ∀ seg ∈ segs, seg.cut = [] ∨ ∃ s ∈ sents, s.ok = false ∧ seg.cut <+: s.buf
  connected : w.connected = true → ∃ seg segs', segs = seg :: segs' ∧ seg.cut = []

namespace Carries

variable {sents : List Sent} {segs : List Segment} {w : TcpWire} {buf : Bytes}

/-- Nothing is on the wire before the first call. -/
theorem start : Carries [] [] start := ⟨rfl, rfl, by simp, by simp [TcpWire.start]⟩

/-- A new connection is an empty segment. -/
theorem dial (h : Carries sents segs w) : ∃ segs', Carries sents segs' w.dial := by
  rw [TcpWire.dial]
  split
  · exact ⟨segs, h⟩
  · refine ⟨⟨[], []⟩ :: segs, congrArg _ h.conns, ?_, ?_, fun _ => ⟨_, _, rfl, rfl⟩⟩
    · rw [List.reverse_cons, List.flatMap_append, h.whole]
      simp
    · intro seg hseg
      rcases List.mem_cons.mp hseg with rfl | hseg
      · exact .inl rfl
      · exact h.cut seg hseg

/-- A send that fails without a write. -/
theorem failed (h : Carries sents segs w) (buf : Bytes) :
    Carries (sents ++ [⟨buf, false⟩]) segs w where
  conns := h.conns
  whole := by simp [h.whole]
  cut := by
    intro seg hseg
    rcases h.cut seg hseg with hcut | ⟨s, hs, hfail⟩
    · exact .inl hcut
    · exact .inr ⟨s, List.mem_append_left _ hs, hfail⟩
  connected := h.connected

/-- Closing the connection loses nothing that was written. -/
theorem close (h : Carries sents segs w) : Carries sents segs w.close :=
  ⟨h.conns, h.whole, h.cut, fun hconn => absurd hconn Bool.false_ne_true⟩

/-- A whole buffer is written to an open connection. -/
theorem write (h : Carries sents segs w) (hconn : w.connected = true) (buf : Bytes) :
    ∃ segs', Carries (sents ++ [⟨buf, true⟩]) segs' (w.write buf) := by
  obtain ⟨⟨whole, cut⟩, segs, rfl, rfl⟩ := h.connected hconn
  refine ⟨⟨whole ++ [buf], []⟩ :: segs, ?_, ?_, ?_, fun _ => ⟨_, _, rfl, rfl⟩⟩
  · rw [TcpWire.write, h.conns]
    simp [Segment.bytes]
  · have hwhole := h.whole
    rw [List.reverse_cons, List.flatMap_append] at hwhole ⊢
    rw [List.filter_append, List.map_append, ← hwhole]
    simp
  · intro seg hseg
    rcases List.mem_cons.mp hseg with rfl | hseg
    · exact .inl rfl
    · rcases h.cut seg (List.mem_cons_of_mem _ hseg) with hcut | ⟨s, hs, hfail⟩
      · exact .inl hcut
      · exact .inr ⟨s, List.mem_append_left _ hs, hfail⟩

/-- Part of a buffer is written, and the connection closed. -/
theorem writeCut (h : Carries sents segs w) (hconn : w.connected = true) (buf : Bytes) (n : ℕ) :
    ∃ segs', Carries (sents ++ [⟨buf, false⟩]) segs' (w.write (buf.take n)).close := by
  obtain ⟨⟨whole, cut⟩, segs, rfl, rfl⟩ := h.connected hconn
  refine ⟨⟨whole, buf.take n⟩ :: segs, ?_, ?_, ?_, fun hconn => absurd hconn Bool.false_ne_true⟩
  · rw [TcpWire.close, TcpWire.write, h.conns]
    simp [Segment.bytes]
  · have hwhole := h.whole
    rw [List.reverse_cons, List.flatMap_append] at hwhole ⊢
    simp [← hwhole]
  · intro seg hseg
    rcases List.mem_cons.mp hseg with rfl | hseg
    · exact .inr ⟨⟨buf, false⟩, by simp, rfl, List.take_prefix n buf⟩
    · exact (h.failed buf).cut seg (List.mem_cons_of_mem _ hseg)

end Carries

/-- **The step lemma**: a send adds its buffer, adds a first part of it and closes the
connection, or adds nothing. -/
theorem carries_sendTCP {sents : List Sent} {segs : List Segment} {w : TcpWire}
    (h : Carries sents segs w) (buf : Bytes) (r : TcpResult) :
    ∃ segs', Carries (sents ++ [⟨buf, (w.sendTCP buf r).2⟩]) segs' (w.sendTCP buf r).1 := by
  obtain ⟨segs', h'⟩ := h.dial
  rw [sendTCP]
  split_ifs
  · exact ⟨segs, h.failed buf⟩
  · exact ⟨segs', h'.close.failed buf⟩
  · exact h'.writeCut (dial_connected w) buf r.accepted
  · exact h'.write (dial_connected w) buf

/-- **A connection carries whole buffers**, and then perhaps a cut one. -/
theorem segments_after (calls : List (Bytes × TcpResult)) :
    ∃ segs, Carries (sent calls) segs (after calls) := by
  refine Machine.run_history (R := fun calls w => ∃ segs, Carries (sent calls) segs w)
    ⟨[], .start⟩ ?_ calls
  rintro calls ⟨buf, r⟩ ⟨segs, h⟩
  rw [sent_snoc]
  exact carries_sendTCP h buf r

end TcpWire

/-! ### Runs of a worker -/

/-- One send of a unicast sender, with the buffer and whether it succeeded. -/
def EgressSender.offer (s : EgressSender) (call : Bytes × NetResult) : EgressSender × List Sent :=
  ((s.sendRaw call.1 call.2).1, [(s.sendRaw call.1 call.2).2])

/-- A unicast send. -/
def Effect.sent? : Effect → List Sent
  | .unicast sent => [sent]
  | _ => []

/-- What unicast egress is given for a parcel. -/
def Parcel.buffer (p : Parcel) (stripHeader : Bool) : Bytes :=
  if stripHeader then p.payload else p.raw

/-- The unicast sends among what the first stage passes on. -/
def Item.send? (stripHeader : Bool) (e : Net × Item) : Option (Bytes × NetResult) :=
  e.2.parcel?.map fun p => (p.buffer stripHeader, e.1.unicast)

namespace Outlet

variable {cfg : WorkerConfig} {o : Outlet} {net : Net}

/-- Header egress does not use the connection. -/
theorem header_egr (bf : BlockFrame) : (o.header cfg net bf).1.egr = o.egr := by
  rw [header]
  split
  · rfl
  · rw [headerUnicast]
    split <;> rfl

/-- A parcel is one send of the unicast sender. -/
theorem emit_egr (p : Parcel) :
    (o.emit cfg net p).1.egr = (o.egr.sendRaw (p.buffer o.egr.stripHeader) net.unicast).1 := by
  cases p with
  | transaction raw f groupIdx => rfl
  | block raw bf => exact header_egr bf
  | subtreeData raw sf => rfl

/-- Every parcel is one send. -/
theorem emit_sent? (p : Parcel) :
    (o.emit cfg net p).2.flatMap Effect.sent? =
      [(o.egr.sendRaw (p.buffer o.egr.stripHeader) net.unicast).2] := by
  rw [flatMap_emit fun _ => rfl]
  cases p <;> simp [Effect.sent?] <;> rfl

end Outlet

/-- The unicast effects of the second stage are those of its sender alone. -/
theorem Downstream.sent?_outputs (cfg : WorkerConfig) (d : Downstream) (items : List (Net × Item)) :
    (Machine.outputs (step cfg) d items).flatMap Effect.sent? =
      Machine.outputs EgressSender.offer d.outlet.egr
        (items.filterMap (Item.send? d.outlet.egr.stripHeader)) := by
  induction items generalizing d with
  | nil => rfl
  | cons e items ih =>
      obtain ⟨net, item⟩ := e
      rw [Machine.outputs, List.flatMap_append, ih]
      cases item with
      | count m => rfl
      | call c => rfl
      | parcel p =>
          have hstrip : (d.outlet.emit cfg net p).1.egr.stripHeader = d.outlet.egr.stripHeader :=
            (Outlet.emit_sameSetup p).stripHeader
          rw [step, Outlet.emit_sent?, hstrip, Outlet.emit_egr]
          rfl

namespace Worker

/-- The sends of unicast egress in a run: buffer and network outcomes. -/
def unicastSends (cfg : WorkerConfig) (w : Worker) (ops : List Op) : List (Bytes × NetResult) :=
  (Machine.outputs (Intake.deal cfg) w.intake ops).filterMap (Item.send? w.egr.stripHeader)

/-- Unicast egress of a worker is its sender alone, on the sends. -/
theorem sent?_outputs (cfg : WorkerConfig) (w : Worker) (ops : List Op) :
    (Machine.outputs (step cfg) w ops).flatMap Effect.sent? =
      Machine.outputs EgressSender.offer w.egr (w.unicastSends cfg ops) := by
  rw [(two_stages w ops).2.2, Downstream.sent?_outputs]
  rfl

end Worker

/-- A TCP sender, seen as an `EgressSender`. -/
theorem TcpWire.sent_eq_offer {w : TcpWire} {s : EgressSender} (hproto : s.proto = .tcp)
    (hconn : s.connected = w.connected) (calls : List (Bytes × TcpResult)) :
    Machine.outputs EgressSender.offer s (calls.map fun c => (c.1, c.2.toNetResult)) =
      Machine.outputs step w calls := by
  induction calls generalizing w s with
  | nil => rfl
  | cons call calls ih =>
      obtain ⟨hconn', hok⟩ := sendTCP_refines w s hconn call.1 call.2
      have hraw : s.sendRaw call.1 call.2.toNetResult =
          ((s.sendTCP call.2.toNetResult).1, ⟨call.1, (s.sendTCP call.2.toNetResult).2⟩) := by
        rw [EgressSender.sendRaw, hproto]
      have hproto' := (s.sendTCP_setup call.2.toNetResult).1.trans hproto
      rw [List.map_cons, Machine.outputs, Machine.outputs, EgressSender.offer, hraw, hok,
        ih hproto' hconn']
      rfl

/-- **The TCP stream of a worker.** Take any run of a worker whose unicast egress is TCP, and any
numbers of bytes that its failing writes took before they failed. Every connection carries a
sequence of whole messages; at its end there may be the first part of a message whose send
returned an error, but not on the connection that is open. Connection after connection, the whole
messages are exactly those whose send returned no error, in order. -/
theorem Worker.tcp_stream (cfg : WorkerConfig) (w : Worker) (hproto : w.egr.proto = .tcp)
    (hconn : w.egr.connected = false) (ops : List Worker.Op) (calls : List (Bytes × TcpResult))
    (hcalls : calls.map (fun c => (c.1, c.2.toNetResult)) = w.unicastSends cfg ops) :
    let sents := (Machine.outputs (Worker.step cfg) w ops).flatMap Effect.sent?
    let wire := TcpWire.after calls
    ∃ segs : List TcpWire.Segment,
      wire.conns = segs.map (fun seg => seg.whole.flatten ++ seg.cut) ∧
      segs.reverse.flatMap TcpWire.Segment.whole = (sents.filter Sent.ok).map Sent.buf ∧
      (∀ seg ∈ segs, seg.cut = [] ∨ ∃ s ∈ sents, s.ok = false ∧ seg.cut <+: s.buf) ∧
      (wire.connected = true → ∃ seg segs', segs = seg :: segs' ∧ seg.cut = []) := by
  intro sents wire
  have hsents : sents = TcpWire.sent calls := by
    rw [TcpWire.sent, ← TcpWire.sent_eq_offer hproto hconn, hcalls]
    exact Worker.sent?_outputs cfg w ops
  obtain ⟨segs, h⟩ := TcpWire.segments_after calls
  rw [hsents]
  exact ⟨segs, h.conns, h.whole, h.cut, h.connected⟩

/-- The first write stops after ten bytes, the second frame goes over a new connection. -/
theorem Worker.tcp_stream_cut :
    let cfg := testConfig Codec.wire
    let w : Worker := { testWorker with egr := ⟨.tcp, false, false⟩ }
    let first := testRaw (testFrame 1 1 0xA)
    let second := testRaw (testFrame 1 2 0xB)
    let cut : NetResult := ⟨true, true, false⟩
    let ops := [Op.datagram first { Env.test 0 with unicast := cut }, .datagram second (Env.test 1)]
    let calls := [(first, (⟨cut, 10⟩ : TcpResult)), (second, ⟨.ok, 0⟩)]
    let sents := (Machine.outputs (Worker.step cfg) w ops).flatMap Effect.sent?
    let wire := TcpWire.after calls
    wire.conns = [second, first.take 10] ∧
    ∃ segs : List TcpWire.Segment,
      wire.conns = segs.map (fun seg => seg.whole.flatten ++ seg.cut) ∧
      segs.reverse.flatMap TcpWire.Segment.whole = (sents.filter Sent.ok).map Sent.buf ∧
      (∀ seg ∈ segs, seg.cut = [] ∨ ∃ s ∈ sents, s.ok = false ∧ seg.cut <+: s.buf) ∧
      (wire.connected = true → ∃ seg segs', segs = seg :: segs' ∧ seg.cut = []) :=
  ⟨by decide +kernel, Worker.tcp_stream _ _ rfl rfl _ _ (by decide +kernel)⟩

end ShardListener
