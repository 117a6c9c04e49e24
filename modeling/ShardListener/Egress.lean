import ShardListener.Frame

/-!
# Egress Senders

The unicast sender of `egress/egress.go` and the multicast sender of `egress/mcast.go`. What
the network does is decided outside: the outcome of every system call a send may make is an
argument, so a run may present any pattern of successes and failures.
-/

namespace ShardListener

/-- The egress protocol. Any other configured text makes every send fail. -/
inductive Proto
  | udp
  | tcp
  | other
  deriving DecidableEq

/-- The outcomes of the calls of one send: the dial, the write deadline, the write. -/
structure NetResult where
  dialed : Bool
  deadlineSet : Bool
  written : Bool
  deriving DecidableEq

/-- All calls succeed. -/
def NetResult.ok : NetResult := ⟨true, true, true⟩

/-- A buffer handed to the network, and whether the send returned no error. -/
structure Sent where
  buf : Bytes
  ok : Bool
  deriving DecidableEq

/-- A unicast sender. `connected` is whether a TCP connection is open. -/
structure EgressSender where
  proto : Proto
  stripHeader : Bool
  connected : Bool
  deriving DecidableEq

namespace EgressSender

/-- `sendTCP`: dial if there is no connection; a failed write closes it. -/
def sendTCP (s : EgressSender) (net : NetResult) : EgressSender × Bool :=
  if s.connected = false ∧ net.dialed = false then (s, false)
  else if net.deadlineSet = false then ({ s with connected := false }, false)
  else if net.written = false then ({ s with connected := false }, false)
  else ({ s with connected := true }, true)

/-- `SendRaw`: the buffer as it is. -/
def sendRaw (s : EgressSender) (buf : Bytes) (net : NetResult) : EgressSender × Sent :=
  match s.proto with
  | .udp => (s, ⟨buf, net.written⟩)
  | .tcp => ((s.sendTCP net).1, ⟨buf, (s.sendTCP net).2⟩)
  | .other => (s, ⟨buf, false⟩)

/-- What goes on the wire for a frame: its payload alone in strip-header mode. -/
def buffer (s : EgressSender) (raw payload : Bytes) : Bytes :=
  if s.stripHeader then payload else raw

/-- `Send`. -/
def send (s : EgressSender) (raw : Bytes) (f : Frame) (net : NetResult) : EgressSender × Sent :=
  s.sendRaw (s.buffer raw f.payload) net

/-- `SendBlock`. -/
def sendBlock (s : EgressSender) (raw : Bytes) (bf : BlockFrame) (net : NetResult) :
    EgressSender × Sent :=
  s.sendRaw (s.buffer raw bf.payload) net

/-- `SendSubtreeData`. -/
def sendSubtreeData (s : EgressSender) (raw : Bytes) (sf : SubtreeDataFrame) (net : NetResult) :
    EgressSender × Sent :=
  s.sendRaw (s.buffer raw sf.payload) net

end EgressSender

/-- A multicast sender. `addrTemplate` has the 14 fixed bytes of the group addresses. -/
structure MCastSender where
  addrTemplate : Bytes
  egressPort : ℤ
  stripHeader : Bool
  deriving DecidableEq

/-- A multicast datagram, and whether the send returned no error. -/
structure SentTo extends Sent where
  addr : Bytes
  port : ℤ
  deriving DecidableEq

namespace MCastSender

/-- `SendToGroup`: the low 16 bits of the group index complete the address. -/
def sendToGroup (s : MCastSender) (buf : Bytes) (groupIdx : UInt32) (ok : Bool) : SentTo where
  buf := buf
  ok := ok
  addr := s.addrTemplate ++ [(groupIdx >>> 8).toUInt8, groupIdx.toUInt8]
  port := s.egressPort

/-- `Send`. -/
def send (s : MCastSender) (raw : Bytes) (f : Frame) (groupIdx : UInt32) (ok : Bool) : SentTo :=
  s.sendToGroup (if s.stripHeader then f.payload else raw) groupIdx ok

end MCastSender

end ShardListener
