import ShardListener.Stages
import ShardListener.Suppression

/-!
# The Egress Streams

A worker has up to four outlets: unicast and multicast egress of frames, unicast and multicast
egress of block headers. By `Worker.two_stages` they are all fed from one sequence of messages,
the parcels of the first stage, which was made without looking at any of them.

## Main results

* `Worker.egress_independent`: which senders there are, and which of their calls fail, makes no
  difference to the filter, the duplicate set, the reassembly buffer, the gap tracker and what
  the worker counts about the frames it receives.
* `Worker.egress_streams`: what is offered to each outlet over a run is the sequence of parcels,
  cut down to what that outlet is for and put into its form; failures lose no message, repeat
  none and reorder none.
-/

namespace ShardListener

/-! ### Parcels -/

namespace Parcel

/-- The datagram of a parcel. -/
def raw : Parcel → Bytes
  | .transaction raw _ _ => raw
  | .block raw _ => raw
  | .subtreeData raw _ => raw

/-- The payload of its frame. -/
def payload : Parcel → Bytes
  | .transaction _ f _ => f.payload
  | .block _ bf => bf.payload
  | .subtreeData _ sf => sf.payload

/-- The header frame of a block announcement. -/
def headerFrame (cfg : WorkerConfig) : Parcel → Option Bytes
  | .block _ bf => Outlet.headerFrame cfg bf
  | _ => none

end Parcel

/-- The parcels an intake passes on along a run, in order. -/
def Intake.parcels (cfg : WorkerConfig) (i : Intake) (ops : List Intake.Op) : List Parcel :=
  (Machine.outputs (Intake.step cfg) i ops).filterMap Item.parcel?

/-! ### What is read off the effects -/

/-- Where a multicast datagram goes, and what it holds. -/
structure Multicast where
  addr : Bytes
  port : ℤ
  buf : Bytes
  deriving DecidableEq

def SentTo.datagram (s : SentTo) : Multicast := ⟨s.addr, s.port, s.buf⟩

namespace Effect

/-- The buffer of a unicast send. -/
def unicast? : Effect → List Bytes
  | .unicast sent => [sent.buf]
  | _ => []

/-- The datagram of a multicast send. -/
def multicast? : Effect → List Multicast
  | .multicast sent => [sent.datagram]
  | _ => []

/-- The buffer of a unicast send of a header. -/
def headerUnicast? : Effect → List Bytes
  | .headerUnicast sent => [sent.buf]
  | _ => []

/-- The datagram of a multicast send of a header. -/
def headerMulticast? : Effect → List Multicast
  | .headerMulticast sent => [sent.datagram]
  | _ => []

/-- What is counted about received frames. -/
def intake? : Effect → List Metric
  | .count (.frameForwarded _) => []
  | .count .egressError => []
  | .count .mcEgressError => []
  | .count .headerForwarded => []
  | .count .headerEgressError => []
  | .count m => [m]
  | _ => []

end Effect

/-! ### One parcel -/

namespace Outlet

variable {cfg : WorkerConfig} {net : Net}

/-- What a send leaves alone: everything but the state of the connections. -/
structure SameSetup (o o' : Outlet) : Prop where
  proto : o'.egr.proto = o.egr.proto
  stripHeader : o'.egr.stripHeader = o.egr.stripHeader
  mcastEgr : o'.mcastEgr = o.mcastEgr
  headerEgr : o'.headerEgr.isSome = o.headerEgr.isSome
  headerMCastEgr : o'.headerMCastEgr = o.headerMCastEgr

/-- Senders that are not used keep their setup. -/
theorem SameSetup.refl (o : Outlet) : SameSetup o o := ⟨rfl, rfl, rfl, rfl, rfl⟩

/-- Sends may follow each other. -/
theorem SameSetup.trans {o o' o'' : Outlet} (h : SameSetup o o') (h' : SameSetup o' o'') :
    SameSetup o o'' where
  proto := h'.proto.trans h.proto
  stripHeader := h'.stripHeader.trans h.stripHeader
  mcastEgr := h'.mcastEgr.trans h.mcastEgr
  headerEgr := h'.headerEgr.trans h.headerEgr
  headerMCastEgr := h'.headerMCastEgr.trans h.headerMCastEgr

end Outlet

/-- A TCP send opens and closes connections. -/
theorem EgressSender.sendTCP_setup (s : EgressSender) (net : NetResult) :
    (s.sendTCP net).1.proto = s.proto ∧ (s.sendTCP net).1.stripHeader = s.stripHeader := by
  rw [sendTCP]
  split_ifs <;> exact ⟨rfl, rfl⟩

/-- A send hands over the buffer it is given. -/
theorem EgressSender.sendRaw_setup (s : EgressSender) (buf : Bytes) (net : NetResult) :
    (s.sendRaw buf net).1.proto = s.proto ∧ (s.sendRaw buf net).1.stripHeader = s.stripHeader ∧
      (s.sendRaw buf net).2.buf = buf := by
  have htcp := s.sendTCP_setup net
  rw [sendRaw]
  split
  · exact ⟨rfl, rfl, rfl⟩
  · exact ⟨htcp.1, htcp.2, rfl⟩
  · exact ⟨rfl, rfl, rfl⟩

namespace Outlet

variable {cfg : WorkerConfig} {o : Outlet} {net : Net}

/-- A unicast send opens or closes a connection at most. -/
theorem unicast_sameSetup (raw payload : Bytes) :
    SameSetup o (o.unicast net raw payload).1 :=
  have h := o.egr.sendRaw_setup (o.egr.buffer raw payload) net.unicast
  ⟨h.1, h.2.1, rfl, rfl, rfl⟩

/-- A unicast send of a header opens or closes a connection at most. -/
theorem headerUnicast_sameSetup (buf : Bytes) : SameSetup o (o.headerUnicast net buf).1 := by
  rw [headerUnicast]
  split
  · exact .refl o
  · rename_i h
    exact ⟨rfl, rfl, rfl, by rw [h]; rfl, rfl⟩

/-- Header egress keeps the setup of the senders. -/
theorem header_sameSetup (bf : BlockFrame) : SameSetup o (o.header cfg net bf).1 := by
  rw [header]
  split
  · exact .refl o
  · exact headerUnicast_sameSetup _

/-- The setup of the senders never changes. -/
theorem emit_sameSetup (p : Parcel) : SameSetup o (o.emit cfg net p).1 := by
  cases p with
  | transaction raw f groupIdx => exact unicast_sameSetup _ _
  | block raw bf => exact (unicast_sameSetup _ _).trans (header_sameSetup bf)
  | subtreeData raw sf => exact unicast_sameSetup _ _

/-! What each outlet is offered for a parcel. -/

/-- Unicast egress: every message, without its header in strip-header mode. -/
def unicastOf (o : Outlet) (p : Parcel) : Bytes := o.egr.buffer p.raw p.payload

/-- Multicast egress: the transactions, to the group of their shard. -/
def multicastOf (o : Outlet) : Parcel → List Multicast
  | .transaction raw f groupIdx =>
      (o.mcastEgr.map fun m => (m.send raw f groupIdx true).datagram).toList
  | _ => []

/-- Header egress: the headers of block announcements. -/
def headerUnicastOf (cfg : WorkerConfig) (o : Outlet) (p : Parcel) : List Bytes :=
  if o.headerEgr.isSome then (p.headerFrame cfg).toList else []

/-- Header multicast: the same, to the header group. -/
def headerMulticastOf (cfg : WorkerConfig) (o : Outlet) (p : Parcel) : List Multicast :=
  match o.headerMCastEgr with
  | none => []
  | some m =>
      (p.headerFrame cfg).toList.map fun buf =>
        (m.sendToGroup buf ctrlGroupBlockHeader true).datagram

/-- The buffers handed over for a parcel, as seen by a reader that ignores the counters. -/
theorem flatMap_emit {α : Type} {f : Effect → List α} (hf : ∀ m, f (.count m) = []) (p : Parcel) :
    (o.emit cfg net p).2.flatMap f =
      f (.unicast (o.egr.sendRaw (o.egr.buffer p.raw p.payload) net.unicast).2) ++
        match p with
        | .transaction raw fr groupIdx =>
            o.mcastEgr.toList.flatMap fun m => f (.multicast (m.send raw fr groupIdx net.multicast))
        | .block _ bf =>
            (headerFrame cfg bf).toList.flatMap fun buf =>
              (o.headerEgr.toList.flatMap fun s =>
                f (.headerUnicast (s.sendRaw buf net.header).2)) ++
                o.headerMCastEgr.toList.flatMap fun m =>
                  f (.headerMulticast (m.sendToGroup buf ctrlGroupBlockHeader net.headerMulticast))
        | .subtreeData _ _ => [] := by
  cases p with
  | transaction raw fr groupIdx =>
      cases hm : o.mcastEgr <;>
        simp [emit, unicast, multicast, hm, hf, Parcel.raw, Parcel.payload]
  | block raw bf =>
      cases hframe : headerFrame cfg bf with
      | none => simp [emit, unicast, header, hframe, hf, Parcel.raw, Parcel.payload]
      | some buf =>
          cases huni : o.headerEgr <;> cases hmulti : o.headerMCastEgr <;>
            simp [emit, unicast, header, headerUnicast, headerMulticast, hframe, huni, hmulti, hf,
              Parcel.raw, Parcel.payload]
  | subtreeData raw sf => simp [emit, unicast, hf, Parcel.raw, Parcel.payload]

/-! Each outlet is offered its form of the parcel, whatever the network does. -/

/-- Unicast egress is offered every parcel. -/
theorem emit_unicast? (p : Parcel) :
    (o.emit cfg net p).2.flatMap Effect.unicast? = [o.unicastOf p] := by
  rw [flatMap_emit fun _ => rfl, unicastOf, Effect.unicast?,
    (o.egr.sendRaw_setup (o.egr.buffer p.raw p.payload) net.unicast).2.2]
  cases p <;> simp [Effect.unicast?]

/-- Multicast egress is offered a transaction, if there is a sender. -/
theorem emit_multicast? (p : Parcel) :
    (o.emit cfg net p).2.flatMap Effect.multicast? = o.multicastOf p := by
  rw [flatMap_emit fun _ => rfl]
  cases p with
  | transaction raw f groupIdx =>
      cases hm : o.mcastEgr <;>
        simp [multicastOf, hm, Effect.multicast?, SentTo.datagram, MCastSender.send,
          MCastSender.sendToGroup]
  | block raw bf => simp [multicastOf, Effect.multicast?]
  | subtreeData raw sf => simp [multicastOf, Effect.multicast?]

/-- Header egress is offered the header of a block announcement, if there is a sender. -/
theorem emit_headerUnicast? (p : Parcel) :
    (o.emit cfg net p).2.flatMap Effect.headerUnicast? = o.headerUnicastOf cfg p := by
  rw [flatMap_emit fun _ => rfl]
  cases p with
  | transaction raw f groupIdx => simp [headerUnicastOf, Effect.headerUnicast?, Parcel.headerFrame]
  | block raw bf =>
      cases huni : o.headerEgr <;> cases o.headerMCastEgr <;>
        cases hframe : headerFrame cfg bf <;>
        simp [headerUnicastOf, Effect.headerUnicast?, Parcel.headerFrame, huni, hframe,
          EgressSender.sendRaw_setup]
  | subtreeData raw sf => simp [headerUnicastOf, Effect.headerUnicast?, Parcel.headerFrame]

/-- Header multicast is offered it too, for the header group. -/
theorem emit_headerMulticast? (p : Parcel) :
    (o.emit cfg net p).2.flatMap Effect.headerMulticast? = o.headerMulticastOf cfg p := by
  rw [flatMap_emit fun _ => rfl]
  cases p with
  | transaction raw f groupIdx =>
      cases hmulti : o.headerMCastEgr <;>
        simp [headerMulticastOf, Effect.headerMulticast?, Parcel.headerFrame, hmulti]
  | block raw bf =>
      cases o.headerEgr <;> cases hmulti : o.headerMCastEgr <;>
        cases hframe : headerFrame cfg bf <;>
        simp [headerMulticastOf, Effect.headerMulticast?, Parcel.headerFrame, hmulti, hframe,
          SentTo.datagram, MCastSender.sendToGroup]
  | subtreeData raw sf =>
      cases hmulti : o.headerMCastEgr <;>
        simp [headerMulticastOf, Effect.headerMulticast?, Parcel.headerFrame, hmulti]

/-! Sending is not counted as receiving. -/

/-- A unicast send counts itself as forwarded or failed. -/
theorem unicast_intake? (raw payload : Bytes) :
    (o.unicast net raw payload).2.flatMap Effect.intake? = [] := by
  rw [unicast]
  dsimp only
  split_ifs <;> rfl

/-- A multicast send does the same. -/
theorem multicast_intake? (raw : Bytes) (f : Frame) (groupIdx : UInt32) :
    (o.multicast net raw f groupIdx).flatMap Effect.intake? = [] := by
  rw [multicast]
  split
  · rfl
  · split_ifs <;> rfl

/-- A unicast send of a header counts itself as a header. -/
theorem headerUnicast_intake? (buf : Bytes) :
    (o.headerUnicast net buf).2.flatMap Effect.intake? = [] := by
  rw [headerUnicast]
  split
  · rfl
  · dsimp only
    split_ifs <;> rfl

/-- A multicast send of a header does the same. -/
theorem headerMulticast_intake? (buf : Bytes) :
    (o.headerMulticast net buf).flatMap Effect.intake? = [] := by
  rw [headerMulticast]
  split
  · rfl
  · split_ifs <;> rfl

/-- Neither header outlet counts a received frame. -/
theorem header_intake? (bf : BlockFrame) :
    (o.header cfg net bf).2.flatMap Effect.intake? = [] := by
  rw [header]
  split
  · rfl
  · rw [List.flatMap_append, headerUnicast_intake?, headerMulticast_intake?, List.append_nil]

/-- Emitting a parcel counts no received frame. -/
theorem emit_intake? (p : Parcel) : (o.emit cfg net p).2.flatMap Effect.intake? = [] := by
  cases p with
  | transaction raw f groupIdx =>
      rw [emit, List.flatMap_append, unicast_intake?, multicast_intake?, List.append_nil]
  | block raw bf => rw [emit, List.flatMap_append, unicast_intake?, header_intake?, List.append_nil]
  | subtreeData raw sf => exact unicast_intake? raw sf.payload

end Outlet

/-! ### Runs -/

namespace Worker

variable {cfg : WorkerConfig}

/-- The parcels of the first stage, with the network outcomes dropped. -/
theorem filterMap_parcel?_deal (i : Intake) (ops : List Op) :
    (Machine.outputs (Intake.deal cfg) i ops).filterMap (fun e => e.2.parcel?) =
      i.parcels cfg (ops.map Op.intake) := by
  rw [Intake.parcels, ← Intake.map_outputs_deal, List.filterMap_map]
  rfl

/-- What a reader sees of a run, if what it sees of a parcel depends on the setup of the senders
alone. -/
theorem flatMap_outputs_of_emit {α : Type} {f : Effect → List α} {g : Outlet → Parcel → List α}
    (hcount : ∀ m, f (.count m) = [])
    (hsetup : ∀ o o' p, Outlet.SameSetup o o' → g o' p = g o p)
    (hemit : ∀ o net p, (Outlet.emit cfg o net p).2.flatMap f = g o p) (w : Worker)
    (ops : List Op) :
    (Machine.outputs (step cfg) w ops).flatMap f =
      (w.intake.parcels cfg (ops.map Op.intake)).flatMap (g w.downstream.outlet) := by
  have hread : (Machine.outputs (step cfg) w ops).flatMap f =
      (Machine.outputs (Intake.deal cfg) w.intake ops).flatMap fun e =>
        (e.2.parcel?.toList).flatMap (g w.downstream.outlet) := by
    rw [(two_stages w ops).2.2]
    refine Machine.flatMap_outputs (P := fun d => Outlet.SameSetup w.downstream.outlet d.outlet)
      ?_ ?_ (.refl _) _
    · rintro d ⟨net, item⟩ hd
      cases item with
      | count m => exact hd
      | parcel p => exact hd.trans (Outlet.emit_sameSetup p)
      | call c => exact hd
    · rintro d ⟨net, item⟩ hd
      cases item with
      | count m => simp [Downstream.step, Item.parcel?, hcount]
      | parcel p => simp [Downstream.step, Item.parcel?, hemit, hsetup _ _ p hd]
      | call c => rfl
  rw [hread, ← filterMap_parcel?_deal, List.filterMap_eq_flatMap_toList, List.flatMap_assoc]

/-- Unicast egress is offered all parcels. -/
theorem unicast_stream (w : Worker) (ops : List Op) :
    (Machine.outputs (step cfg) w ops).flatMap Effect.unicast? =
      (w.intake.parcels cfg (ops.map Op.intake)).map w.downstream.outlet.unicastOf := by
  rw [List.map_eq_flatMap]
  refine flatMap_outputs_of_emit (g := fun o p => [o.unicastOf p]) (fun _ => rfl) ?_
    (fun _ _ => Outlet.emit_unicast?) w ops
  intro o o' p h
  rw [Outlet.unicastOf, Outlet.unicastOf, EgressSender.buffer, EgressSender.buffer, h.stripHeader]

/-- Multicast egress is offered the transactions. -/
theorem multicast_stream (w : Worker) (ops : List Op) :
    (Machine.outputs (step cfg) w ops).flatMap Effect.multicast? =
      (w.intake.parcels cfg (ops.map Op.intake)).flatMap w.downstream.outlet.multicastOf := by
  refine flatMap_outputs_of_emit (fun _ => rfl) ?_ (fun _ _ => Outlet.emit_multicast?) w ops
  intro o o' p h
  cases p <;> simp only [Outlet.multicastOf, h.mcastEgr]

/-- Header egress is offered the headers of block announcements. -/
theorem headerUnicast_stream (w : Worker) (ops : List Op) :
    (Machine.outputs (step cfg) w ops).flatMap Effect.headerUnicast? =
      (w.intake.parcels cfg (ops.map Op.intake)).flatMap
        (w.downstream.outlet.headerUnicastOf cfg) := by
  refine flatMap_outputs_of_emit (fun _ => rfl) ?_ (fun _ _ => Outlet.emit_headerUnicast?) w ops
  intro o o' p h
  rw [Outlet.headerUnicastOf, Outlet.headerUnicastOf, h.headerEgr]

/-- Header multicast is offered the headers of block announcements. -/
theorem headerMulticast_stream (w : Worker) (ops : List Op) :
    (Machine.outputs (step cfg) w ops).flatMap Effect.headerMulticast? =
      (w.intake.parcels cfg (ops.map Op.intake)).flatMap
        (w.downstream.outlet.headerMulticastOf cfg) := by
  refine flatMap_outputs_of_emit (fun _ => rfl) ?_ (fun _ _ => Outlet.emit_headerMulticast?) w ops
  intro o o' p h
  rw [Outlet.headerMulticastOf, Outlet.headerMulticastOf, h.headerMCastEgr]

/-- **The egress streams**: over any run, and for every pattern of failures, each outlet is
offered the parcels of the first stage in order: unicast egress all of them, multicast egress the
transactions, the header outlets the block announcements. -/
theorem egress_streams (cfg : WorkerConfig) (w : Worker) (ops : List Op) :
    let out := Machine.outputs (step cfg) w ops
    let parcels := w.intake.parcels cfg (ops.map Op.intake)
    let outlet := w.downstream.outlet
    out.flatMap Effect.unicast? = parcels.map outlet.unicastOf ∧
      out.flatMap Effect.multicast? = parcels.flatMap outlet.multicastOf ∧
      out.flatMap Effect.headerUnicast? = parcels.flatMap (outlet.headerUnicastOf cfg) ∧
      out.flatMap Effect.headerMulticast? = parcels.flatMap (outlet.headerMulticastOf cfg) := by
  exact ⟨unicast_stream w ops, multicast_stream w ops, headerUnicast_stream w ops,
    headerMulticast_stream w ops⟩

/-- What is counted about received frames is what the first stage counts. -/
theorem flatMap_intake?_outputs (w : Worker) (ops : List Op) :
    (Machine.outputs (step cfg) w ops).flatMap Effect.intake? =
      (Machine.outputs (Intake.step cfg) w.intake (ops.map Op.intake)).flatMap fun item =>
        match item with
        | .count m => Effect.intake? (.count m)
        | _ => [] := by
  rw [(two_stages w ops).2.2, ← Intake.map_outputs_deal, List.flatMap_map]
  refine Machine.flatMap_outputs (P := fun _ => True) (fun _ _ _ => trivial) ?_ trivial _
  rintro d ⟨net, item⟩ -
  cases item with
  | count m => exact List.append_nil _
  | parcel p => exact Outlet.emit_intake? p
  | call c => rfl

/-- **Nothing flows back from egress**: two workers with the same filter, duplicate set, buffer
and tracker stay the same in these and count the same about the frames they receive, whatever
senders each of them has and whichever of their network calls fail. -/
theorem egress_independent (cfg : WorkerConfig) {w w' : Worker} {ops ops' : List Op}
    (hintake : w.intake = w'.intake) (htracker : w.tracker = w'.tracker)
    (hops : ops.map Op.intake = ops'.map Op.intake) :
    (w.after cfg ops).intake = (w'.after cfg ops').intake ∧
      (w.after cfg ops).tracker = (w'.after cfg ops').tracker ∧
      (Machine.outputs (step cfg) w ops).flatMap Effect.intake? =
        (Machine.outputs (step cfg) w' ops').flatMap Effect.intake? := by
  refine ⟨?_, ?_, ?_⟩
  · rw [(two_stages w ops).1, (two_stages w' ops').1, hintake, hops]
  · rw [tracker_after, tracker_after, calls, calls, hintake, htracker, hops]
  · rw [flatMap_intake?_outputs, flatMap_intake?_outputs, hintake, hops]

/-- The same frame, at a worker whose sends succeed and at one without multicast egress whose
unicast sends fail. -/
theorem egress_independent_failing :
    let cfg := testConfig Codec.wire
    let w' : Worker := { testWorker with mcastEgr := none, egr := ⟨.tcp, true, false⟩ }
    let failing : Env := { Env.test 0 with unicast := ⟨false, false, false⟩ }
    let ops := [Op.datagram (testRaw (testFrame 1 1 0xA)) (Env.test 0)]
    let ops' := [Op.datagram (testRaw (testFrame 1 1 0xA)) failing]
    (testWorker.after cfg ops).intake = (w'.after cfg ops').intake ∧
      (testWorker.after cfg ops).tracker = (w'.after cfg ops').tracker ∧
      (Machine.outputs (step cfg) testWorker ops).flatMap Effect.intake? =
        (Machine.outputs (step cfg) w' ops').flatMap Effect.intake? :=
  egress_independent _ rfl rfl rfl

end Worker

end ShardListener
