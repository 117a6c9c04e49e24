import ShardListener.Datagrams
import ShardListener.Snapshots

/-!
# Beacons

The beacon listener of `discovery/beacon.go`: what it makes of a datagram, and what a snapshot of
the endpoint registry has after any history of datagrams, eviction ticks and snapshots.

A datagram is read into a buffer of 120 bytes; what is longer is cut off, which is behind the
fields of an ADVERT. An ADVERT of an endpoint that is draining is ignored. That does not take the
endpoint off the registry: what its last ADVERT said before stands until it expires.

## Main results

* `Advert.ofBeacon_eq_some`: which datagrams are taken, in terms of their bytes.
* `BeaconListener.mem_takeSnapshot`: what a snapshot has.
-/

namespace ShardListener

open ByteBuffer

/-- The endpoint is shutting down. -/
def flagDraining : UInt16 := 0x0004

/-- What `listenGroup` takes from a datagram. -/
def Advert.ofBeacon (raw : Bytes) : Option Advert :=
  match Advert.decode (raw.take (advertSize + 64)) with
  | .error _ => none
  | .ok a => if a.flags &&& flagDraining ≠ 0 then none else some a

/-- **Which datagrams are taken**: those that show the fields of an ADVERT with an address and
without the draining flag. -/
theorem Advert.ofBeacon_eq_some {raw : Bytes} {a : Advert} :
    Advert.ofBeacon raw = some a ↔
      advertSize ≤ raw.length ∧ (∃ b ∈ a.nackAddr.toList, b ≠ 0) ∧
        Advert.format.Shows Advert.canonical raw a ∧ a.flags &&& flagDraining = 0 := by
  have hlen : advertSize ≤ (raw.take (advertSize + 64)).length ↔ advertSize ≤ raw.length := by
    rw [List.length_take]
    omega
  have hdecode : Advert.decode (raw.take (advertSize + 64)) = .ok a ↔
      advertSize ≤ raw.length ∧ (∃ b ∈ a.nackAddr.toList, b ≠ 0) ∧
        Advert.format.Shows Advert.canonical raw a := by
    have hsize : Advert.format.size ≤ advertSize + 64 := Nat.le_add_right _ _
    rw [Advert.decode_eq_ok, hlen, Format.shows_take hsize]
  rw [← and_assoc, ← and_assoc, and_assoc (a := advertSize ≤ _), ← hdecode, ofBeacon]
  cases Advert.decode (raw.take (advertSize + 64)) with
  | error err => simp
  | ok a' =>
      simp only [ite_not, Option.ite_none_right_eq_some, Option.some.injEq, Except.ok.injEq]
      constructor
      · rintro ⟨hflag, rfl⟩
        exact ⟨rfl, hflag⟩
      · rintro ⟨rfl, hflag⟩
        exact ⟨hflag, rfl⟩

namespace BeaconListener

/-- What happens to the registry: a beacon datagram, a tick of `evictLoop`, and a snapshot of a
`sendNACK`. -/
inductive Op
  | datagram (now : Time) (raw : Bytes)
  | tick (now : Time) (ord : RangeOrder UInt32)
  | snapshot (ord : RangeOrder UInt32) (sort : SliceSort EndpointEntry.less)

/-- The call of the registry that is made. -/
def Op.call : Op → Option Registry.Op
  | .datagram now raw => (Advert.ofBeacon raw).map (.upsert now)
  | .tick now ord => some (.evict now ord)
  | .snapshot ord sort => some (.snapshot ord sort)

/-- The calls of a run; `nack.New` has loaded the static endpoints, if there are any. -/
def calls (retryEndpoints : List Bytes) (ops : List Op) : List Registry.Op :=
  (if retryEndpoints = [] then [] else [.seed retryEndpoints]) ++ ops.filterMap Op.call

/-- The operation takes the entry `e` off the registry: an ADVERT of its instance that is taken,
or a tick after its expiry. -/
def Op.Drops (e : EndpointEntry) : Op → Prop
  | .datagram _ raw => ∃ a, Advert.ofBeacon raw = some a ∧ a.instanceID = e.instanceID
  | .tick now _ => e.expires < now
  | .snapshot _ _ => False

/-- The entry is that of the last ADVERT of its instance that was taken, and has not been
evicted. -/
def Live (ops : List Op) (e : EndpointEntry) : Prop :=
  ∃ now raw a, ops.Standing (Op.Drops e) (.datagram now raw) ∧ Advert.ofBeacon raw = some a ∧
    e = a.entry now

variable {retryEndpoints : List Bytes} {ops : List Op} {e : EndpointEntry}

/-- What the listener does comes after the static endpoints. -/
theorem calls_eq_append (retryEndpoints : List Bytes) (ops : List Op) :
    calls retryEndpoints ops = calls retryEndpoints [] ++ ops.filterMap Op.call := by
  rw [calls, calls, List.filterMap_nil, List.append_nil]

/-- The calls that drop an entry are made for the operations that do. -/
theorem drops_call_iff {op : Op} : (∃ c, op.call = some c ∧ c.Drops e) ↔ op.Drops e := by
  cases op <;> simp [Op.call, Op.Drops, Registry.Op.Drops]

/-- The entries of the calls are those of the datagrams. -/
theorem listed_filterMap : Registry.Listed (ops.filterMap Op.call) e ↔ Live ops e := by
  have hdrops : (fun op => ∃ c, Op.call op = some c ∧ c.Drops e) = Op.Drops e :=
    funext fun op => propext drops_call_iff
  simp only [Registry.Listed, List.standing_filterMap, hdrops, Live]
  constructor
  · rintro ⟨now, a, ⟨op, hstands, hop⟩, he⟩
    cases op with
    | datagram now' raw =>
        obtain ⟨a', ha', heq⟩ := Option.map_eq_some_iff.mp hop
        cases heq
        exact ⟨now, raw, a, hstands, ha', he⟩
    | tick now' ord => cases hop
    | snapshot ord sort => cases hop
  · rintro ⟨now, raw, a, hstands, ha, he⟩
    exact ⟨now, a, ⟨.datagram now raw, hstands, by rw [Op.call, ha]; rfl⟩, he⟩

/-- The static endpoints list nothing. -/
theorem listed_calls : Registry.Listed (calls retryEndpoints ops) e ↔ Live ops e := by
  rw [calls, ← listed_filterMap]
  split
  · rw [List.nil_append]
  refine exists₂_congr fun now a => and_congr_left fun _ => ?_
  constructor
  · rintro ⟨pre, post, h, hpost⟩
    cases pre with
    | nil => cases (List.cons.inj h).1
    | cons op pre => exact ⟨pre, post, (List.cons.inj h).2, hpost⟩
  · rintro ⟨pre, post, h, hpost⟩
    exact ⟨.seed retryEndpoints :: pre, post, congrArg _ h, hpost⟩

/-- The listener does not touch the static endpoints. -/
theorem lastSeed_calls : Registry.lastSeed (calls retryEndpoints ops) = retryEndpoints := by
  have hnone : (ops.filterMap Op.call).filterMap Registry.Op.seedAddrs = [] := by
    rw [List.filterMap_filterMap, List.filterMap_eq_nil_iff]
    intro op _
    cases op with
    | datagram now raw => cases h : Advert.ofBeacon raw <;> simp [Op.call, h, Registry.Op.seedAddrs]
    | tick now ord => rfl
    | snapshot ord sort => rfl
  rw [Registry.lastSeed, calls, List.filterMap_append, hnone, List.append_nil]
  split
  · rename_i h
    rw [h]
    rfl
  · rfl

/-- What a snapshot has. -/
theorem mem_takeSnapshot (ord : RangeOrder UInt32) (sort : SliceSort EndpointEntry.less) :
    e ∈ ((Registry.after (calls retryEndpoints ops)).takeSnapshot ord sort).2 ↔
      Live ops e ∨ (∀ e', ¬ Live ops e') ∧ e ∈ Registry.seedsOf retryEndpoints := by
  have hperm := ((Registry.coherent_after (calls retryEndpoints ops)).takeSnapshot ord sort).2
  rw [hperm.mem_iff]
  by_cases hsize : (Registry.after (calls retryEndpoints ops)).entries.size = 0
  · have hnone : ∀ e', ¬ Live ops e' := fun e' h =>
      (Registry.size_after_eq_zero _).mp hsize e' (listed_calls.mpr h)
    rw [Registry.merged_after_of_size_eq_zero hsize, lastSeed_calls]
    simp [hnone]
  · rw [Registry.mem_merged_after hsize, listed_calls]
    refine (or_iff_left ?_).symm
    rintro ⟨hnone, -⟩
    exact hsize ((Registry.size_after_eq_zero _).mpr fun e' h => hnone e' (listed_calls.mp h))

end BeaconListener

end ShardListener
