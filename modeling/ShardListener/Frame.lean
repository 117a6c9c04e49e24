import Mathlib.Data.Vector.Basic

/-!
# Bytes, Clocks and Frames

The data every component of the listener shares: byte strings, 32-byte identifiers,
instants, and the decoded frames of the wire formats. The frame types carry the fields
of the decoded values the listener handles; the codecs themselves live in a separate
repository and enter as parameters where they are used (`ShardListener.Worker`).

Instants and durations are integer nanoseconds. The clock is never read inside a model
function: every function that reads it in the source takes the reading as an argument,
so a run may present any readings.
-/

namespace ShardListener

/-- A byte string. -/
abbrev Bytes := List UInt8

/-- A 32-byte array: a transaction id, a content id or a subtree id. -/
abbrev Bytes32 := List.Vector UInt8 32

/-- The array with the same byte everywhere. -/
def Bytes32.ofByte (b : UInt8) : Bytes32 := List.Vector.replicate 32 b

/-- An instant, in nanoseconds. -/
abbrev Time := ℤ

/-- A length of time, in nanoseconds. -/
abbrev Duration := ℤ

/-- One millisecond. -/
def millisecond : Duration := 1000000

/-- One second. -/
def second : Duration := 1000 * millisecond

/-- Version byte of a BRC-124/BRC-128 frame. -/
def frameVerV2 : UInt8 := 0x02

/-- Version byte of a BRC-131 block control frame. -/
def frameVerV4 : UInt8 := 0x04

/-- Version byte of a BRC-132 subtree data frame. -/
def frameVerV5 : UInt8 := 0x05

/-- A decoded transaction frame: BRC-12, or BRC-124/BRC-128 when `version` is
`frameVerV2`. -/
structure Frame where
  version : UInt8
  txID : Bytes32
  hashKey : UInt64
  seqNum : UInt64
  subtreeID : Bytes32
  payload : Bytes
  deriving DecidableEq

/-- A decoded BRC-131 block control frame. -/
structure BlockFrame where
  msgType : UInt8
  contentID : Bytes32
  hashKey : UInt64
  seqNum : UInt64
  payload : Bytes
  deriving DecidableEq

/-- A decoded BRC-132 subtree data frame. -/
structure SubtreeDataFrame where
  msgType : UInt8
  subtreeID : Bytes32
  hashKey : UInt64
  seqNum : UInt64
  payload : Bytes
  deriving DecidableEq

/-- A decoded BRC-130 fragment. `txID` is the slot for the id of the fragmented frame,
whatever its version. -/
structure FragFrame where
  txID : Bytes32
  subtreeID : Bytes32
  hashKey : UInt64
  seqNum : UInt64
  origPayloadLen : UInt32
  fragIndex : UInt16
  fragTotal : UInt16
  fragData : Bytes
  origFrameVer : UInt8
  msgType : UInt8
  deriving DecidableEq

end ShardListener
