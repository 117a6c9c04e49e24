import ShardListener.AssocMap
import ShardListener.Machine
import ShardListener.SliceSort
import ShardListener.Frame
import ShardListener.Tracker
import ShardListener.Flow
import ShardListener.Epoch
import ShardListener.Gaps
import ShardListener.Registry
import ShardListener.Dispatch
import ShardListener.Accounting
import ShardListener.KeyedList
import ShardListener.Outstanding
import ShardListener.Walks
import ShardListener.Escalation
import ShardListener.FirstWrite
import ShardListener.Reassembly
import ShardListener.Assembly
import ShardListener.Completion
import ShardListener.Dedup
import ShardListener.Filter
import ShardListener.Egress
import ShardListener.Worker
import ShardListener.Suppression
import ShardListener.Reassembled
import ShardListener.InOrder
import ShardListener.Stream
import ShardListener.ByteBuffer
import ShardListener.Wire
import ShardListener.WriteRing
import ShardListener.Window
import ShardListener.Forwarded
import ShardListener.Skipped
import ShardListener.Control
import ShardListener.Slots
import ShardListener.SlotTrace
import ShardListener.Repeats
import ShardListener.Announced
import ShardListener.Snapshots
import ShardListener.Registrations
import ShardListener.Backoff
import ShardListener.Outcomes
import ShardListener.Sweep
import ShardListener.ArrivalOrder
import ShardListener.Datagrams
import ShardListener.Merkle
import ShardListener.Independence
import ShardListener.Schedule
import ShardListener.BoundedQueue
import ShardListener.Queue
import ShardListener.GroupIDs
import ShardListener.Config
import ShardListener.Groups
import ShardListener.Stages
import ShardListener.Streams
import ShardListener.Fates
import ShardListener.Announce
import ShardListener.Requests
import ShardListener.Beacon
import ShardListener.Process
import ShardListener.Recovery
import ShardListener.TcpStream
import ShardListener.Retention
import ShardListener.Exchange
import ShardListener.Bridge
import ShardListener.Readiness
import ShardListener.Messages
