import ShardListener.AssocMap
import ShardListener.Frame

/-!
# The Shard and Subtree Filter

The static filter of `filter/filter.go` and the registry of announced subtree groups of
`subtreegroup/registry.go` that it consults. The reason a frame is denied for is returned as
a `DropReason`, which also has the other reasons a worker drops frames for.
-/

namespace ShardListener

/-- Why a frame is dropped: the label of the drop counter. -/
inductive DropReason
  | shardFilter
  | subtreeExclude
  | subtreeIncludeMiss
  | noReassemblyBuffer
  | fragDecodeError
  | decodeError
  deriving DecidableEq

/-! ### Subtree groups -/

/-- A 128-bit group id. -/
abbrev GroupID := List.Vector UInt8 16

/-- What `Contains` reads off the clock at each group that has the subtree. -/
abbrev GroupClock := GroupID → Time

/-- The subtrees announced for the subscribed groups, with their expiry times. -/
structure GroupRegistry where
  subscribedGroups : List GroupID
  entries : AssocMap GroupID (AssocMap Bytes32 Time)
  defaultTTL : Duration

namespace GroupRegistry

/-- `New`: every subscribed group starts without subtrees. -/
def new (subscribedGroups : List GroupID) (defaultTTL : Duration) : GroupRegistry where
  subscribedGroups := subscribedGroups
  entries := subscribedGroups.foldl (fun m g => m.insert g ∅) ∅
  defaultTTL := defaultTTL

/-- The subtrees of a group. -/
def members (r : GroupRegistry) (groupID : GroupID) : AssocMap Bytes32 Time :=
  (r.entries.lookup groupID).getD ∅

/-- `Add`: announce a subtree of a subscribed group. -/
def add (r : GroupRegistry) (now : Time) (groupID : GroupID) (subtreeID : Bytes32)
    (ttl : Duration) : GroupRegistry :=
  if groupID ∉ r.subscribedGroups then r
  else
    let expiry := now + if ttl ≤ 0 then r.defaultTTL else ttl
    { r with entries := r.entries.insert groupID ((r.members groupID).insert subtreeID expiry) }

/-- `Remove`: withdraw a subtree. -/
def remove (r : GroupRegistry) (groupID : GroupID) (subtreeID : Bytes32) : GroupRegistry :=
  if groupID ∉ r.subscribedGroups then r
  else { r with entries := r.entries.insert groupID ((r.members groupID).erase subtreeID) }

/-- `Contains`: the subtree is a live member of some group. -/
def contains (r : GroupRegistry) (now : GroupClock) (subtreeID : Bytes32) : Bool :=
  r.entries.entries.any fun e =>
    match e.2.lookup subtreeID with
    | some expiry => decide (now e.1 < expiry)
    | none => false

/-- `Evict`: remove the expired subtrees; returns how many. -/
def evict (r : GroupRegistry) (now : Time) (ord : RangeOrder GroupID)
    (ords : GroupID → RangeOrder Bytes32) : GroupRegistry × ℕ :=
  let out := r.entries.range ord (fun n gid subs =>
    let inner := subs.range (ords gid)
      (fun n _ expiry => if expiry < now then (n + 1, none) else (n, some expiry)) n
    (inner.1, some inner.2)) 0
  ({ r with entries := out.2 }, out.1)

end GroupRegistry

/-! ### The filter -/

/-- The include and exclude sets; `none` is a nil set. -/
structure Filter where
  shardInclude : Option (List UInt32)
  subtreeInclude : Option (List Bytes32)
  subtreeExclude : Option (List Bytes32)
  groupReg : Option GroupRegistry

namespace Filter

/-- An empty list is a nil set. -/
def nonempty {α : Type} (xs : List α) : Option (List α) := if xs = [] then none else some xs

/-- `New`. -/
def new (shardInclude : List UInt32) (subtreeInclude subtreeExclude : List Bytes32)
    (groupReg : Option GroupRegistry) : Filter where
  shardInclude := nonempty shardInclude
  subtreeInclude := nonempty subtreeInclude
  subtreeExclude := nonempty subtreeExclude
  groupReg := groupReg

/-- `Allow`: `none` when the frame passes, and otherwise the reason it does not. -/
def allow (f : Filter) (now : GroupClock) (groupIdx : UInt32) (fr : Frame) : Option DropReason :=
  if f.shardInclude.any fun shards => groupIdx ∉ shards then some .shardFilter
  else if f.subtreeExclude.any fun subtrees => fr.subtreeID ∈ subtrees then some .subtreeExclude
  else if f.subtreeInclude.isSome ∨ f.groupReg.isSome then
    let inStatic := f.subtreeInclude.any fun subtrees => fr.subtreeID ∈ subtrees
    let inGroup := f.groupReg.any fun r => r.contains now fr.subtreeID
    if inStatic = false ∧ inGroup = false then some .subtreeIncludeMiss else none
  else none

end Filter

end ShardListener
