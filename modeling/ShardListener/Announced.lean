import ShardListener.KeyedList
import ShardListener.Worker

/-!
# The Filter Decides by the Announcement History

The group registry is written by three calls: `Add` and `Remove`, which the announcement
listener makes, and `Evict`, which a ticker makes. This module says what `Filter.Allow`
answers in terms of the calls alone.

* `Announced` reads the expiry of a subtree off a history: the last `Add` or `Remove` of the
  subtree in the group was an `Add`, and the subtree expires its effective TTL later.
* `GroupRegistry.expiry` is what the nested maps hold for the pair, with what the calls that
  touch the pair, and those that do not, make of it.
* `expiry_after` relates the two at every time that no `Evict` has gone past. `Evict` deletes
  an entry strictly after its expiry and `Contains` accepts one strictly before, so an `Evict`
  only deletes what `Contains` would not accept at that time or later.

The result is `Filter.allow_by_history`.
-/

namespace ShardListener

/-! ### Histories -/

namespace GroupOp

/-- The call adds or removes the subtree in the group. -/
def Touches (groupID : GroupID) (subtreeID : Bytes32) : GroupOp → Prop
  | .add _ g s _ => g = groupID ∧ s = subtreeID
  | .remove g s => g = groupID ∧ s = subtreeID
  | .evict _ _ _ => False

/-- The call is an `Evict`. -/
def isEvict : GroupOp → Bool
  | .evict _ _ _ => true
  | _ => false

end GroupOp

/-- The last `Add` or `Remove` of the subtree in the group was an `Add`, and its TTL, or the
default one, ends at `expiry`. -/
def Announced (defaultTTL : Duration) (ops : List GroupOp) (groupID : GroupID)
    (subtreeID : Bytes32) (expiry : Time) : Prop :=
  ∃ t ttl, ops.Standing (GroupOp.Touches groupID subtreeID) (.add t groupID subtreeID ttl) ∧
    expiry = t + if ttl ≤ 0 then defaultTTL else ttl

/-- No `Evict` of the history read a later time than `now` reads. -/
def EvictedBy (now : GroupClock) (ops : List GroupOp) : Prop :=
  ∀ t ord ords, GroupOp.evict t ord ords ∈ ops → ∀ g, t ≤ now g

section Announced

variable {d : Duration} {ops : List GroupOp} {op : GroupOp} {g : GroupID} {sid : Bytes32}
  {exp : Time}

/-- Nothing is announced before the first call. -/
theorem not_announced_nil : ¬ Announced d [] g sid exp := by
  rintro ⟨t, ttl, hadd, -⟩
  exact List.not_standing_nil _ _ hadd

/-- A call that does not touch the pair leaves its announcement as it was. -/
theorem announced_snoc_of_not_touches (hop : ¬ op.Touches g sid) :
    Announced d (ops ++ [op]) g sid exp ↔ Announced d ops g sid exp := by
  have hne : ∀ t ttl, op ≠ .add t g sid ttl := by
    rintro t ttl rfl
    exact hop ⟨rfl, rfl⟩
  simp only [Announced, List.standing_append_singleton, hne, hop, not_false_eq_true, true_and,
    false_or]

/-- The last call decides when it touches the pair. -/
theorem announced_snoc_of_touches (hop : op.Touches g sid) :
    Announced d (ops ++ [op]) g sid exp ↔
      ∃ t ttl, op = .add t g sid ttl ∧ exp = t + if ttl ≤ 0 then d else ttl := by
  simp only [Announced, List.standing_append_singleton, hop, not_true_eq_false, false_and,
    or_false]

/-- An announcement does not depend on the `Evict` calls. -/
theorem announced_filter (d : Duration) (ops : List GroupOp) (g : GroupID) (sid : Bytes32)
    (exp : Time) :
    Announced d (ops.filter fun op => !op.isEvict) g sid exp ↔ Announced d ops g sid exp := by
  induction ops using List.reverseRecOn with
  | nil => rfl
  | append_singleton ops op ih =>
      rw [List.filter_append]
      by_cases htouch : op.Touches g sid
      · have hkeep : [op].filter (fun op => !op.isEvict) = [op] := by
          cases op with
          | evict t ord ords => exact htouch.elim
          | add t g' sid' ttl => rfl
          | remove g' sid' => rfl
        rw [hkeep, announced_snoc_of_touches htouch, announced_snoc_of_touches htouch]
      · rw [announced_snoc_of_not_touches htouch]
        cases hevict : op.isEvict with
        | true => simpa [hevict] using ih
        | false =>
            rw [List.filter_cons_of_pos (by simp [hevict]), List.filter_nil,
              announced_snoc_of_not_touches htouch, ih]

end Announced

/-- An earlier part of the history. -/
theorem EvictedBy.left {now : GroupClock} {ops : List GroupOp} {op : GroupOp}
    (h : EvictedBy now (ops ++ [op])) : EvictedBy now ops :=
  fun t ord ords hmem => h t ord ords (List.mem_append_left _ hmem)

/-! ### What the registry holds -/

namespace GroupRegistry

/-- The registry after some calls. -/
def after (r : GroupRegistry) (ops : List GroupOp) : GroupRegistry :=
  Machine.run GroupRegistry.step r ops

/-- The last call is made on the registry the others left. -/
theorem after_snoc (r : GroupRegistry) (ops : List GroupOp) (op : GroupOp) :
    r.after (ops ++ [op]) = (r.after ops).step op :=
  Machine.run_snoc _ _ _ _

/-- The expiry the registry holds for a subtree in a group. -/
def expiry (r : GroupRegistry) (groupID : GroupID) (subtreeID : Bytes32) : Option Time :=
  (r.members groupID).lookup subtreeID

variable (r : GroupRegistry) (g : GroupID) (sid : Bytes32)

/-- No call changes the subscribed groups or the default TTL. -/
theorem settings_step (op : GroupOp) :
    (r.step op).subscribedGroups = r.subscribedGroups ∧ (r.step op).defaultTTL = r.defaultTTL := by
  cases op with
  | add t g' sid' ttl => simp only [step, add]; split <;> exact ⟨rfl, rfl⟩
  | remove g' sid' => simp only [step, remove]; split <;> exact ⟨rfl, rfl⟩
  | evict t ord ords => exact ⟨rfl, rfl⟩

/-- No call changes the subscribed groups or the default TTL. -/
theorem settings_after (ops : List GroupOp) :
    (r.after ops).subscribedGroups = r.subscribedGroups ∧
      (r.after ops).defaultTTL = r.defaultTTL := by
  refine Machine.run_invariant (P := fun r' : GroupRegistry =>
    r'.subscribedGroups = r.subscribedGroups ∧ r'.defaultTTL = r.defaultTTL) ⟨rfl, rfl⟩ ?_ ops
  rintro r' op ⟨hgroups, httl⟩
  exact ⟨(r'.settings_step op).1.trans hgroups, (r'.settings_step op).2.trans httl⟩

/-- A new registry holds nothing. -/
theorem expiry_new (gs : List GroupID) (d : Duration) : (new gs d).expiry g sid = none := by
  have hempty : ∀ (gs : List GroupID) (m : AssocMap GroupID (AssocMap Bytes32 Time)),
      (m.lookup g).getD ∅ = ∅ →
      ((gs.foldl (fun m g => m.insert g ∅) m).lookup g).getD ∅ = ∅ := by
    intro gs
    induction gs with
    | nil => exact fun m hm => hm
    | cons g' gs ih =>
        intro m hm
        refine ih _ ?_
        rw [AList.lookup_insert_ite]
        split
        · rfl
        · exact hm
  have hmembers : (new gs d).members g = ∅ := hempty gs ∅ rfl
  rw [expiry, hmembers]
  rfl

/-- What the registry holds after the subtrees of one group were written. -/
theorem expiry_insert (m : AssocMap Bytes32 Time) (g' : GroupID) :
    ({ r with entries := r.entries.insert g' m } : GroupRegistry).expiry g sid =
      if g = g' then m.lookup sid else r.expiry g sid := by
  simp only [expiry, members, AList.lookup_insert_ite]
  split <;> rfl

/-- `Add` and `Remove` write the expiry of their pair when the group is subscribed. -/
theorem expiry_step_of_touches {op : GroupOp} (hop : op.Touches g sid)
    (hg : g ∈ r.subscribedGroups) (exp : Time) :
    (r.step op).expiry g sid = some exp ↔
      ∃ t ttl, op = .add t g sid ttl ∧ exp = t + if ttl ≤ 0 then r.defaultTTL else ttl := by
  cases op with
  | evict t ord ords => exact hop.elim
  | add t g' sid' ttl =>
      obtain ⟨rfl, rfl⟩ := hop
      rw [step, add, if_neg (not_not_intro hg), expiry_insert, if_pos rfl, AList.lookup_insert,
        Option.some_inj]
      constructor
      · intro hexp
        exact ⟨t, ttl, rfl, hexp.symm⟩
      · rintro ⟨t', ttl', heq, hexp⟩
        cases heq
        exact hexp.symm
  | remove g' sid' =>
      obtain ⟨rfl, rfl⟩ := hop
      rw [step, remove, if_neg (not_not_intro hg), expiry_insert, if_pos rfl, AList.lookup_erase]
      simp

/-- They do nothing when it is not. -/
theorem step_of_not_subscribed {op : GroupOp} (hop : op.Touches g sid)
    (hg : g ∉ r.subscribedGroups) : r.step op = r := by
  cases op with
  | evict t ord ords => exact hop.elim
  | add t g' sid' ttl =>
      obtain ⟨rfl, rfl⟩ := hop
      exact if_pos hg
  | remove g' sid' =>
      obtain ⟨rfl, rfl⟩ := hop
      exact if_pos hg

/-- `Evict` drops what has expired before its time, in whatever order it visits the maps. -/
theorem expiry_evict (t : Time) (ord : RangeOrder GroupID)
    (ords : GroupID → RangeOrder Bytes32) :
    (r.evict t ord ords).1.expiry g sid = (r.expiry g sid).filter fun e => t ≤ e := by
  obtain ⟨n, hgroup⟩ := AList.lookup_range
    (fun (n : ℕ) (gid : GroupID) (subs : AssocMap Bytes32 Time) =>
      let inner := subs.range (ords gid)
        (fun n _ expiry => if expiry < t then (n + 1, none) else (n, some expiry)) n
      (inner.1, some inner.2)) ord 0 r.entries g
  simp only [expiry, members, evict]
  rw [hgroup]
  cases hsubs : r.entries.lookup g with
  | none => rfl
  | some subs =>
      obtain ⟨n', hsub⟩ := AList.lookup_range
        (fun (n : ℕ) (_ : Bytes32) (expiry : Time) =>
          if expiry < t then (n + 1, none) else (n, some expiry)) (ords g) n subs sid
      simp only [Option.bind_some, Option.getD_some]
      rw [hsub]
      cases subs.lookup sid with
      | none => rfl
      | some e =>
          by_cases he : e < t
          · simp [he, Option.filter]
          · simp [he, not_lt.mp he, Option.filter]

/-- A call that does not touch the pair leaves its expiry alone, unless it is an `Evict` past
that time. -/
theorem expiry_step_of_not_touches {op : GroupOp} (hop : ¬ op.Touches g sid) {exp : Time}
    (hevict : ∀ t ord ords, op = .evict t ord ords → t ≤ exp) :
    (r.step op).expiry g sid = some exp ↔ r.expiry g sid = some exp := by
  -- another pair of the same group, or another group
  have hother : ∀ (g' : GroupID) (m : AssocMap Bytes32 Time),
      (g = g' → m.lookup sid = r.expiry g sid) →
      ({ r with entries := r.entries.insert g' m } : GroupRegistry).expiry g sid =
        r.expiry g sid := by
    intro g' m hm
    rw [expiry_insert]
    split
    · rename_i hg
      exact hm hg
    · rfl
  cases op with
  | add t g' sid' ttl =>
      rw [step, add]
      split
      · rfl
      · rw [hother]
        rintro rfl
        exact AList.lookup_insert_ne fun hsid => hop ⟨rfl, hsid.symm⟩
  | remove g' sid' =>
      rw [step, remove]
      split
      · rfl
      · rw [hother]
        rintro rfl
        exact AList.lookup_erase_ne fun hsid => hop ⟨rfl, hsid.symm⟩
  | evict t ord ords =>
      rw [step, expiry_evict, Option.filter_eq_some_iff]
      simp [hevict t ord ords rfl]

/-- `Contains` finds an expiry that lies ahead in some group. -/
theorem contains_iff (now : GroupClock) :
    r.contains now sid = true ↔ ∃ g exp, r.expiry g sid = some exp ∧ now g < exp := by
  rw [contains, List.any_eq_true]
  constructor
  · rintro ⟨⟨g, subs⟩, hmem, hlive⟩
    have hsubs : r.entries.lookup g = some subs := AList.mem_lookup_iff.mpr hmem
    cases hsid : subs.lookup sid with
    | none => simp [hsid] at hlive
    | some exp =>
        refine ⟨g, exp, ?_, by simpa [hsid] using hlive⟩
        simp [expiry, members, hsubs, hsid]
  · rintro ⟨g, exp, hexp, hlive⟩
    cases hsubs : r.entries.lookup g with
    | none => simp [expiry, members, hsubs] at hexp
    | some subs =>
        refine ⟨⟨g, subs⟩, AList.mem_lookup_iff.mp hsubs, ?_⟩
        have hsid : subs.lookup sid = some exp := by simpa [expiry, members, hsubs] using hexp
        simp [hsid, hlive]

/-! ### The registry and the history -/

/-- **What the registry holds is what the history announced**, for the expiries that no
`Evict` has gone past. -/
theorem expiry_after {gs : List GroupID} {d : Duration} {now : GroupClock} {exp : Time}
    {ops : List GroupOp} (hclock : EvictedBy now ops) (hlive : now g < exp) :
    ((new gs d).after ops).expiry g sid = some exp ↔ g ∈ gs ∧ Announced d ops g sid exp := by
  -- by induction over the history: the last call writes the pair, or leaves it alone
  induction ops using List.reverseRecOn with
  | nil =>
      have hnew : ((new gs d).after []).expiry g sid = none := expiry_new g sid gs d
      simp [hnew, not_announced_nil]
  | append_singleton ops op ih =>
      obtain ⟨hgroups, httl⟩ := (new gs d).settings_after ops
      rw [after_snoc]
      by_cases htouch : op.Touches g sid
      · by_cases hg : g ∈ gs
        · rw [expiry_step_of_touches _ _ _ htouch (hgroups ▸ hg), announced_snoc_of_touches htouch,
            httl]
          exact (and_iff_right hg).symm
        · rw [step_of_not_subscribed _ _ _ htouch (hgroups ▸ hg), ih hclock.left]
          exact iff_of_false (fun h => hg h.1) (fun h => hg h.1)
      · -- an `Evict` of the history is at `now` at the latest, and so before `exp`
        have hevict : ∀ t ord ords, op = .evict t ord ords → t ≤ exp := by
          rintro t ord ords rfl
          exact (hclock t ord ords (by simp) g).trans hlive.le
        rw [expiry_step_of_not_touches _ _ _ htouch hevict, announced_snoc_of_not_touches htouch]
        exact ih hclock.left

/-- `Contains` after a history. -/
theorem contains_after {gs : List GroupID} {d : Duration} {now : GroupClock} {ops : List GroupOp}
    (hclock : EvictedBy now ops) :
    ((new gs d).after ops).contains now sid = true ↔
      ∃ g ∈ gs, ∃ exp, Announced d ops g sid exp ∧ now g < exp := by
  rw [contains_iff]
  constructor
  · rintro ⟨g, exp, hexp, hlive⟩
    obtain ⟨hg, hann⟩ := (expiry_after g sid hclock hlive).mp hexp
    exact ⟨g, hg, exp, hann, hlive⟩
  · rintro ⟨g, hg, exp, hann, hlive⟩
    exact ⟨g, exp, (expiry_after g sid hclock hlive).mpr ⟨hg, hann⟩, hlive⟩

/-- An `Add` for a group that is not subscribed leaves no trace. -/
theorem after_add_of_not_subscribed {r : GroupRegistry} {g : GroupID}
    (hg : g ∉ r.subscribedGroups) (pre post : List GroupOp) (t : Time) (sid : Bytes32)
    (ttl : Duration) :
    r.after (pre ++ .add t g sid ttl :: post) = r.after (pre ++ post) := by
  have hstep : (r.after pre).step (.add t g sid ttl) = r.after pre := by
    refine step_of_not_subscribed _ g sid ⟨rfl, rfl⟩ ?_
    rwa [(r.settings_after pre).1]
  rw [after, Machine.run_append, Machine.run_cons, after, Machine.run_append]
  exact congrArg (fun r' => Machine.run GroupRegistry.step r' post) hstep

end GroupRegistry

/-! ### The filter -/

namespace Filter

/-- The filter whose registry subscribes to `groups`, if any, after some calls. -/
def afterCalls (shardInclude : List UInt32) (subtreeInclude subtreeExclude : List Bytes32)
    (groups : Option (List GroupID)) (defaultTTL : Duration) (ops : List GroupOp) : Filter :=
  Filter.new shardInclude subtreeInclude subtreeExclude
    (groups.map fun gs => (GroupRegistry.new gs defaultTTL).after ops)

/-- A check against a set that is nil when it is empty. -/
theorem any_nonempty {α : Type} (p : List α → Bool) (xs : List α) :
    (nonempty xs).any p = true ↔ xs ≠ [] ∧ p xs = true := by
  unfold nonempty
  split <;> simp_all

/-- When `Allow` lets a frame pass, in terms of the lists and of `Contains`. -/
theorem allow_new_eq_none_iff (shards : List UInt32) (incl excl : List Bytes32)
    (reg : Option GroupRegistry) (now : GroupClock) (groupIdx : UInt32) (fr : Frame) :
    (Filter.new shards incl excl reg).allow now groupIdx fr = none ↔
      (shards = [] ∨ groupIdx ∈ shards) ∧ fr.subtreeID ∉ excl ∧
        ((incl = [] ∧ reg = none) ∨ fr.subtreeID ∈ incl ∨
          ∃ r, reg = some r ∧ r.contains now fr.subtreeID = true) := by
  have hincl : (nonempty incl).isSome = true ↔ incl ≠ [] := by
    unfold nonempty
    split <;> simp_all
  have hopen : ((nonempty incl).isSome ∨ reg.isSome) ↔ ¬ (incl = [] ∧ reg = none) := by
    rw [hincl, ← Option.ne_none_iff_isSome, ← not_and_or]
  have hgroup : (reg.any fun r => r.contains now fr.subtreeID) = true ↔
      ∃ r, reg = some r ∧ r.contains now fr.subtreeID = true := by
    cases reg <;> simp
  -- a list with a member is not empty
  have hmem : ∀ xs : List Bytes32, xs ≠ [] ∧ fr.subtreeID ∈ xs ↔ fr.subtreeID ∈ xs :=
    fun xs => and_iff_right_of_imp List.ne_nil_of_mem
  simp only [allow, Filter.new, any_nonempty, decide_eq_true_eq, ← Bool.not_eq_true, hgroup,
    hmem, hopen, ← not_or (p := shards = [])]
  by_cases hshard : shards = [] ∨ groupIdx ∈ shards
  swap
  · rw [if_pos hshard]
    simp [hshard]
  rw [if_neg (not_not_intro hshard)]
  by_cases hexcl : fr.subtreeID ∈ excl
  · rw [if_pos hexcl]
    simp [hexcl]
  rw [if_neg hexcl]
  by_cases hall : incl = [] ∧ reg = none
  · rw [if_neg (not_not_intro hall)]
    exact iff_of_true rfl ⟨hshard, hexcl, .inl hall⟩
  rw [if_pos hall]
  by_cases hmember : fr.subtreeID ∈ incl ∨
      ∃ r, reg = some r ∧ r.contains now fr.subtreeID = true
  · rw [if_neg (fun h => hmember.elim h.1 h.2)]
    exact iff_of_true rfl ⟨hshard, hexcl, .inr hmember⟩
  · rw [if_pos (not_or.mp hmember)]
    exact iff_of_false (by simp) fun h => h.2.2.elim hall hmember

/-- `Allow` reads the registry only through `Contains`. -/
theorem allow_new_congr (shards : List UInt32) (incl excl : List Bytes32)
    {r r' : GroupRegistry} {now : GroupClock} {fr : Frame} (groupIdx : UInt32)
    (hcontains : r.contains now fr.subtreeID = r'.contains now fr.subtreeID) :
    (Filter.new shards incl excl (some r)).allow now groupIdx fr =
      (Filter.new shards incl excl (some r')).allow now groupIdx fr := by
  simp only [allow, Filter.new, Option.any_some, hcontains]
  rfl

/-- **The filter decides by the announcement history.** Whatever the lists, the subscribed
groups and the history of the registry up to the readings `now`, a frame passes exactly when its
shard is included, its subtree is not excluded, and either nothing is included, or its subtree is
included statically, or the last `Add` or `Remove` of the subtree in some subscribed group
was an `Add` whose TTL has not ended. `Evict` calls and `Add`s for other groups change no
answer, and exclusion overrides both inclusions. -/
theorem allow_by_history (shards : List UInt32) (incl excl : List Bytes32)
    (groups : Option (List GroupID)) (d : Duration) (ops : List GroupOp) (now : GroupClock)
    (hclock : EvictedBy now ops) (groupIdx : UInt32) (fr : Frame) :
    let answer := fun ops' =>
      (afterCalls shards incl excl groups d ops').allow now groupIdx fr
    (answer ops = none ↔
      (shards = [] ∨ groupIdx ∈ shards) ∧ fr.subtreeID ∉ excl ∧
        ((incl = [] ∧ groups = none) ∨ fr.subtreeID ∈ incl ∨
          ∃ gs, groups = some gs ∧ ∃ g ∈ gs, ∃ exp,
            Announced d ops g fr.subtreeID exp ∧ now g < exp)) ∧
    (∀ ops', EvictedBy now ops' →
      (ops'.filter fun op => !op.isEvict) = (ops.filter fun op => !op.isEvict) →
      answer ops' = answer ops) ∧
    (∀ gs pre t g sid ttl post, groups = some gs → g ∉ gs →
      ops = pre ++ .add t g sid ttl :: post → answer (pre ++ post) = answer ops) ∧
    (fr.subtreeID ∈ excl → answer ops ≠ none) := by
  intro answer
  have hanswer : answer ops = none ↔ _ :=
    allow_new_eq_none_iff shards incl excl
      (groups.map fun gs => (GroupRegistry.new gs d).after ops) now groupIdx fr
  refine ⟨?_, ?_, ?_, fun hexcl hpass => (hanswer.mp hpass).2.1 hexcl⟩
  · rw [hanswer]
    cases groups with
    | none => simp
    | some gs => simp [GroupRegistry.contains_after _ hclock]
  · intro ops' hclock' hsame
    cases groups with
    | none => rfl
    | some gs =>
        refine allow_new_congr shards incl excl groupIdx (Bool.eq_iff_iff.mpr ?_)
        rw [GroupRegistry.contains_after _ hclock, GroupRegistry.contains_after _ hclock']
        -- both histories announce what their common part does
        simp only [← announced_filter d ops', hsame, announced_filter]
  · rintro gs pre t g sid ttl post rfl hg rfl
    have hregistry := GroupRegistry.after_add_of_not_subscribed
      (r := GroupRegistry.new gs d) hg pre post t sid ttl
    simp only [answer, afterCalls, Option.map_some, hregistry]

/-- A subtree that is announced, expires, is evicted at its expiry, and is announced again
with the default TTL. -/
def announcedTwice : List GroupOp :=
  let g : GroupID := List.Vector.replicate 16 1
  let evict := fun t => GroupOp.evict t (.stored _) fun _ => .stored _
  [.add 0 g (Bytes32.ofByte 0) 5, evict 5, .add 6 g (Bytes32.ofByte 0) 0, evict 9]

/-- The clock readings are after the calls. -/
theorem evictedBy_announcedTwice : EvictedBy (fun _ => 12) announcedTwice := by
  intro t ord ords hmem g
  change t ≤ 12
  simp only [announcedTwice, List.mem_cons, GroupOp.evict.injEq, reduceCtorEq, false_or,
    List.not_mem_nil, or_false] at hmem
  rcases hmem with ⟨rfl, -⟩ | ⟨rfl, -⟩ <;> decide

/-- At time 12 the second announcement, with its TTL of 10, is live. -/
theorem allow_by_history_announcedTwice :
    EvictedBy (fun _ => 12) announcedTwice ∧
      (afterCalls [] [] [] (some [List.Vector.replicate 16 1]) 10 announcedTwice).allow
        (fun _ => 12) 0 ⟨frameVerV2, Bytes32.ofByte 1, 1, 1, Bytes32.ofByte 0, []⟩ = none := by
  refine ⟨evictedBy_announcedTwice,
    (allow_by_history _ _ _ _ _ _ _ evictedBy_announcedTwice _ _).1.mpr
      ⟨.inl rfl, by simp, .inr (.inr ⟨_, rfl, _, List.mem_singleton_self _, 16, ?_, by decide⟩)⟩⟩
  exact ⟨6, 0, ⟨announcedTwice.take 2, announcedTwice.drop 3, rfl, by
    simp [announcedTwice, GroupOp.Touches]⟩, rfl⟩

end Filter

end ShardListener
