import DocGraph.Proofs.Landing
import DocGraph.Proofs.Shadowing

/-!
# One member after the other

The members of a lender are listed before anything moves, and then moved one by one by their paths.
While this goes on, some members stand where they stood, others stand at their new paths, and the
new ones may be at paths that the list still has to come to. What can be said at any moment is
collected here: which entities can be live at which paths, and which new paths count as lost.

Entities are followed by their places in the source order. As long as the live ones stand at
different places, each stands at one path at most, and one that is not live any more never comes
back.

A turn is thus described by one invariant and one step: what holds while the members are moved, and
what becomes of a live entity when one of them is. The main lemma iterates the two for any further
property, so that later modules add what they need without going through the moves again.
-/

namespace DocGraph.Registry

variable {registry before after : Registry} {lender old path above : NamePath} {hop : Hop}
  {owner : SourceOrder}

/-! ## Relocated paths -/

/-- The segments of a path below a lender, split where those of the lender end. Every argument about
relocated paths starts with this split. -/
theorem segments_of_is_below (below : path.isBelow lender = true) :
    ∃ first rest, path.segments = lender.segments ++ first :: rest := by
  obtain ⟨longer, deeper, same⟩ := NamePath.is_below_iff.mp below
  cases deeper with
  | nil =>
    rw [List.append_nil] at same
    exact absurd longer (by simp [same])
  | cons first rest => exact ⟨first, rest, same.symm⟩

/-- A relocated path has the segments of the target instead of those of the lender, and the first
segment below binds anew. At the root a segment can only be static, whatever the hop says. -/
theorem segments_relocate {first : Segment} {rest : List Segment}
    (split : path.segments = lender.segments ++ first :: rest) (hop : Hop) :
    (relocate path lender hop).segments = hop.target.segments ++
      ⟨if hop.target.isRoot then .static else hop.binding, first.name⟩ :: rest := by
  have deepen (rest : List Segment) (start : NamePath) (inside : start.isRoot = false) :
      (rest.foldl (fun path segment => path.child segment.binding segment.name) start).segments =
        start.segments ++ rest := by
    induction rest generalizing start with
    | nil => simp
    | cons segment rest inductionHypothesis =>
      have deeper : (start.child segment.binding segment.name).isRoot = false := by
        simp [NamePath.isRoot, NamePath.child]
      rw [List.foldl_cons, inductionHypothesis _ deeper]
      simp [NamePath.child, inside]
  have inside : (hop.target.child hop.binding first.name).isRoot = false := by
    simp [NamePath.isRoot, NamePath.child]
  rw [relocate, split, List.drop_left]
  dsimp only
  rw [deepen rest _ inside]
  simp [NamePath.child]

/-- A member is sent to a path below the target. So members never arrive outside of the target. -/
theorem relocate_is_below_target (below : path.isBelow lender = true) (hop : Hop) :
    (relocate path lender hop).isBelow hop.target = true := by
  obtain ⟨first, rest, split⟩ := segments_of_is_below below
  rw [NamePath.is_below_iff, segments_relocate split]
  exact ⟨by simp, List.prefix_append _ _⟩

/-- What lies below a member is sent below the path to which that member is sent. Relative positions
are kept, which is why a member whose container is lost can be recognized by its new path. -/
theorem relocate_is_below (below : above.isBelow lender = true)
    (deeper : path.isBelow above = true) (hop : Hop) :
    (relocate path lender hop).isBelow (relocate above lender hop) = true := by
  obtain ⟨first, rest, split⟩ := segments_of_is_below below
  obtain ⟨second, further, grows⟩ := segments_of_is_below deeper
  rw [split, List.append_assoc, List.cons_append] at grows
  rw [NamePath.is_below_iff, segments_relocate split, segments_relocate grows]
  exact ⟨by simp, ⟨second :: further, by simp⟩⟩

/-- The member above another one is sent to the parent of the path to which that one is
sent. -/
theorem parent?_relocate (below : above.isBelow lender = true)
    (child : path.parent? = some above) (hop : Hop) :
    (relocate path lender hop).parent? = some (relocate above lender hop) := by
  obtain ⟨first, rest, split⟩ := segments_of_is_below below
  obtain ⟨_, last, grows⟩ := NamePath.parent?_eq_some_iff.mp child
  rw [split, List.append_assoc, List.cons_append] at grows
  refine NamePath.parent?_eq_some_iff.mpr ⟨?_, last, ?_⟩
  · intro top
    have empty := congrArg NamePath.segments top
    rw [segments_relocate split] at empty
    simp [NamePath.root] at empty
  · rw [segments_relocate split, segments_relocate grows]
    simp

/-- A direct member of a lender is sent to a direct member of the target. The root is excluded,
because top-level paths have no parent. -/
theorem parent?_relocate_of_direct (child : path.parent? = some lender)
    (inside : hop.target ≠ .root) :
    (relocate path lender hop).parent? = some hop.target := by
  obtain ⟨_, last, grows⟩ := NamePath.parent?_eq_some_iff.mp child
  exact NamePath.parent?_eq_some_iff.mpr ⟨inside, _, segments_relocate grows hop⟩

/-! ## The members in the order in which they are moved -/

/-- The live paths below a lender, in registry order. The list is made before the first move and is
not changed by any. -/
def membersBelow (registry : Registry) (lender : NamePath) : List NamePath :=
  (registry.subtree lender).filter (· ≠ lender)

/-- The members of a lender are the live paths below it. -/
theorem mem_members_below :
    path ∈ registry.membersBelow lender ↔
      path ∈ registry.live.keys ∧ path.isBelow lender = true := by
  constructor
  · intro listed
    have below := is_below_of_mem_members listed
    exact ⟨(List.mem_filter.mp (List.mem_filter.mp listed).1).1, below⟩
  · rintro ⟨live, below⟩
    refine List.mem_filter.mpr ⟨List.mem_filter.mpr ⟨live, by simp [isWithin, below]⟩, ?_⟩
    rw [decide_eq_true_eq]
    rintro rfl
    simp at below

/-- No member is listed twice. -/
theorem members_below_nodup (registry : Registry) (lender : NamePath) :
    (registry.membersBelow lender).Nodup :=
  (registry.live.keys_nodup.filter _).filter _

/-- A member of a lender comes before another path in the order of the moves. Paths that are not
moved come after all members. The index of a path that is not listed is the length of the list. -/
def MovesBefore (registry : Registry) (lender first second : NamePath) : Prop :=
  (registry.membersBelow lender).idxOf first < (registry.membersBelow lender).idxOf second

instance (registry : Registry) (lender first second : NamePath) :
    Decidable (registry.MovesBefore lender first second) :=
  inferInstanceAs (Decidable (_ < _))

/-- What is moved before something is a member. -/
theorem MovesBefore.mem {first second : NamePath}
    (earlier : registry.MovesBefore lender first second) :
    first ∈ registry.membersBelow lender :=
  List.idxOf_lt_length_iff.mp (earlier.trans_le List.idxOf_le_length)

/-- When a member's turn comes, those moved before it are those whose turns are over. The list is
given split at the member, as an induction along it has it. -/
theorem moves_before_iff {front rest : List NamePath}
    (split : registry.membersBelow lender = front ++ old :: rest) :
    registry.MovesBefore lender path old ↔ path ∈ front := by
  have distinct := split ▸ registry.members_below_nodup lender
  have unseen : old ∉ front := fun seen =>
    (List.nodup_append.mp distinct).2.2 old seen old List.mem_cons_self rfl
  rw [MovesBefore, split, List.idxOf_append_of_notMem unseen, List.idxOf_cons_self, Nat.add_zero]
  constructor
  · intro less
    by_contra missing
    rw [List.idxOf_append_of_notMem missing] at less
    omega
  · intro seen
    rw [List.idxOf_append_of_mem seen]
    exact List.idxOf_lt_length_iff.mpr seen

/-- When a member's turn is over, it is moved before every member that still waits. -/
theorem moves_before_of_mem {front rest : List NamePath} {first second : NamePath}
    (split : registry.membersBelow lender = front ++ rest) (passed : first ∈ front)
    (waits : second ∈ rest) : registry.MovesBefore lender first second := by
  obtain ⟨next, others, rfl⟩ := List.append_of_mem waits
  rw [← List.append_assoc] at split
  exact (moves_before_iff split).mpr (List.mem_append_left _ passed)

/-! ## Where the live entities stand -/

/-- The place of an entity that is live somewhere is among those of the live entities. From here on
places stand for entities. -/
theorem LiveAt.mem_living (stands : registry.LiveAt path owner) :
    owner ∈ registry.living Entity.order := by
  obtain ⟨entity, found, rfl⟩ := stands
  exact Registry.mem_living found

/-- What is live is live somewhere. -/
theorem live_at_of_mem_living (present : owner ∈ registry.living Entity.order) :
    ∃ path, registry.LiveAt path owner := by
  obtain ⟨entity, held, rfl⟩ := List.mem_map.mp (Multiset.mem_coe.mp present)
  obtain ⟨path, entry⟩ := Table.mem_values_iff.mp held
  exact ⟨path, entity, Table.get?_eq_some_iff.mpr entry, rfl⟩

/-- The path of a live entity is live. -/
theorem LiveAt.mem_keys (stands : registry.LiveAt path owner) : path ∈ registry.live.keys := by
  obtain ⟨_, found, _⟩ := stands
  exact Table.mem_keys_of_get? found

/-- At a live path some entity is live. -/
theorem live_at_of_mem_keys (live : path ∈ registry.live.keys) :
    ∃ owner, registry.LiveAt path owner := by
  obtain ⟨⟨held, entity⟩, entry, rfl⟩ := List.mem_map.mp live
  exact ⟨entity.order, entity, Table.get?_eq_some_iff.mpr entry, rfl⟩

/-- Only one entity is live at a path. -/
theorem LiveAt.owner_eq {other : SourceOrder} (stands : registry.LiveAt path owner)
    (also : registry.LiveAt path other) : owner = other := by
  obtain ⟨_, found, rfl⟩ := stands
  obtain ⟨_, again, rfl⟩ := also
  rw [Option.some.inj (found.symm.trans again)]

/-- Taking a path out leaves no entity with the place of the one that was live there. -/
theorem not_mem_living_remove (distinct : (registry.living Entity.order).Nodup)
    (stands : registry.LiveAt path owner) :
    owner ∉ (registry.remove path).living Entity.order := by
  obtain ⟨entity, found, rfl⟩ := stands
  rw [← cons_living_remove found, Multiset.nodup_cons] at distinct
  exact distinct.1

/-- What is live at another path stays when a path is taken out. -/
theorem LiveAt.remove (stands : registry.LiveAt path owner) (apart : path ≠ old) :
    (registry.remove old).LiveAt path owner := by
  obtain ⟨entity, found, same⟩ := stands
  refine ⟨entity, ?_, same⟩
  simp [apart, found]

/-- An entity is live at one path at most, when the live entities stand at different places of the
source order. If the same place were live at two paths, taking one of them out would leave it. -/
theorem LiveAt.path_eq {other : NamePath} (distinct : (registry.living Entity.order).Nodup)
    (stands : registry.LiveAt path owner) (also : registry.LiveAt other owner) :
    path = other := by
  by_contra apart
  exact not_mem_living_remove distinct also (stands.remove apart).mem_living

/-- What is within a superseded subtree is not live any more. It may be live within the subtree
only, as places are distinct, and there nothing is live. -/
theorem not_mem_living_supersede_subtree {root : NamePath}
    (distinct : (registry.living Entity.order).Nodup) (stands : registry.LiveAt path owner)
    (within : isWithin root path = true) :
    owner ∉ (registry.supersedeSubtree root).living Entity.order := by
  intro present
  obtain ⟨other, entity, found, same⟩ := live_at_of_mem_living present
  have outside := (mem_keys_supersede_subtree.mp (Table.mem_keys_of_get? found)).2
  rw [get?_live_supersede_subtree, if_neg (by simp [outside])] at found
  obtain rfl := stands.path_eq distinct ⟨entity, found, same⟩
  rw [within] at outside
  cases outside

/-- What is outside of a superseded subtree stays live. -/
theorem LiveAt.supersede_subtree {root : NamePath} (stands : registry.LiveAt path owner)
    (outside : isWithin root path = false) :
    (registry.supersedeSubtree root).LiveAt path owner := by
  obtain ⟨entity, found, same⟩ := stands
  refine ⟨entity, ?_, same⟩
  simp [outside, found]

/-- What is live at another path stays when an entity becomes live. -/
theorem LiveAt.put {entity : Entity} (stands : registry.LiveAt path owner)
    (apart : path ≠ entity.path) (directives : Directives) :
    (registry.put entity directives).LiveAt path owner := by
  obtain ⟨other, found, same⟩ := stands
  refine ⟨other, ?_, same⟩
  simp [apart, found]

/-- An entity that was live and is live no more was superseded on the way. The census is kept, so
what is no more among the live ones is among the superseded. -/
theorem supersedes_of_steps (steps : Steps before after) (stood : before.LiveAt path owner)
    (gone : owner ∉ after.living Entity.order) : after.Supersedes owner := by
  have held : owner ∈ after.census Entity.order := by
    rw [steps.census_eq order_lasting]
    exact Multiset.mem_of_le (living_le_census before) stood.mem_living
  rw [census_eq_living_add, Multiset.mem_add, Multiset.mem_coe] at held
  exact ⟨held.resolve_left gone, gone⟩

/-! ## A single move -/

/-- What becomes of a registry and of the list of lost paths when one listed member is moved: a path
that is not live any more is passed over; an entity that belongs below a lost path is superseded;
any other is registered at its new path, which is lost when it is refused. There are four cases
because a registration may succeed or come too late; that it is refused for want of an order is left
out, since such a move ends in a fault. -/
inductive Carried (lender : NamePath) (hop : Hop) (lost : List NamePath) (old : NamePath)
    (registry : Registry) : Registry → List NamePath → Prop where
  | passed (gone : registry.live.get? old = none) :
      Carried lender hop lost old registry registry lost
  | displaced {entity : Entity} (found : registry.live.get? old = some entity)
      (below : lost.any (relocate old lender hop).isBelow = true) :
      Carried lender hop lost old registry
        ((registry.remove old).addSuperseded (entity.movedTo (relocate old lender hop))) lost
  | arrived {entity : Entity} {next : Registry} (found : registry.live.get? old = some entity)
      (clear : lost.any (relocate old lender hop).isBelow = false)
      (inserted : (registry.remove old).insert (entity.movedTo (relocate old lender hop))
        ((registry.directives.get? old).getD {}) = .ok (next, true)) :
      Carried lender hop lost old registry next lost
  | refused {entity : Entity} {next : Registry} (found : registry.live.get? old = some entity)
      (clear : lost.any (relocate old lender hop).isBelow = false)
      (inserted : (registry.remove old).insert (entity.movedTo (relocate old lender hop))
        ((registry.directives.get? old).getD {}) = .ok (next, false)) :
      Carried lender hop lost old registry next (lost ++ [relocate old lender hop])

/-- Moving listed members without a fault carries the first one and then moves the others. It is the
only place where the recursion over the listed members is opened. -/
theorem move_each_carries {lost rest : List NamePath}
    (finished : (moveEach lender hop lost registry (old :: rest)).failure = none) :
    ∃ next known, Carried lender hop lost old registry next known ∧
      moveEach lender hop lost registry (old :: rest) = moveEach lender hop known next rest := by
  rw [moveEach] at finished ⊢
  split at finished
  · next gone => exact ⟨registry, lost, .passed gone, rfl⟩
  · next entity found =>
    dsimp only at finished ⊢
    split at finished
    · next below => exact ⟨_, lost, .displaced found below, by rw [if_pos below]⟩
    · next apart =>
      rw [if_neg apart]
      rw [Bool.not_eq_true] at apart
      split at finished
      · cases finished
      · next next inserted => exact ⟨next, _, .arrived found apart inserted, rfl⟩
      · next next inserted => exact ⟨next, _, .refused found apart inserted, rfl⟩

section Carried

variable {lost known : List NamePath}

/-- Carrying a member moves it. The list of lost paths is forgotten, and what is known of single
moves can be used. -/
theorem Carried.moved (carried : Carried lender hop lost old before after known) :
    Moved lender hop old before after := by
  cases carried with
  | passed gone => exact .passed gone
  | displaced found _ => exact .displaced found
  | arrived found _ inserted => exact .reinserted found inserted
  | refused found _ inserted => exact .reinserted found inserted

/-- Lost paths stay lost. -/
theorem Carried.lost_subset (carried : Carried lender hop lost old before after known) :
    lost ⊆ known := by
  cases carried with
  | passed _ => exact List.Subset.refl _
  | displaced _ _ => exact List.Subset.refl _
  | arrived _ _ _ => exact List.Subset.refl _
  | refused _ _ _ => exact List.subset_append_left _ _

/-- A member that is carried sweeps the path to which it is sent: the path is held when the member
arrives and afterwards, and nothing else that was live within is live any more. It says more than
that the path was taken over: whatever stood within it is gone for good. -/
structure Sweeps (lender : NamePath) (hop : Hop) (old : NamePath) (before after : Registry) :
    Prop where
  held : relocate old lender hop ∈ (before.remove old).live.keys
  taken : relocate old lender hop ∈ after.live.keys
  gone : ∀ {path owner}, before.LiveAt path owner → path ≠ old →
    isWithin (relocate old lender hop) path = true → owner ∉ after.living Entity.order

/-- What happens to a live entity when a member is carried. It stays where it is; or it is the one
that is carried, and arrives at its new path or is superseded, below a lost path or because its new
path is held; or it is superseded where it is, when the one that is carried sweeps a path at or
above. The first path of the lost ones is not named; that one of them lies above the new path is all
that counts. -/
inductive Fate (lender : NamePath) (hop : Hop) (lost : List NamePath) (old : NamePath)
    (before after : Registry) (known : List NamePath) (path : NamePath) (owner : SourceOrder) :
    Prop where
  | stays (apart : path ≠ old) (stands : after.LiveAt path owner)
  | arrives (here : path = old) (clear : lost.any (relocate old lender hop).isBelow = false)
      (stands : after.LiveAt (relocate old lender hop) owner)
  | displaced (here : path = old) (below : lost.any (relocate old lender hop).isBelow = true)
      (gone : owner ∉ after.living Entity.order)
  | refused (here : path = old) (listed : relocate old lender hop ∈ known)
      (held : relocate old lender hop ∈ (before.remove old).live.keys)
      (taken : relocate old lender hop ∈ after.live.keys)
      (gone : owner ∉ after.living Entity.order)
  | swept (apart : path ≠ old) (within : isWithin (relocate old lender hop) path = true)
      (sweeps : Sweeps lender hop old before after) (gone : owner ∉ after.living Entity.order)

/-- What stands within a path that is swept has the last of these fates. -/
theorem Fate.of_sweeps (sweeps : Sweeps lender hop old before after)
    (stands : before.LiveAt path owner) (apart : path ≠ old)
    (within : isWithin (relocate old lender hop) path = true) :
    Fate lender hop lost old before after known path owner :=
  .swept apart within sweeps (sweeps.gone stands apart within)

/-- An entity that is not the one that is carried stays or is swept. -/
theorem Fate.elsewhere (fate : Fate lender hop lost old before after known path owner)
    (apart : path ≠ old) : after.LiveAt path owner ∨
      (isWithin (relocate old lender hop) path = true ∧ Sweeps lender hop old before after ∧
        owner ∉ after.living Entity.order) := by
  cases fate with
  | stays _ stands => exact .inl stands
  | arrives here _ _ => exact absurd here apart
  | displaced here _ _ => exact absurd here apart
  | refused here _ _ _ _ => exact absurd here apart
  | swept _ within sweeps gone => exact .inr ⟨within, sweeps, gone⟩

/-- In short, an entity stays, or it is the one that is carried and arrives, or it is not live
any more. -/
theorem Fate.outcome (fate : Fate lender hop lost old before after known path owner) :
    (path ≠ old ∧ after.LiveAt path owner) ∨
      (path = old ∧ after.LiveAt (relocate path lender hop) owner) ∨
      owner ∉ after.living Entity.order := by
  cases fate with
  | stays apart stands => exact .inl ⟨apart, stands⟩
  | arrives here _ stands => exact .inr (.inl ⟨here, here ▸ stands⟩)
  | displaced _ _ gone => exact .inr (.inr gone)
  | refused _ _ _ _ gone => exact .inr (.inr gone)
  | swept _ _ _ gone => exact .inr (.inr gone)

/-- Every live entity has one of these fates.

Proof: one case for each way to be carried. The entity at the old path is taken out and arrives, is
superseded or is refused. Every other entity stays, unless the new one takes over a path at which or
above which it stands; and since places are distinct, it is then live nowhere. -/
theorem Carried.fate (carried : Carried lender hop lost old before after known)
    (distinct : (before.living Entity.order).Nodup) (stands : before.LiveAt path owner) :
    Fate lender hop lost old before after known path owner := by
  by_cases here : path = old
  · have left : owner ∉ (before.remove old).living Entity.order :=
      not_mem_living_remove distinct (here ▸ stands)
    have moves (entity : Entity) (found : before.live.get? old = some entity) :
        (entity.movedTo (relocate old lender hop)).order = owner :=
      LiveAt.owner_eq ⟨entity, found, rfl⟩ (here ▸ stands)
    cases carried with
    | passed gone =>
      exact absurd (here ▸ stands.mem_keys) (Table.get?_eq_none_iff.mp gone)
    | displaced found below => exact .displaced here below left
    | @arrived entity _ found clear inserted =>
      refine .arrives here clear ?_
      obtain ⟨_, rfl, _⟩ | ⟨_, _, _, _, no⟩ | ⟨_, _, _, rfl, _⟩ := insert_cases inserted
      · exact ⟨_, by simp [Entity.movedTo], moves entity found⟩
      · cases no
      · exact ⟨shadowing (entity.movedTo (relocate old lender hop)),
          by simp [Entity.movedTo],
          moves entity found⟩
    | refused found clear inserted =>
      obtain ⟨_, _, no⟩ | ⟨existing, held, _, rfl, _⟩ | ⟨_, _, _, _, no⟩ := insert_cases inserted
      · cases no
      · exact .refused here (List.mem_append_right _ List.mem_cons_self)
          (Table.mem_keys_of_get? held) (Table.mem_keys_of_get? held) left
      · cases no
  · have remains := stands.remove here
    cases carried with
    | passed gone => exact .stays here stands
    | displaced found below => exact .stays here remains
    | @arrived entity _ found clear inserted =>
      rw [← cons_living_remove found, Multiset.nodup_cons] at distinct
      obtain ⟨free, rfl, _⟩ | ⟨_, _, _, _, no⟩ | ⟨_, held, _, rfl, _⟩ := insert_cases inserted
      · have apart : path ≠ (entity.movedTo (relocate old lender hop)).path :=
          fun same => free (same ▸ remains.mem_keys)
        exact .stays here (remains.put apart _)
      · cases no
      · have cleared : (shadowing (entity.movedTo (relocate old lender hop))).path ∉
            ((before.remove old).supersedeSubtree
              (entity.movedTo (relocate old lender hop)).path).live.keys :=
          not_mem_keys_supersede_subtree (before.remove old) (relocate old lender hop)
        cases within : isWithin (relocate old lender hop) path with
        | false =>
          have apart : path ≠ (shadowing (entity.movedTo (relocate old lender hop))).path := by
            rintro rfl
            exact absurd (is_within_self _) (ne_true_of_eq_false within)
          exact .stays here ((remains.supersede_subtree within).put apart _)
        | true =>
          refine .of_sweeps ⟨Table.mem_keys_of_get? held, Table.mem_keys_insert.mpr (.inl rfl), ?_⟩
            stands here within
          intro other loser stands apart within
          have remains := stands.remove apart
          rw [living_put _ cleared, Multiset.mem_cons]
          rintro (same | present)
          · exact distinct.1 (same ▸ remains.mem_living)
          · exact not_mem_living_supersede_subtree distinct.2 remains within present
    | refused found clear inserted =>
      obtain ⟨_, _, no⟩ | ⟨_, _, _, rfl, _⟩ | ⟨_, _, _, _, no⟩ := insert_cases inserted
      · cases no
      · exact .stays here remains
      · cases no

/-- A path that is lost after a member was carried was lost before, or is the new path of the
member, which was held, and then no entity that stood at the member's old path is live. It is what
makes a lost path traceable to a member. -/
theorem Carried.lost_cases (carried : Carried lender hop lost old before after known)
    (distinct : (before.living Entity.order).Nodup) (listed : path ∈ known) :
    path ∈ lost ∨ path = relocate old lender hop ∧
      relocate old lender hop ∈ (before.remove old).live.keys ∧
      ∀ owner, before.LiveAt old owner → owner ∉ after.living Entity.order := by
  cases carried with
  | passed _ => exact .inl listed
  | displaced _ _ => exact .inl listed
  | arrived _ _ _ => exact .inl listed
  | refused found _ inserted =>
    refine (List.mem_append.mp listed).imp_right ?_
    intro here
    obtain ⟨_, _, no⟩ | ⟨_, held, _, rfl, _⟩ | ⟨_, _, _, _, no⟩ := insert_cases inserted
    · cases no
    · exact ⟨List.mem_singleton.mp here, Table.mem_keys_of_get? held,
        fun _ stands => not_mem_living_remove distinct stands⟩
    · cases no

end Carried

/-! ## While the members are moved -/

/-- The path to which a member is sent may be held when its turn comes: something is live there from
the start and has not been moved by then, or a member that was sent there is moved before. It can be
decided from the registry before the first move, and errs on the side of calling a path contested:
the member that was sent there may itself have been superseded. -/
def Contested (registry : Registry) (lender : NamePath) (hop : Hop) (member : NamePath) : Prop :=
  member ∈ registry.membersBelow lender ∧
    ((relocate member lender hop ∈ registry.live.keys ∧ relocate member lender hop ≠ member ∧
      ¬registry.MovesBefore lender (relocate member lender hop) member) ∨
    ∃ other ∈ registry.membersBelow lender, registry.MovesBefore lender other member ∧
      relocate other lender hop = relocate member lender hop)

instance (registry : Registry) (lender : NamePath) (hop : Hop) (member : NamePath) :
    Decidable (registry.Contested lender hop member) :=
  inferInstanceAs (Decidable (_ ∧ _))

/-- What holds between two moves, when some members were moved and the rest waits. Live paths are
old ones that were not moved, or new paths of those that were; an entity that waits is at its old
path or is not live any more; and a lost path is the contested new path of a member that is not live
any more. Nothing is said about members that were moved, except for where they may be; what became
of them is for the property that is carried along. -/
structure Underway (start : Registry) (lender : NamePath) (hop : Hop) (front rest : List NamePath)
    (lost : List NamePath) (current : Registry) : Prop where
  split : start.membersBelow lender = front ++ rest
  distinct : (current.living Entity.order).Nodup
  origin : ∀ path ∈ current.live.keys, (path ∈ start.live.keys ∧ path ∉ front) ∨
    ∃ old ∈ front, path = relocate old lender hop
  waits : ∀ old ∈ rest, ∀ owner, start.LiveAt old owner →
    current.LiveAt old owner ∨ owner ∉ current.living Entity.order
  judged : ∀ path ∈ lost, ∃ old ∈ front, path = relocate old lender hop ∧
    start.Contested lender hop old ∧
    ∀ owner, start.LiveAt old owner → owner ∉ current.living Entity.order

section Underway

variable {start current next : Registry} {front rest lost known : List NamePath}

/-- A member whose turn has come is listed. -/
theorem Underway.listed (underway : Underway start lender hop front (old :: rest) lost current) :
    old ∈ start.membersBelow lender :=
  underway.split ▸ List.mem_append_right _ List.mem_cons_self

/-- A member whose turn has come lies below the lender. -/
theorem Underway.below (underway : Underway start lender hop front (old :: rest) lost current) :
    old.isBelow lender = true :=
  (mem_members_below.mp underway.listed).2

/-- What does not lie below the lender is never moved. -/
theorem Underway.outside (underway : Underway start lender hop front (old :: rest) lost current)
    (outside : path.isBelow lender = false) : path ≠ old := by
  rintro rfl
  rw [underway.below] at outside
  cases outside

/-- A member whose turn is over is moved before the one whose turn has come. -/
theorem Underway.comes_after (underway : Underway start lender hop front (old :: rest) lost current)
    (passed : path ∈ front) : start.MovesBefore lender path old :=
  (moves_before_iff underway.split).mpr passed

/-- The member whose turn has come is moved before those that wait. -/
theorem Underway.comes_before
    (underway : Underway start lender hop front (old :: rest) lost current)
    (waits : path ∈ rest) : start.MovesBefore lender old path := by
  have split := underway.split
  rw [← List.singleton_append, ← List.append_assoc] at split
  exact moves_before_of_mem split (List.mem_append_right _ List.mem_cons_self) waits

/-- When the new path of a member is held at its turn, it is contested. If the path is held by
something from the start, that has not been moved; otherwise a member moved before was sent
there. -/
theorem Underway.contested
    (underway : Underway start lender hop front (old :: rest) lost current)
    (held : relocate old lender hop ∈ (current.remove old).live.keys) :
    start.Contested lender hop old := by
  obtain ⟨live, apart⟩ := mem_keys_remove.mp held
  refine ⟨underway.listed, ?_⟩
  obtain ⟨before, waiting⟩ | ⟨other, moved, same⟩ := underway.origin _ live
  · exact .inl ⟨before, apart, mt (moves_before_iff underway.split).mp waiting⟩
  · have listed : other ∈ start.membersBelow lender :=
      underway.split ▸ List.mem_append_left _ moved
    exact .inr ⟨other, listed, underway.comes_after moved, same.symm⟩

/-- No entity comes back to life when a member is carried. Places do not come back, because no step
adds to the living ones. -/
theorem Underway.gone (underway : Underway start lender hop front (old :: rest) lost current)
    (carried : Carried lender hop lost old current next known)
    (gone : owner ∉ current.living Entity.order) : owner ∉ next.living Entity.order :=
  fun present => gone (Multiset.mem_of_le
    ((carried.moved.steps underway.below).living_le order_lasting) present)

/-- A member that waits is not the one that is moved, and does not come before it. -/
theorem Underway.apart (underway : Underway start lender hop front (old :: rest) lost current)
    (waits : path ∈ rest) : path ≠ old := by
  have distinct := underway.split ▸ start.members_below_nodup lender
  rintro rfl
  exact (List.nodup_cons.mp (List.nodup_append.mp distinct).2.1).1 waits

/-- Between two moves the same holds again.

Proof: the member goes over from those that wait to those that were moved. Live paths are old ones
or its new path. Each waiting entity stays or is swept, as it is not the one that is carried. And a
path that is newly lost is the new path of the member, which was held and is therefore contested. -/
theorem Underway.carried
    (underway : Underway start lender hop front (old :: rest) lost current)
    (carried : Carried lender hop lost old current next known) :
    Underway start lender hop (front ++ [old]) rest known next := by
  refine ⟨?split, ?distinct, ?origin, ?waits, ?judged⟩
  case split => rw [underway.split, List.append_assoc, List.singleton_append]
  case distinct =>
    exact Multiset.nodup_of_le ((carried.moved.steps underway.below).living_le order_lasting)
      underway.distinct
  case origin =>
    intro path live
    obtain ⟨held, apart⟩ | here := carried.moved.mem_keys live
    · obtain ⟨before, waiting⟩ | ⟨other, moved, same⟩ := underway.origin path held
      · refine .inl ⟨before, ?_⟩
        simp [waiting, apart]
      · exact .inr ⟨other, List.mem_append_left _ moved, same⟩
    · exact .inr ⟨old, List.mem_append_right _ List.mem_cons_self, here⟩
  case waits =>
    intro other waiting owner stood
    have apart := underway.apart waiting
    obtain stands | gone := underway.waits other (List.mem_cons_of_mem old waiting) owner stood
    · exact ((carried.fate underway.distinct stands).elsewhere apart).imp_right
        fun swept => swept.2.2
    · exact .inr (underway.gone carried gone)
  case judged =>
    intro path listed
    obtain earlier | ⟨here, held, left⟩ := carried.lost_cases underway.distinct listed
    · obtain ⟨other, moved, same, contested, gone⟩ := underway.judged path earlier
      exact ⟨other, List.mem_append_left _ moved, same, contested,
        fun owner stood => underway.gone carried (gone owner stood)⟩
    · refine ⟨old, List.mem_append_right _ List.mem_cons_self, here, underway.contested held, ?_⟩
      intro owner stood
      obtain stands | gone := underway.waits old List.mem_cons_self owner stood
      · exact left owner stands
      · exact underway.gone carried gone

/-- Moving the members of a lender goes through when the live entities stand at different places,
and what every single move keeps holds in the end.

Proof: induction on the members that wait. Distinct places make each move succeed, and the invariant
holds at the start, when no member was moved, and after each of them. -/
theorem move_members_keeps
    {motive : List NamePath → List NamePath → List NamePath → Registry → Prop}
    (distinct : (start.living Entity.order).Nodup)
    (kept : ∀ {front rest lost known old current next},
      Underway start lender hop front (old :: rest) lost current →
      Carried lender hop lost old current next known → motive front (old :: rest) lost current →
      motive (front ++ [old]) rest known next)
    (holds : motive [] (start.membersBelow lender) [] start) :
    ∃ lost, motive (start.membersBelow lender) [] lost (start.moveMembers lender hop).registry := by
  have through (rest : List NamePath) : ∀ {front lost current},
      Underway start lender hop front rest lost current → motive front rest lost current →
      ∃ known, motive (start.membersBelow lender) [] known
        (moveEach lender hop lost current rest).registry := by
    induction rest with
    | nil =>
      intro front lost current underway holds
      rw [underway.split, List.append_nil]
      exact ⟨lost, holds⟩
    | cons old rest inductionHypothesis =>
      intro front lost current underway holds
      have finished : (moveEach lender hop lost current (old :: rest)).failure = none :=
        move_each_succeeds underway.distinct
      obtain ⟨next, known, carried, same⟩ := move_each_carries finished
      rw [same]
      exact inductionHypothesis (underway.carried carried) (kept underway carried holds)
  refine through _ ⟨rfl, distinct, ?_, ?_, ?_⟩ holds
  · exact fun path live => .inl ⟨live, List.not_mem_nil⟩
  · exact fun old _ owner stood => .inl stood
  · exact fun path listed => absurd listed List.not_mem_nil

end Underway

end DocGraph.Registry
