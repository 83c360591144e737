import DocGraph.Proofs.Indexing
import DocGraph.Proofs.PathOrder
import DocGraph.Proofs.SnapshotText

/-!
# Nesting that ends

A snapshot follows the member lists downwards from the entities at the top, those without a live
container. Nothing ties the recorded paths and parents of a snapshot that was written by hand to the
paths under which its entities are held, so an entity may well be a member of itself, directly or
through others, and then following the lists from it never ends.

What lists a path is fixed by the entity that is held there: its recorded parent, or the root if
none is recorded. So a circle of members that is met from the top leads back to the top, and an
entity can only be at the top of its own circle when it records no parent and the root is held. The
circle then runs through the root. This is the only way in which nesting does not end, and without
it no bound on the depth is felt.

The bound on the depth is the number of live paths. A chain of members without a circle visits every
path once at most, so no chain is longer; that is shown by counting what is below a path, which gets
smaller from a container to its members.
-/

namespace DocGraph.Snapshot

/-- A live path is a member of another one when the entity at the other one lists it. A listed path
without an entity is no member, and nesting passes it over. -/
def MemberOf (live : Table NamePath Entity) (member container : NamePath) : Prop :=
  member ∈ live.keys ∧ ∃ entity, live.get? container = some entity ∧ member ∈ entity.members

/-- A path stands at the top when its entity has no live container. An entity whose recorded parent
is not live is at the top, whatever path it is held under. -/
def AtTop (live : Table NamePath Entity) (path : NamePath) : Prop :=
  ∃ entity, live.get? path = some entity ∧ isTop live entity = true

/-- Nesting ends when every chain of members that starts at the top does. It is accessibility, so
that nesting may be defined by recursion along it; nothing is asked of what is not below the top. -/
def NestingEnds (live : Table NamePath Entity) : Prop :=
  ∀ top, AtTop live top → Acc (MemberOf live) top

/-- Below the top, or at it, a path is a member of itself, directly or through others. The circle
need not contain the entity at the top from which it is met, but for graphs it will turn out that it
does. -/
def MeetsItself (live : Table NamePath Entity) : Prop :=
  ∃ top path, AtTop live top ∧ Relation.ReflTransGen (MemberOf live) path top ∧
    Relation.TransGen (MemberOf live) path path

/-- The entity at a path records another path as its parent. The parent need not be live. -/
def RecordsParent (live : Table NamePath Entity) (path parent : NamePath) : Prop :=
  ∃ entity, live.get? path = some entity ∧ entity.parent = some parent

/-- An entity is held at the root, and the recorded parents lead from it to an entity that records
none. The way from the root may be empty; then the root itself records no parent. -/
def RootSurfaces (live : Table NamePath Entity) : Prop :=
  ∃ last entity, Relation.ReflTransGen (RecordsParent live) .root last ∧
    live.get? last = some entity ∧ entity.parent = none

/-- Member lists follow the recorded parents when an entity lists just the live paths that it is the
container of. Every graph has it, because its member lists are made from the recorded parents. -/
def FollowsParents (live : Table NamePath Entity) : Prop :=
  ∀ member container, MemberOf live member container ↔
    container ∈ live.keys ∧ ∃ entity, live.get? member = some entity ∧
      Graph.container entity = container

/-- The bound on the depth of a snapshot is not felt when a greater one gives the same trees at the
top. If the bound were felt, members at some depth would be missing from a snapshot. -/
def Unlimited (live : Table NamePath Entity) : Prop :=
  ∀ top entity depth, live.get? top = some entity → isTop live entity = true →
    live.size ≤ depth → nest live depth entity = nest live live.size entity

/-- The member lists of a graph follow the recorded parents, whatever entities it is made of. It is
a matter of the member lists alone and holds for any entities. -/
theorem follows_parents_of_entities (entities : Table NamePath Entity) (superseded : List Entity)
    (info : ModuleInfo) (order : MemberOrder) :
    FollowsParents (Graph.ofEntities entities superseded info order).live := by
  intro member container
  rw [← Graph.mem_by_container_iff]
  have members := (Graph.indexed_of_entities entities superseded info order).members
  constructor
  · rintro ⟨_, entity, found, listed⟩
    exact ⟨Table.mem_keys_of_get? found, members container entity found ▸ listed⟩
  · rintro ⟨held, listed⟩
    obtain ⟨entity, found⟩ := Option.ne_none_iff_exists'.mp
      (mt Table.get?_eq_none_iff.mp (not_not.mpr held))
    obtain ⟨_, inside, _⟩ := Graph.mem_by_container_iff _ _ _ _ |>.mp listed
    exact ⟨Table.mem_keys_of_get? inside, entity, found,
      (members container entity found).symm ▸ listed⟩

section Circles

variable {live : Table NamePath Entity} {top path member container other : NamePath}
  {entity : Entity}

/-- A path has one container at most. Therefore the way up from a path is determined. -/
theorem FollowsParents.container_eq (follows : FollowsParents live)
    (listed : MemberOf live member container) (again : MemberOf live member other) :
    container = other := by
  obtain ⟨_, entity, found, same⟩ := (follows _ _).mp listed
  obtain ⟨_, _, foundAgain, sameAgain⟩ := (follows _ _).mp again
  obtain rfl := Option.some.inj (found.symm.trans foundAgain)
  exact same.symm.trans sameAgain

/-- Going up from a path that is a member of itself leads around its circle, and so back to the path
from wherever it has led.

Proof: induction on the way up. The path that was reached has a container on the circle, by which it
got back, and it has one container only, so the next step stays on the circle. -/
theorem FollowsParents.leads_back (follows : FollowsParents live)
    (above : Relation.ReflTransGen (MemberOf live) path top)
    (circle : Relation.TransGen (MemberOf live) path path) :
    Relation.ReflTransGen (MemberOf live) top path := by
  induction above with
  | refl => exact .refl
  | @tail between top reached step inductionHypothesis =>
    have around : Relation.TransGen (MemberOf live) between between :=
      (Relation.TransGen.trans_right inductionHypothesis circle).trans_left reached
    obtain ⟨next, first, further⟩ := Relation.TransGen.head'_iff.mp around
    rw [follows.container_eq step first]
    exact further.trans inductionHypothesis

/-- An entity at the top that is a member of anything records no parent and is a member of the root.
An entity at the top has a container that is not live, or none is recorded and the root counts as
its container. -/
theorem FollowsParents.root_of_at_top (follows : FollowsParents live) (atTop : AtTop live top)
    (listed : MemberOf live top container) :
    container = .root ∧ ∃ entity, live.get? top = some entity ∧ entity.parent = none := by
  obtain ⟨entity, found, outermost⟩ := atTop
  obtain ⟨held, same, foundAgain, rfl⟩ := (follows _ _).mp listed
  obtain rfl := Option.some.inj (found.symm.trans foundAgain)
  cases parented : entity.parent with
  | none => exact ⟨by rw [Graph.container, parented]; rfl, entity, found, parented⟩
  | some parent =>
    rw [Graph.container, parented, Option.getD_some] at held
    rw [isTop, parented] at outermost
    have absent : parent ∉ live.keys := by simpa using outermost
    exact absurd held absent

/-- Going up from the root to an entity that records no parent, the recorded parents lead to such an
entity: to the first one on the way. An entity that records no parent is a member of the root, so
the member relation can go on from there, while the recorded parents stop. -/
theorem FollowsParents.surfaces (follows : FollowsParents live)
    (above : Relation.ReflTransGen (MemberOf live) path top) (found : live.get? top = some entity)
    (parentless : entity.parent = none) :
    ∃ last entity, Relation.ReflTransGen (RecordsParent live) path last ∧
      live.get? last = some entity ∧ entity.parent = none := by
  induction above using Relation.ReflTransGen.head_induction_on with
  | refl => exact ⟨top, entity, .refl, found, parentless⟩
  | @head path between step _ inductionHypothesis =>
    obtain ⟨_, origin, held, same⟩ := (follows _ _).mp step
    cases parented : origin.parent with
    | none => exact ⟨path, origin, .refl, held, parented⟩
    | some parent =>
      obtain ⟨last, final, leads, foundLast, none⟩ := inductionHypothesis
      rw [Graph.container, parented, Option.getD_some] at same
      exact ⟨last, final, .head ⟨origin, held, same ▸ parented⟩ leads, foundLast, none⟩

/-- The recorded parents that lead to a live path lead through live paths only, each of them a
member of the next one. A path that records a live parent is a member of it. -/
theorem FollowsParents.member_of_of_records (follows : FollowsParents live)
    (leads : Relation.ReflTransGen (RecordsParent live) path top) (held : top ∈ live.keys) :
    path ∈ live.keys ∧ Relation.ReflTransGen (MemberOf live) path top := by
  induction leads using Relation.ReflTransGen.head_induction_on with
  | refl => exact ⟨held, .refl⟩
  | @head path between step _ inductionHypothesis =>
    obtain ⟨entity, found, parented⟩ := step
    obtain ⟨live, above⟩ := inductionHypothesis
    have listed := (follows path between).mpr
      ⟨live, entity, found, by rw [Graph.container, parented, Option.getD_some]⟩
    exact ⟨Table.mem_keys_of_get? found, .head listed above⟩

/-- The members of a graph run in a circle that is met from the top exactly when the recorded
parents lead from the root to an entity that records none.

Proof: from left to right, the circle leads back to the entity at the top, which therefore is a
member of something; it records no parent, its container is the root, and the root is on the circle.
From right to left, the entity that records no parent is a member of the root, and the recorded
parents lead from the root to it, which closes a circle with the entity at its top. -/
theorem FollowsParents.meets_itself_iff (follows : FollowsParents live) :
    MeetsItself live ↔ RootSurfaces live := by
  constructor
  · rintro ⟨top, path, atTop, above, circle⟩
    have back := follows.leads_back above circle
    have around : Relation.TransGen (MemberOf live) top top :=
      (Relation.TransGen.trans_right back circle).trans_left above
    obtain ⟨next, step, further⟩ := Relation.TransGen.head'_iff.mp around
    obtain ⟨rfl, entity, found, parentless⟩ := follows.root_of_at_top atTop step
    exact follows.surfaces further found parentless
  · rintro ⟨last, entity, leads, found, parentless⟩
    obtain ⟨held, above⟩ := follows.member_of_of_records leads (Table.mem_keys_of_get? found)
    have listed : MemberOf live last .root := (follows last .root).mpr
      ⟨held, entity, found, by rw [Graph.container, parentless, Option.getD_none]⟩
    exact ⟨last, last, ⟨entity, found, by rw [isTop, parentless]⟩, .refl, .head' listed above⟩

/-- Nothing below a path, nor the path, is a member of itself. It is asked of what is below as well,
since a chain may enter a circle later. -/
def Circleless (live : Table NamePath Entity) (path : NamePath) : Prop :=
  ∀ below, Relation.ReflTransGen (MemberOf live) below path →
    ¬Relation.TransGen (MemberOf live) below below

/-- What is a member of a path, directly or through others. Its size is what nesting is bounded
by. -/
def membersWithin (live : Table NamePath Entity) (path : NamePath) : Set NamePath :=
  {member | Relation.TransGen (MemberOf live) member path}

/-- Every member is live. -/
theorem members_within_subset (live : Table NamePath Entity) (path : NamePath) :
    membersWithin live path ⊆ {held | held ∈ live.keys} := by
  intro member within
  obtain ⟨_, listed, _⟩ := Relation.TransGen.head'_iff.mp within
  exact listed.1

/-- There are at most as many members as live paths. Paths may be listed by several entities, but
they are counted once. -/
theorem ncard_members_within_le (live : Table NamePath Entity) (path : NamePath) :
    (membersWithin live path).ncard ≤ live.size := by
  have few := Set.ncard_le_ncard (members_within_subset live path) (List.finite_toSet live.keys)
  have listed : {held | held ∈ live.keys} = (live.keys.toFinset : Set NamePath) := by
    ext held
    simp
  rw [listed, Set.ncard_coe_finset] at few
  exact few.trans ((List.toFinset_card_le _).trans_eq live.length_keys)

/-- A member has fewer members than its container, unless it is its own member. The member itself is
within its container, and it is not within itself. -/
theorem ncard_members_within_lt (listed : MemberOf live member path)
    (apart : ¬Relation.TransGen (MemberOf live) member member) :
    (membersWithin live member).ncard < (membersWithin live path).ncard := by
  refine Set.ncard_lt_ncard ⟨fun below within => .tail within listed, fun all => ?_⟩
    ((List.finite_toSet live.keys).subset (members_within_subset live path))
  exact apart (all (Relation.TransGen.single listed))

/-- Where nothing is a member of itself, every chain of members ends. The induction is on the number
of members below the path. -/
theorem Circleless.acc (circleless : Circleless live path) : Acc (MemberOf live) path := by
  induction count : (membersWithin live path).ncard using Nat.strong_induction_on
    generalizing path with
  | h count inductionHypothesis =>
    refine ⟨path, fun member listed => ?_⟩
    have inside : Circleless live member := fun below reaches =>
      circleless below (reaches.tail listed)
    have fewer := ncard_members_within_lt listed (inside member .refl)
    exact inductionHypothesis _ (count ▸ fewer) inside rfl

/-- Where every chain of members ends, nothing is a member of itself. A circle would be a chain of
members without an end. -/
theorem circleless_of_acc (ends : Acc (MemberOf live) path) : Circleless live path := by
  induction ends with
  | intro path _ inductionHypothesis =>
    intro below reaches circle
    rcases Relation.ReflTransGen.cases_tail_iff _ below path |>.mp reaches with
      rfl | ⟨member, deeper, listed⟩
    · -- a circle through the path itself runs through one of its members
      obtain ⟨member, around, listed⟩ := Relation.TransGen.tail'_iff.mp circle
      exact inductionHypothesis member listed member .refl (.head' listed around)
    · exact inductionHypothesis member listed below deeper circle

/-- What an entity lists is held under one of its members. -/
theorem exists_member_of (found : live.get? path = some entity) {listed : Entity}
    (inside : listed ∈ entity.members.filterMap live.get?) :
    ∃ member, live.get? member = some listed ∧ MemberOf live member path := by
  obtain ⟨member, named, held⟩ := List.mem_filterMap.mp inside
  exact ⟨member, held, Table.mem_keys_of_get? held, entity, found, named⟩

/-- A nesting depth that covers the members of an entity gives the same tree as any greater one,
where nothing is a member of itself.

Proof: induction on the smaller depth. If it is zero, the entity lists no live path and there is
nothing to nest. Otherwise each member has fewer members than the entity, so the smaller depth
without one covers them, and the trees of the members agree. -/
theorem nest_eq_of_le {bound depth : Nat} (found : live.get? path = some entity)
    (circleless : Circleless live path) (covers : (membersWithin live path).ncard ≤ bound)
    (deeper : bound ≤ depth) : nest live depth entity = nest live bound entity := by
  induction bound generalizing path entity depth with
  | zero =>
    have alone : entity.members.filterMap live.get? = [] := by
      rw [List.eq_nil_iff_forall_not_mem]
      intro listed inside
      obtain ⟨member, _, within⟩ := exists_member_of found inside
      have fewer := ncard_members_within_lt within (circleless member (.single within))
      omega
    cases depth with
    | zero => rfl
    | succ depth =>
      rw [nest, nest, alone]
      rfl
  | succ bound inductionHypothesis =>
    obtain ⟨depth, rfl⟩ := Nat.exists_eq_add_of_le' (Nat.one_le_of_lt deeper)
    have same : (entity.members.filterMap live.get?).map (nest live depth) =
        (entity.members.filterMap live.get?).map (nest live bound) := by
      refine List.map_congr_left fun listed inside => ?_
      obtain ⟨member, held, within⟩ := exists_member_of found inside
      have fewer := ncard_members_within_lt within (circleless member (.single within))
      exact inductionHypothesis held (fun below reaches => circleless below (reaches.tail within))
        (by omega) (by omega)
    rw [nest, nest, same]

/-- Nesting ends exactly when no circle of members is met from the top. It holds for any member
lists; that they follow the parents is needed only for the place of the circle. -/
theorem nesting_ends_iff_not_meets_itself : NestingEnds live ↔ ¬MeetsItself live := by
  constructor
  · rintro ends ⟨top, path, atTop, above, circle⟩
    exact circleless_of_acc (ends top atTop) path above circle
  · intro never top atTop
    exact Circleless.acc fun below reaches circle => never ⟨top, below, atTop, reaches, circle⟩

/-- When nesting ends, the bound on the depth of a snapshot is not felt. -/
theorem NestingEnds.unlimited (ends : NestingEnds live) : Unlimited live := by
  intro top entity depth found outermost deeper
  exact nest_eq_of_le found (circleless_of_acc (ends top ⟨entity, found, outermost⟩))
    (ncard_members_within_le live top) deeper

end Circles

/-- Nesting the entities of a graph that was rebuilt from a snapshot, however that was written, ends
exactly when nothing that is met from the top is a member of itself. The only way in which it does
not end is that an entity is held at the root and that the recorded parents lead from it to an
entity that records none. When it ends, the snapshot that is taken of the graph nests as deep as the
members do.

Proof: the graph is made of entities, so its member lists follow the recorded parents whatever the
snapshot says. The three parts are then facts about such lists. -/
theorem nesting_ends_to_graph (snapshot : Snapshot) :
    (NestingEnds snapshot.toGraph.live ↔ ¬MeetsItself snapshot.toGraph.live) ∧
      (MeetsItself snapshot.toGraph.live ↔ RootSurfaces snapshot.toGraph.live) ∧
      (NestingEnds snapshot.toGraph.live → Unlimited snapshot.toGraph.live) := by
  have follows : FollowsParents snapshot.toGraph.live := follows_parents_of_entities _ _ _ _
  exact ⟨nesting_ends_iff_not_meets_itself, follows.meets_itself_iff, NestingEnds.unlimited⟩

/-- A snapshot with one entity at the root and another one below it. The entity at the root
records a parent that is missing, or none. -/
def withRoot (parent : Option NamePath) : Snapshot :=
  { info := {}
    memberOrder := .declaration
    entities :=
      [.node (.root, { kind := .namespaceEntity, name := "", parent := parent }) [],
       .node (.ofNames ["A"],
         { kind := .classEntity, name := "A", path := .ofNames ["A"],
           order := { sequence := 1 } }) []]
    superseded := [] }

/-- An entity at the root whose parent is missing is at the top, and so is its member. Nesting
ends there. -/
theorem with_root_nesting_ends :
    NestingEnds (withRoot (some (.ofNames ["lost"]))).toGraph.live ∧
      Unlimited (withRoot (some (.ofNames ["lost"]))).toGraph.live := by
  obtain ⟨endsIff, meetsIff, unlimited⟩ :=
    nesting_ends_to_graph (withRoot (some (.ofNames ["lost"])))
  generalize made : (withRoot (some (.ofNames ["lost"]))).toGraph.live = live at *
  have atRoot : (live.get? .root).map Entity.parent = some (some (.ofNames ["lost"])) := by
    rw [← made]
    cbv
  have missing : live.get? (.ofNames ["lost"]) = none := by
    rw [← made]
    cbv
  have buried : ¬RootSurfaces live := by
    rintro ⟨last, entity, leads, found, parentless⟩
    rcases leads.cases_head with rfl | ⟨parent, ⟨origin, held, parented⟩, further⟩
    · simp [found, parentless] at atRoot
    · simp only [held, Option.map_some, parented, Option.some.injEq] at atRoot
      subst atRoot
      rcases further.cases_head with rfl | ⟨_, ⟨_, foundLost, _⟩, _⟩
      · simp [missing] at found
      · simp [missing] at foundLost
  have ends : NestingEnds live := endsIff.mpr (mt meetsIff.mp buried)
  exact ⟨ends, unlimited ends⟩

/-- The text of a snapshot whose entity at the root records no parent is accepted, and the entity is
then at the top and a member of itself. So a text that anybody may write leads to a graph whose
nesting does not end. -/
theorem with_root_member_of_itself :
    ∃ graph, Graph.ofText? (withRoot none).render = some graph ∧
      AtTop graph.live .root ∧ MemberOf graph.live .root .root := by
  have accepted : Graph.ofText? (withRoot none).render = some (withRoot none).toGraph := by
    have low : (withRoot none).toJson.height ≤ Json.depthLimit := by cbv
    have grounded : (withRoot none).grounded = withRoot none := by cbv
    rw [Graph.ofText?, parse?_render, if_pos low, grounded]
    rfl
  have checked : ((withRoot none).toGraph.live.get? .root).any (fun entity =>
      isTop (withRoot none).toGraph.live entity && entity.members.contains .root) = true := by
    cbv
  simp only [Option.any_eq_true, Bool.and_eq_true, List.contains_iff_mem] at checked
  obtain ⟨entity, found, outermost, listed⟩ := checked
  exact ⟨_, accepted, ⟨entity, found, outermost⟩, Table.mem_keys_of_get? found, entity, found,
    listed⟩

end DocGraph.Snapshot
