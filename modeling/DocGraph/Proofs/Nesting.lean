import DocGraph.Proofs.Coherence
import DocGraph.Proofs.Lineage
import DocGraph.Snapshot.Basic

/-!
# Nesting the entities of a graph

The live entities of a graph that was made of standing entities know their members: the member list
of an entity is a rearrangement of the live paths whose parent is the entity. A snapshot follows
these lists downwards from the entities without a live container.

Every live entity is met exactly once on the way. The entities below one of them are its household,
and the nesting depth that a snapshot allows is never reached, because a household shrinks at every
level. The order in which the entities are met is left open.

The count goes through households: the tree of an entity lists the household of its path, and the
entities at the top have all live paths in their households together. Depth enters only as a bound
on the size of a household.
-/

namespace DocGraph

/-- The record of an entity without its member list. A snapshot expresses the member list by the
tree. -/
def Entity.unlisted (entity : Entity) : Entity := { entity with members := [] }

/-- An entry without the member list of its entity. -/
def unlist (entry : NamePath × Entity) : NamePath × Entity := (entry.1, entry.2.unlisted)

namespace Graph

/-- Live entities are nested when each stands where it is held and lists the live paths whose parent
it is. The order of a member list depends on the configuration and is left open. -/
structure Nested (live : Table NamePath Entity) : Prop where
  stands : ∀ {path entity}, live.get? path = some entity → entity.StandsAt path
  lists : ∀ {path entity}, live.get? path = some entity →
    entity.members.Perm (NamePath.heldChildren live.keys path)

/-- Ordering the members of a container keeps them. It is the only fact about the member order that
nesting needs. -/
theorem order_members_perm (order : MemberOrder) (members : List NamePath) :
    (orderMembers order members).Perm members := by
  cases order with
  | declaration => exact .refl _
  | alphabetical => exact List.mergeSort_perm _ _

/-- What is held under a container are the paths whose parent it is. The root is left out. Entities
without a parent are held under it as well, and it is recorded as a parent nowhere here. -/
theorem getd_get?_containers {live : Table NamePath Entity} {path : NamePath}
    (stands : ∀ {held entity}, live.get? held = some entity → entity.StandsAt held)
    (below : path ≠ .root) :
    ((containers live).get? path).getD [] = NamePath.heldChildren live.keys path := by
  rw [containers, Table.getd_get?_group, NamePath.heldChildren, Table.keys, List.filter_map,
    List.filter_map, List.map_map]
  have test : live.entries.filter ((fun item : NamePath × NamePath => decide (item.1 = path)) ∘
      fun entry => (entry.2.parent.getD .root, entry.1)) =
      live.entries.filter ((fun held : NamePath => decide (held.parent? = some path)) ∘
        Prod.fst) := by
    refine List.filter_congr ?_
    intro entry present
    have parented := (stands (Table.get?_eq_some_iff.mpr present)).parented
    simp only [Function.comp_apply, parented]
    cases entry.1.parent? with
    | none => simp [Ne.symm below]
    | some parent => simp
  rw [test]
  rfl

/-- The live entities of a graph are nested, whatever member order is configured. Sorting and
filling in member lists change neither paths nor parents. -/
theorem nested_of_entities {live : Table NamePath Entity}
    (stands : ∀ {path entity}, live.get? path = some entity → entity.StandsAt path)
    (superseded : List Entity) (info : ModuleInfo) (order : MemberOrder) :
    Nested (ofEntities live superseded info order).live := by
  have sortedStands : ∀ {path entity},
      (live.sortValues earlier).get? path = some entity → entity.StandsAt path := by
    intro path entity found
    have present :=
      (Table.entries_sort_values_perm _ _).mem_iff.mp (Table.get?_eq_some_iff.mp found)
    exact stands (Table.get?_eq_some_iff.mpr present)
  refine ⟨?_, ?_⟩
  · intro path entity found
    obtain ⟨before, held, rfl⟩ := Table.get?_map_values_eq_some_iff.mp found
    have standing := sortedStands held
    exact ⟨standing.recorded, standing.named, standing.parented⟩
  · intro path entity found
    obtain ⟨before, held, rfl⟩ := Table.get?_map_values_eq_some_iff.mp found
    have listed := getd_get?_containers sortedStands (sortedStands held).ne_root
    rw [ofEntities, Table.keys_map_values, ← listed]
    rw [Table.get?_map_values]
    cases (containers (live.sortValues earlier)).get? path with
    | none => exact .refl _
    | some members => exact order_members_perm order members

end Graph

namespace Snapshot

/-- What a snapshot writes for a live path: the path with its entity. It is partial, so that it can
be mapped over any list of paths; paths that are not live are dropped. -/
def written (live : Table NamePath Entity) (path : NamePath) : Option (NamePath × Entity) :=
  (live.get? path).map fun entity => (path, entity.unlisted)

/-- Siblings with different paths all keep their places. Live paths differ, so no tree is lost when
siblings are keyed. -/
theorem keyed_of_nodup {trees : List (Tree (NamePath × Entity))}
    (distinct : (trees.map fun tree => tree.value.1).Nodup) : keyed trees = trees := by
  have keys : ((trees.map fun tree => (tree.value.1, tree)).map Prod.fst).Nodup := by
    simpa [Function.comp_def] using distinct
  rw [keyed, Table.values, Table.entries_of_list keys]
  simp [Function.comp_def]

/-- An entity stands at the top of its own tree. -/
theorem value_nest (live : Table NamePath Entity) (depth : Nat) (entity : Entity) :
    (nest live depth entity).value = (entity.path, entity.unlisted) := by
  cases depth <;> rfl

/-- Looking up held paths finds entities that record just these paths. So looking up and recording
are inverse to each other, which coherence is for. -/
theorem map_path_filter_map_get? {live : Table NamePath Entity} (nested : Graph.Nested live)
    {paths : List NamePath} (held : ∀ path ∈ paths, path ∈ live.keys) :
    (paths.filterMap live.get?).map Entity.path = paths := by
  induction paths with
  | nil => rfl
  | cons first rest inductionHypothesis =>
    have remaining := inductionHypothesis fun path present =>
      held path (List.mem_cons_of_mem first present)
    cases found : live.get? first with
    | none =>
      exact absurd (held first List.mem_cons_self) (Table.get?_eq_none_iff.mp found)
    | some entity =>
      rw [List.filterMap_cons_some found, List.map_cons, remaining,
        (nested.stands found).recorded]

/-- Nesting several held paths that are all different lists what is nested below each of
them, path by path, if that is known for each path alone. -/
theorem forest_preorder_keyed_perm {live : Table NamePath Entity} (nested : Graph.Nested live)
    {depth : Nat} {paths : List NamePath} {below : NamePath → List (NamePath × Entity)}
    (held : ∀ path ∈ paths, path ∈ live.keys) (distinct : paths.Nodup)
    (each : ∀ path ∈ paths, ∀ entity, live.get? path = some entity →
      (nest live depth entity).preorder.Perm (below path)) :
    (Tree.forestPreorder (keyed ((paths.filterMap live.get?).map (nest live depth)))).Perm
      (paths.flatMap below) := by
  have names := map_path_filter_map_get? nested held
  have apart : (((paths.filterMap live.get?).map (nest live depth)).map
      fun tree => tree.value.1).Nodup := by
    rw [List.map_map]
    simpa only [Function.comp_def, value_nest, names] using distinct
  rw [keyed_of_nodup apart, Tree.forest_preorder_eq_flat_map, List.flatMap_map]
  calc (paths.filterMap live.get?).flatMap (fun entity => (nest live depth entity).preorder)
      |>.Perm ((paths.filterMap live.get?).flatMap fun entity => below entity.path) := by
        refine List.Perm.flatMap_left _ ?_
        intro entity listed
        obtain ⟨path, present, found⟩ := List.mem_filterMap.mp listed
        exact (nested.stands found).recorded ▸ each path present entity found
    _ = paths.flatMap below := by
        rw [← List.flatMap_map, names]

/-- The tree of an entity lists its household, each path once with its entity, provided that the
nesting depth covers the household.

Proof: induction on the depth. An entity is listed with the trees of its members, which are the held
children of its path, and each of these lists the household of the child. Together they are the
household of the path. With depth zero the household is the path alone, so there are no members to
list. -/
theorem preorder_nest_perm {live : Table NamePath Entity} (nested : Graph.Nested live) :
    ∀ {depth : Nat} {path : NamePath} {entity : Entity}, live.get? path = some entity →
      (NamePath.household live.keys path).length ≤ depth + 1 →
      (nest live depth entity).preorder.Perm
        ((NamePath.household live.keys path).filterMap (written live)) := by
  intro depth
  induction depth with
  | zero =>
    intro path entity found few
    obtain rfl := (nested.stands found).recorded
    have present := Table.mem_keys_of_get? found
    have whole : NamePath.household live.keys entity.path = [entity.path] := by
      have itself := NamePath.mem_household_self present
      have short : (NamePath.household live.keys entity.path).length = 1 := by
        have some := List.length_pos_of_mem itself
        omega
      obtain ⟨only, single⟩ := List.length_eq_one_iff.mp short
      rw [single, List.mem_singleton] at itself
      rw [single, itself]
    rw [whole]
    simp [nest, Tree.preorder, Tree.forestPreorder, written, found, Entity.unlisted]
  | succ depth inductionHypothesis =>
    intro path entity found few
    obtain rfl := (nested.stands found).recorded
    have present := Table.mem_keys_of_get? found
    have split := NamePath.household_perm live.keys_nodup present
    have listed := nested.lists found
    have held : ∀ child ∈ entity.members, child ∈ live.keys := fun child member =>
      (NamePath.mem_held_children.mp (listed.mem_iff.mp member)).1
    have distinct : entity.members.Nodup :=
      listed.nodup_iff.mpr (live.keys_nodup.filter _)
    have below := forest_preorder_keyed_perm nested held distinct
      fun child member entity foundChild => inductionHypothesis foundChild <| by
        have smaller := NamePath.length_household_child_lt live.keys_nodup present
          (listed.mem_iff.mp member)
        omega
    have head : written live entity.path = some (entity.path, entity.unlisted) := by
      simp [written, found]
    refine List.Perm.trans ?_ (split.filterMap _).symm
    rw [List.filterMap_cons_some head, List.filterMap_flatMap]
    exact .cons _ (below.trans (listed.flatMap_right _))

/-- The entities at the top of a snapshot are those at the outermost live paths. Both tests ask
whether the parent is live, one of the record and the other of the path. -/
theorem filter_is_top {live : Table NamePath Entity} (nested : Graph.Nested live) :
    live.values.filter (isTop live) =
      (live.keys.filter (NamePath.isOutermost live.keys)).filterMap live.get? := by
  have outermost : live.entries.filter (fun entry => isTop live entry.2) =
      live.entries.filter fun entry => NamePath.isOutermost live.keys entry.1 := by
    refine List.filter_congr ?_
    intro entry present
    have parented := (nested.stands (Table.get?_eq_some_iff.mpr present)).parented
    rw [isTop, NamePath.isOutermost, parented]
    cases entry.1.parent? <;> rfl
  have found := live.filter_map_get? (fun _ entity => entity)
    (live.entries.filter fun entry => NamePath.isOutermost live.keys entry.1)
    fun entry listed => (List.mem_filter.mp listed).1
  simp only [Option.map_id'] at found
  rw [Table.values, List.filter_map, Table.keys, List.filter_map]
  exact (congrArg _ outermost).trans found.symm

/-- A snapshot holds every live entity of its graph exactly once, under its path and without its
member list.

Proof: the trees at the top list the households of the outermost paths, and these households
together are all live paths. No household has more paths than the table, which is the depth that a
snapshot allows. -/
theorem forest_preorder_of_graph_perm {graph : Graph} (nested : Graph.Nested graph.live) :
    (Tree.forestPreorder (ofGraph graph).entities).Perm (graph.live.entries.map unlist) := by
  have distinct := graph.live.keys_nodup
  have each : ∀ path ∈ graph.live.keys.filter (NamePath.isOutermost graph.live.keys),
      ∀ entity, graph.live.get? path = some entity →
      (nest graph.live graph.live.size entity).preorder.Perm
        ((NamePath.household graph.live.keys path).filterMap (written graph.live)) := by
    intro path _ entity found
    refine preorder_nest_perm nested found ?_
    have few : (NamePath.household graph.live.keys path).length ≤ graph.live.keys.length :=
      List.length_filter_le _ _
    rw [Table.length_keys] at few
    omega
  have below := forest_preorder_keyed_perm nested
    (fun path top => (List.mem_filter.mp top).1) (distinct.filter _) each
  have all := ((NamePath.held_perm distinct).filterMap (written graph.live)).symm
  rw [List.filterMap_flatMap] at all
  rw [ofGraph, filter_is_top nested]
  refine below.trans (all.trans (List.Perm.of_eq ?_))
  exact graph.live.filter_map_get? (fun path entity => (path, entity.unlisted)) _
    fun entry present => present

end Snapshot

end DocGraph
