import DocGraph.Proofs.Nesting
import DocGraph.Proofs.SnapshotText

/-!
# What grounding leaves unchanged

Grounding makes the heads of all written paths static and drops member lists. It changes nothing
exactly where all these heads are static to begin with. The snapshot of a graph with static heads is
its own grounded snapshot: no path changes, and so no two siblings fall together either. In the
other direction, every entity that comes out of a grounded snapshot has static heads, whatever the
snapshot was.

Texts of paths do not say how the first segment is bound, and texts of entities do not list members.
What is read back is therefore the grounded form, and this module says when it is the form that was
written.
-/

namespace DocGraph

/-- A list is left unchanged by a function exactly when each of its items is. It is used for
relations and for the paths that they lead to. -/
theorem map_eq_self_iff {α : Type} {f : α → α} {items : List α} :
    items.map f = items ↔ ∀ item ∈ items, f item = item := by
  induction items with
  | nil => simp
  | cons first rest inductionHypothesis => simp [inductionHypothesis]

namespace Entity

/-- The paths that are written for an entity: its own, its parent's, and those that its relations
lead to. References in comments are texts and not paths, and they are written as they are. -/
def writtenPaths (entity : Entity) : List NamePath :=
  entity.path :: entity.parent.toList ++
    entity.relations.flatMap fun relation => relation.resolved.toList

/-- An optional path is unchanged exactly when it has a static head or is missing. -/
theorem map_with_static_head_iff {path : Option NamePath} :
    path.map NamePath.withStaticHead = path ↔
      ∀ held ∈ path.toList, held.withStaticHead = held := by
  cases path <;> simp

/-- A relation is grounded exactly when the path that it leads to has a static head. -/
theorem grounded_relation_iff (relation : Relation) :
    relation.grounded = relation ↔
      ∀ path ∈ relation.resolved.toList, path.withStaticHead = path := by
  rw [← map_with_static_head_iff]
  cases relation
  simp [Relation.grounded]

/-- A record without a member list is grounded exactly when all its paths have static heads. In a
snapshot the member list of an entity is given by the tree it stands in. -/
theorem grounded_unlisted_iff (entity : Entity) :
    entity.unlisted.grounded = entity.unlisted ↔
      ∀ path ∈ entity.writtenPaths, path.withStaticHead = path := by
  have fields : entity.unlisted.grounded = entity.unlisted ↔
      entity.path.withStaticHead = entity.path ∧
        entity.parent.map NamePath.withStaticHead = entity.parent ∧
        entity.relations.map Relation.grounded = entity.relations := by
    cases entity
    simp [unlisted, grounded]
  rw [fields, map_with_static_head_iff, map_eq_self_iff]
  simp only [grounded_relation_iff, writtenPaths, List.cons_append, List.forall_mem_cons,
    List.forall_mem_append, List.forall_mem_flatMap]

/-- Grounding twice is grounding once. So a snapshot that was read once is read back as it is from
then on. -/
theorem grounded_grounded (entity : Entity) : entity.grounded.grounded = entity.grounded := by
  cases entity
  simp [grounded, Relation.grounded, Function.comp_def]

end Entity

namespace Snapshot

/-- Siblings with one tree per path are all among the given trees. Later trees of a path are
dropped, and nothing is made up. -/
theorem mem_of_mem_keyed {trees : List (Tree (NamePath × Entity))}
    {tree : Tree (NamePath × Entity)} (present : tree ∈ keyed trees) : tree ∈ trees := by
  obtain ⟨path, entry⟩ := Table.mem_values_iff.mp present
  obtain ⟨origin, listed, same⟩ := List.mem_map.mp (Table.mem_of_mem_entries_of_list entry)
  obtain rfl := (Prod.mk.inj same).2
  exact listed

/-- Keying siblings again changes nothing. After the first time the paths of the siblings differ. -/
theorem keyed_keyed (trees : List (Tree (NamePath × Entity))) :
    keyed (keyed trees) = keyed trees := by
  refine keyed_of_nodup ?_
  have named : (keyed trees).map (fun tree => tree.value.1) =
      (Table.ofList (trees.map fun tree => (tree.value.1, tree))).keys := by
    rw [keyed, Table.values, Table.keys, List.map_map]
    refine List.map_congr_left ?_
    intro entry present
    obtain ⟨origin, _, same⟩ := List.mem_map.mp (Table.mem_of_mem_entries_of_list present)
    exact same ▸ rfl
  rw [named]
  exact Table.keys_nodup _

/-- Grounding trees grounds each of them. -/
theorem ground_trees_eq_map (trees : List (Tree (NamePath × Entity))) :
    groundTrees trees = trees.map groundTree := by
  induction trees with
  | nil => rw [groundTrees, List.map_nil]
  | cons first rest inductionHypothesis =>
    rw [groundTrees, inductionHypothesis, List.map_cons]

/-- Keyed siblings that are grounded each are grounded together. It is the form in which the trees
of a graph meet the definition, which keys the siblings again after grounding them. -/
theorem keyed_ground_trees_keyed {trees : List (Tree (NamePath × Entity))}
    (each : ∀ tree ∈ trees, groundTree tree = tree) :
    keyed (groundTrees (keyed trees)) = keyed trees := by
  have same : groundTrees (keyed trees) = keyed trees := by
    rw [ground_trees_eq_map, map_eq_self_iff]
    exact fun tree present => each tree (mem_of_mem_keyed present)
  rw [same, keyed_keyed]

/-- The tree of an entity is grounded when all live entities have static heads. The induction is on
the depth; at each level the members are live entities again, and their paths keep them apart. -/
theorem ground_tree_nest {live : Table NamePath Entity}
    (heads : ∀ entity ∈ live.values, ∀ path ∈ entity.writtenPaths, path.withStaticHead = path)
    (depth : Nat) {entity : Entity} (present : entity ∈ live.values) :
    groundTree (nest live depth entity) = nest live depth entity := by
  induction depth generalizing entity with
  | zero =>
    have own := heads entity present entity.path List.mem_cons_self
    have record := (Entity.grounded_unlisted_iff entity).mpr (heads entity present)
    rw [Entity.unlisted] at record
    rw [nest, groundTree, own, record, groundTrees]
    rfl
  | succ depth inductionHypothesis =>
    have own := heads entity present entity.path List.mem_cons_self
    have record := (Entity.grounded_unlisted_iff entity).mpr (heads entity present)
    rw [Entity.unlisted] at record
    have members : ∀ tree ∈ (entity.members.filterMap live.get?).map (nest live depth),
        groundTree tree = tree := by
      intro tree listed
      obtain ⟨member, held, rfl⟩ := List.mem_map.mp listed
      obtain ⟨path, _, found⟩ := List.mem_filterMap.mp held
      exact inductionHypothesis (Table.mem_values_of_get? found)
    rw [nest, groundTree, own, record, keyed_ground_trees_keyed members]

/-- The snapshot of a graph is its own grounded snapshot when all written paths have static heads
and no superseded entity lists members.

Proof: the trees are nested from live entities, so they are grounded by the fact before; the
superseded entities list nothing, so only their paths matter. -/
theorem grounded_of_graph {graph : Graph}
    (heads : ∀ entity ∈ graph.live.values ++ graph.superseded,
      ∀ path ∈ entity.writtenPaths, path.withStaticHead = path)
    (unlisted : ∀ entity ∈ graph.superseded, entity.members = []) :
    (ofGraph graph).grounded = ofGraph graph := by
  have nested : keyed (groundTrees (ofGraph graph).entities) = (ofGraph graph).entities := by
    refine keyed_ground_trees_keyed ?_
    intro tree listed
    obtain ⟨entity, top, rfl⟩ := List.mem_map.mp listed
    have liveHeads : ∀ entity ∈ graph.live.values,
        ∀ path ∈ entity.writtenPaths, path.withStaticHead = path :=
      fun entity present => heads entity (List.mem_append_left _ present)
    exact ground_tree_nest liveHeads _ (List.mem_filter.mp top).1
  have lost : graph.superseded.map Entity.grounded = graph.superseded := by
    rw [map_eq_self_iff]
    intro entity present
    have record := (Entity.grounded_unlisted_iff entity).mpr
      (heads entity (List.mem_append_right _ present))
    have bare : entity.unlisted = entity := by
      rw [Entity.unlisted, ← unlisted entity present]
    rwa [bare] at record
  rw [grounded, nested]
  exact congrArg (fun superseded => { ofGraph graph with superseded := superseded }) lost

/-- In a grounded tree every path has a static head and every entity is grounded. Keying a level
drops trees but changes none. -/
theorem grounded_of_mem_preorder (tree : Tree (NamePath × Entity)) :
    ∀ entry ∈ (groundTree tree).preorder,
      entry.1.withStaticHead = entry.1 ∧ entry.2.grounded = entry.2 := by
  induction tree using Tree.induct with
  | step value children inductionHypothesis =>
    intro entry present
    rw [groundTree, Tree.preorder, List.mem_cons] at present
    rcases present with rfl | deeper
    · exact ⟨NamePath.with_static_head_with_static_head _, Entity.grounded_grounded _⟩
    · rw [Tree.forest_preorder_eq_flat_map, List.mem_flatMap] at deeper
      obtain ⟨child, listed, inside⟩ := deeper
      rw [ground_trees_eq_map] at listed
      obtain ⟨origin, held, rfl⟩ := List.mem_map.mp (mem_of_mem_keyed listed)
      exact inductionHypothesis origin held entry inside

/-- In the trees of a grounded snapshot every path has a static head and every entity is
grounded. -/
theorem grounded_of_mem_forest (snapshot : Snapshot) :
    ∀ entry ∈ Tree.forestPreorder snapshot.grounded.entities,
      entry.1.withStaticHead = entry.1 ∧ entry.2.grounded = entry.2 := by
  intro entry present
  rw [Tree.forest_preorder_eq_flat_map, List.mem_flatMap] at present
  obtain ⟨tree, held, inside⟩ := present
  rw [grounded, ground_trees_eq_map] at held
  obtain ⟨origin, _, rfl⟩ := List.mem_map.mp (mem_of_mem_keyed held)
  exact grounded_of_mem_preorder origin entry inside

/-- Every entity that comes out of a grounded snapshot is grounded. The table that a snapshot is
flattened to holds entities of its trees. -/
theorem grounded_of_mem_flatten (snapshot : Snapshot) :
    ∀ entry ∈ snapshot.grounded.flatten.entries, entry.2.grounded = entry.2 :=
  fun entry present =>
    (grounded_of_mem_forest snapshot entry (Table.mem_of_mem_entries_of_list present)).2

end Snapshot

end DocGraph
