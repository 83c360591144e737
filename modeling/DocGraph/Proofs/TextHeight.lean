import DocGraph.Proofs.Grounding

/-!
# How high the text of a snapshot is

A reader allows only so many open brackets. An entity that lists members opens two of them, one for
its fields and one for its members, so how high a text is depends on how many levels of entities
nest in each other, and up to three brackets on what the last of them holds.

Sixty-one levels always fit into the limit, and sixty-three never do. At sixty-two it depends on the
entities. The snapshot of a graph has at most one level for each live entity and one more.

Both bounds are by induction on the trees, one step for each level, and they meet up to the three
brackets. How deep a graph nests is bounded by its size, since nesting takes one entity for each
level.
-/

namespace DocGraph

namespace Tree

variable {α : Type}

mutual

/-- How many levels a tree has. An entity without members has one level. -/
def levels : Tree α → Nat
  | node _ children => forestLevels children + 1

/-- How many levels the highest tree of a forest has. -/
def forestLevels : List (Tree α) → Nat
  | [] => 0
  | first :: rest => max (levels first) (forestLevels rest)

end

/-- A forest has no more levels than its trees. -/
theorem forest_levels_le {trees : List (Tree α)} {bound : Nat}
    (low : ∀ tree ∈ trees, tree.levels ≤ bound) : forestLevels trees ≤ bound := by
  induction trees with
  | nil => exact Nat.zero_le bound
  | cons first rest inductionHypothesis =>
    rw [List.forall_mem_cons] at low
    rw [forestLevels]
    exact Nat.max_le.mpr ⟨low.1, inductionHypothesis low.2⟩

end Tree

/-- No value of a field is higher than the fields. It gives lower bounds: whatever an entity holds
has to be opened. -/
theorem Json.height_le_fields_height {fields : List (String × Json)} {field : String × Json}
    (present : field ∈ fields) : field.2.height ≤ fieldsHeight fields := by
  induction present with
  | head => exact Nat.le_max_left ..
  | tail _ _ inductionHypothesis => exact inductionHypothesis.trans (Nat.le_max_right ..)

/-- The fields of an entity are not all flat: its location is an object. So an entity without
members opens two brackets, too. -/
theorem Entity.fields_height_to_fields_pos (entity : Entity) :
    0 < Json.fieldsHeight entity.toFields := by
  have located : ("location", entity.location.toJson) ∈ entity.toFields :=
    List.mem_of_getElem? (i := 4) rfl
  have low : entity.location.toJson.height ≤ Json.fieldsHeight entity.toFields :=
    Json.height_le_fields_height located
  rw [Location.toJson, Json.height] at low
  omega

namespace Snapshot

mutual

/-- Each level of a tree opens two brackets, its last one perhaps three more. The three are for the
parameters of a signature, which are objects in a list of their own. -/
theorem height_tree_json_le : ∀ tree : Tree (NamePath × Entity),
    (treeJson tree).height ≤ 2 * tree.levels + 3
  | .node (_, entity) members => by
    have own := entity.fields_height_to_fields
    have inside : Json.fieldsHeight (membersField members) ≤
        2 * Tree.forestLevels members + 4 := by
      cases members with
      | nil =>
        rw [membersField]
        exact Nat.zero_le _
      | cons first rest =>
        have below := fields_height_forest_fields_le (first :: rest)
        rw [membersField, Json.fieldsHeight, Json.fieldsHeight, Json.height]
        omega
    rw [treeJson, Json.height, Json.fields_height_append, Tree.levels]
    omega

/-- Each level of a forest opens two brackets, its last one perhaps three more. -/
theorem fields_height_forest_fields_le : ∀ trees : List (Tree (NamePath × Entity)),
    Json.fieldsHeight (forestFields trees) ≤ 2 * Tree.forestLevels trees + 3
  | [] => by
    rw [forestFields]
    exact Nat.zero_le _
  | .node (path, entity) members :: rest => by
    have first := height_tree_json_le (.node (path, entity) members)
    have later := fields_height_forest_fields_le rest
    rw [forestFields, Json.fieldsHeight, Tree.forestLevels]
    omega

end

mutual

/-- A tree opens at least two brackets for each of its levels. Members open a bracket of their own,
between those of two levels. -/
theorem le_height_tree_json : ∀ tree : Tree (NamePath × Entity),
    2 * tree.levels ≤ (treeJson tree).height
  | .node (_, entity) members => by
    have own := entity.fields_height_to_fields_pos
    have inside : 2 * Tree.forestLevels members + 1 ≤
        max (Json.fieldsHeight entity.toFields) (Json.fieldsHeight (membersField members)) := by
      cases members with
      | nil => exact le_max_of_le_left own
      | cons first rest =>
        have below := le_fields_height_forest_fields (first :: rest)
        rw [membersField, Json.fieldsHeight, Json.height]
        omega
    rw [treeJson, Json.height, Json.fields_height_append, Tree.levels]
    omega

/-- A forest opens at least two brackets for each of its levels. -/
theorem le_fields_height_forest_fields : ∀ trees : List (Tree (NamePath × Entity)),
    2 * Tree.forestLevels trees ≤ Json.fieldsHeight (forestFields trees)
  | [] => by
    rw [Tree.forestLevels]
    exact Nat.zero_le _
  | .node (path, entity) members :: rest => by
    have first := le_height_tree_json (.node (path, entity) members)
    have later := le_fields_height_forest_fields rest
    rw [forestFields, Json.fieldsHeight, Tree.forestLevels]
    omega

end

variable {snapshot : Snapshot}

/-- Entities that nest at most sixty-one levels deep are never too high. It is sixty-one because the
limit is on all open brackets, and the snapshot and its entities open two themselves. -/
theorem height_le_of_levels (few : Tree.forestLevels snapshot.entities ≤ 61) :
    snapshot.toJson.height ≤ Json.depthLimit := by
  have low := fields_height_forest_fields_le snapshot.entities
  rw [height_to_json_le_iff, Json.height, Json.depthLimit]
  omega

/-- Entities that nest at least sixty-three levels deep are always too high. What the entities hold
plays no part in this. -/
theorem not_height_le_of_levels (many : 63 ≤ Tree.forestLevels snapshot.entities) :
    ¬snapshot.toJson.height ≤ Json.depthLimit := by
  have high := le_fields_height_forest_fields snapshot.entities
  rw [height_to_json_le_iff, Json.height, Json.depthLimit]
  omega

/-- Nesting to some depth gives no more levels than that below an entity. The depth is the size of
the graph where snapshots are made. -/
theorem levels_nest_le (live : Table NamePath Entity) (depth : Nat) (entity : Entity) :
    (nest live depth entity).levels ≤ depth + 1 := by
  induction depth generalizing entity with
  | zero => exact Nat.le_refl 1
  | succ depth inductionHypothesis =>
    have below : Tree.forestLevels
        (keyed ((entity.members.filterMap live.get?).map (nest live depth))) ≤ depth + 1 := by
      refine Tree.forest_levels_le fun tree listed => ?_
      obtain ⟨member, _, rfl⟩ := List.mem_map.mp (mem_of_mem_keyed listed)
      exact inductionHypothesis member
    rw [nest, Tree.levels]
    exact Nat.succ_le_succ below

/-- A graph with at most sixty live entities is never too high. So only graphs of some size can be
refused at all. -/
theorem height_of_graph_le {graph : Graph} (few : graph.live.size ≤ 60) :
    (ofGraph graph).toJson.height ≤ Json.depthLimit := by
  refine height_le_of_levels (Tree.forest_levels_le fun tree listed => ?_)
  obtain ⟨entity, _, rfl⟩ := List.mem_map.mp (mem_of_mem_keyed listed)
  exact (levels_nest_le graph.live graph.live.size entity).trans (Nat.succ_le_succ few)

end Snapshot

end DocGraph
