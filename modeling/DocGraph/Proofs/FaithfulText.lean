import DocGraph.Proofs.PathOrder
import DocGraph.Proofs.TextHeight

/-!
# Snapshots that come back from their texts

Any snapshot can be written, not only those that are taken of a graph: its paths may have any first
binding, its entities may list members, and the paths under which the entities stand need not be
those that they record. Only one thing is fixed by its shape: no path stands twice among siblings.

Such a snapshot comes back from its text exactly when its paths are the root or start with a static
segment, when its entities list no members, and when the text opens no more brackets at once than a
reader allows. All other content comes back as it was, whatever its strings hold. Entities that nest
at most sixty-one levels deep always fit, and from sixty-three levels on the text is refused,
whatever else the snapshot holds.

That a text is read as the grounded form of the snapshot that was written is known from elsewhere.
So what remains is to say which snapshots are their own grounded form, field by field and tree by
tree; the depth of the text is a question of its own.
-/

namespace DocGraph

/-- The first segment of a path, if there is one, is static. The root has no first segment and
passes. -/
def NamePath.HasStaticHead (path : NamePath) : Prop :=
  ∀ segment ∈ path.segments.head?, segment.binding = .static

/-- A path is unchanged by a static head exactly when it has one or is the root. It turns an
equation that reading gives into a condition on what was written. -/
@[simp]
theorem NamePath.with_static_head_eq_self_iff {path : NamePath} :
    path.withStaticHead = path ↔ path.HasStaticHead := by
  obtain ⟨segments⟩ := path
  cases segments with
  | nil => simp [withStaticHead, HasStaticHead]
  | cons first rest =>
    cases first
    simp [withStaticHead, HasStaticHead, eq_comm]

namespace Snapshot

/-- No path stands twice among siblings, at any level. Written as an object with the paths as its
names, a tree whose siblings share a path would lose one of them. The same path may stand at
different levels. -/
inductive Keyed : List (Tree (NamePath × Entity)) → Prop where
  | siblings {trees : List (Tree (NamePath × Entity))}
      (distinct : (trees.map fun tree => tree.value.1).Nodup)
      (below : ∀ tree ∈ trees, Keyed tree.children) : Keyed trees

/-- All entities of a snapshot, nested and superseded. Superseded entities are written flat, behind
the trees. -/
def recorded (snapshot : Snapshot) : List Entity :=
  (Tree.forestPreorder snapshot.entities).map Prod.snd ++ snapshot.superseded

/-- All paths of a snapshot: those under which entities stand and those that are written for an
entity. The path under which an entity stands is written besides the one that it records, and both
have to come back. -/
def paths (snapshot : Snapshot) : List NamePath :=
  (Tree.forestPreorder snapshot.entities).map Prod.fst ++
    snapshot.recorded.flatMap Entity.writtenPaths

/-- An entity is its own grounded form exactly when its paths have static heads and it lists no
members. Grounding does nothing else to an entity: it makes the heads of its paths static and
forgets its members. -/
theorem grounded_eq_self_iff {entity : Entity} :
    entity.grounded = entity ↔
      (∀ path ∈ entity.writtenPaths, path.HasStaticHead) ∧ entity.members = [] := by
  simp only [← NamePath.with_static_head_eq_self_iff]
  rw [← Entity.grounded_unlisted_iff]
  constructor
  · intro fixed
    have bare : entity.members = [] := by
      rw [← fixed]
      rfl
    refine ⟨?_, bare⟩
    rw [Entity.unlisted, ← bare]
    exact fixed
  · rintro ⟨fixed, bare⟩
    rwa [Entity.unlisted, ← bare] at fixed

/-- Trees with different paths among siblings are grounded when all their paths have static heads
and all their entities are grounded.

Proof: induction on the levels. The trees of a level are grounded one by one, and since their paths
differ, none of them is dropped as a repetition. -/
theorem Keyed.keyed_ground_trees {trees : List (Tree (NamePath × Entity))}
    (keyedTrees : Keyed trees)
    (fixed : ∀ entry ∈ Tree.forestPreorder trees,
      entry.1.withStaticHead = entry.1 ∧ entry.2.grounded = entry.2) :
    keyed (groundTrees trees) = trees := by
  induction keyedTrees with
  | @siblings trees distinct _ inductionHypothesis =>
    rw [Tree.forest_preorder_eq_flat_map, List.forall_mem_flatMap] at fixed
    have same : groundTrees trees = trees := by
      rw [ground_trees_eq_map, map_eq_self_iff]
      intro tree listed
      have inside := fixed tree listed
      have members := inductionHypothesis tree listed
      obtain ⟨⟨path, entity⟩, children⟩ := tree
      rw [Tree.preorder, List.forall_mem_cons] at inside
      rw [Tree.children] at members
      rw [groundTree, inside.1.1, inside.1.2, members inside.2]
    rw [same, keyed_of_nodup distinct]

/-- What is asked of the paths and of the entities of a snapshot is asked of each entry of its trees
and of each superseded entity. It only sorts the same conditions by entry instead of by
condition. -/
theorem heads_and_members_iff {snapshot : Snapshot} :
    ((∀ path ∈ snapshot.paths, path.HasStaticHead) ∧
        ∀ entity ∈ snapshot.recorded, entity.members = []) ↔
      (∀ entry ∈ Tree.forestPreorder snapshot.entities,
        entry.1.withStaticHead = entry.1 ∧ entry.2.grounded = entry.2) ∧
        ∀ entity ∈ snapshot.superseded, entity.grounded = entity := by
  simp only [paths, recorded, List.forall_mem_append, List.forall_mem_map,
    List.forall_mem_flatMap, grounded_eq_self_iff, NamePath.with_static_head_eq_self_iff, imp_and,
    forall_and]
  tauto

/-- A snapshot is its own grounded form exactly when its paths have static heads and its entities
list no members. From left to right no premise on the siblings is needed; from right to left it
keeps trees from being dropped. -/
theorem grounded_eq_iff {snapshot : Snapshot} (keyedTrees : Keyed snapshot.entities) :
    snapshot.grounded = snapshot ↔
      (∀ path ∈ snapshot.paths, path.HasStaticHead) ∧
        ∀ entity ∈ snapshot.recorded, entity.members = [] := by
  rw [heads_and_members_iff]
  constructor
  · intro fixed
    have trees := grounded_of_mem_forest snapshot
    rw [fixed] at trees
    exact ⟨trees, map_eq_self_iff.mp (congrArg superseded fixed)⟩
  · rintro ⟨trees, lost⟩
    rw [grounded, keyedTrees.keyed_ground_trees trees, map_eq_self_iff.mpr lost]

/-- A snapshot comes back from its text exactly when its paths are the root or start with a static
segment, its entities list no members, and the text opens no more brackets at once than a reader
allows. A text that opens more is refused. Up to sixty-one levels of entities always fit, and
sixty-three never do.

Proof: the text is read as the grounded snapshot if it is low enough, and refused otherwise. So it
comes back as it was exactly when it is low enough and its own grounded form. Each level of entities
opens at least two brackets, and what an entity holds by itself opens no more than a fixed number,
which gives the two bounds on the levels. The height at sixty-two levels depends on what the
innermost entities hold. -/
theorem parse?_render_eq_self_iff {snapshot : Snapshot} (keyedTrees : Keyed snapshot.entities) :
    (parse? snapshot.render = some snapshot ↔
      ((∀ path ∈ snapshot.paths, path.HasStaticHead) ∧
        ∀ entity ∈ snapshot.recorded, entity.members = []) ∧
      snapshot.toJson.height ≤ Json.depthLimit) ∧
    (¬snapshot.toJson.height ≤ Json.depthLimit → parse? snapshot.render = none) ∧
    (Tree.forestLevels snapshot.entities ≤ 61 → snapshot.toJson.height ≤ Json.depthLimit) ∧
    (63 ≤ Tree.forestLevels snapshot.entities → ¬snapshot.toJson.height ≤ Json.depthLimit) := by
  rw [parse?_render]
  refine ⟨?_, fun high => if_neg high, height_le_of_levels, not_height_le_of_levels⟩
  split
  · next low => rw [Option.some.injEq, grounded_eq_iff keyedTrees, and_iff_left low]
  · next high => simp [high]

/-- A snapshot with a private method, a superseded entity of the same path, and an entity at
the root. Its strings hold quotes, backslashes, control characters and characters beyond the
basic plane, one tag has no canonical kind, and the numbers are the greatest there are. -/
def assorted : Snapshot :=
  let method : NamePath := ⟨[⟨.static, "A"⟩, ⟨.onInstance, "x \"y\" \\ \u0000"⟩]⟩
  { info := { name := "global", version := some "", authors := ["\u0001\n\t", "😀"] }
    memberOrder := .alphabetical
    entities :=
      [.node (.root, { kind := .namespaceEntity, name := "" }) [],
       .node (.ofNames ["A"],
         { kind := .classEntity, name := "A", path := .ofNames ["A"],
           order := ⟨4294967295, 4294967295⟩,
           tags := [{ kind := .other "\u007f\u2028", param := some { name := "p" } }],
           relations := [⟨.extending, "B", some (.ofNames ["B"])⟩, ⟨.lending, "C", none⟩] })
         [.node (method,
           { kind := .function, name := "x", path := method, parent := some (.ofNames ["A"]),
             visibility := .privateAccess, accessor := some { getter := true } }) []]]
    superseded :=
      [{ kind := .variableEntity, name := "x", path := method, deprecated := some "" }] }

/-- The assorted snapshot comes back from its text. Each premise of the equivalence is evaluated,
and what is left is its right to left direction. -/
theorem assorted_read_back :
    Keyed assorted.entities ∧ (∀ path ∈ assorted.paths, path.HasStaticHead) ∧
      (∀ entity ∈ assorted.recorded, entity.members = []) ∧
      parse? assorted.render = some assorted := by
  have empty : Keyed [] := .siblings List.nodup_nil (by simp)
  have keyedTrees : Keyed assorted.entities := by
    refine .siblings (by decide) fun tree listed => ?_
    simp only [assorted, List.mem_cons, List.not_mem_nil, or_false] at listed
    rcases listed with rfl | rfl
    · exact empty
    · refine .siblings (by decide) fun member inside => ?_
      simp only [Tree.children, List.mem_singleton] at inside
      exact inside ▸ empty
  have heads : ∀ path ∈ assorted.paths, path.HasStaticHead := by
    unfold NamePath.HasStaticHead
    decide
  have unlisted : ∀ entity ∈ assorted.recorded, entity.members = [] := by decide
  obtain ⟨same, _, fits, _⟩ := parse?_render_eq_self_iff keyedTrees
  exact ⟨keyedTrees, heads, unlisted, same.mpr ⟨⟨heads, unlisted⟩, fits (by decide)⟩⟩

/-- Entities of one name that stand one below the other, so many levels deep. All entities have the
same name, and the paths differ by their lengths. -/
def stacked : Nat → NamePath → List (Tree (NamePath × Entity))
  | 0, _ => []
  | levels + 1, above =>
    let path := above.child .static "n"
    [.node (path, { kind := .namespaceEntity, name := "n", path := path, parent := path.parent? })
      (stacked levels path)]

/-- A snapshot of entities that stand one below the other. -/
def tower (levels : Nat) : Snapshot :=
  { info := {}, memberOrder := .declaration, entities := stacked levels .root, superseded := [] }

/-- A stack has as many levels as are asked for. -/
theorem forest_levels_stacked (levels : Nat) (above : NamePath) :
    Tree.forestLevels (stacked levels above) = levels := by
  induction levels generalizing above with
  | zero => rfl
  | succ levels inductionHypothesis =>
    simp [stacked, Tree.forestLevels, Tree.levels, inductionHypothesis]

/-- The paths of a stack differ among siblings. -/
theorem keyed_stacked (levels : Nat) (above : NamePath) : Keyed (stacked levels above) := by
  induction levels generalizing above with
  | zero => exact .siblings List.nodup_nil (by simp [stacked])
  | succ levels inductionHypothesis =>
    refine .siblings (by simp [stacked]) fun tree listed => ?_
    rw [stacked, List.mem_singleton] at listed
    exact listed ▸ inductionHypothesis _

/-- A static member of a path with a static head has a static head. -/
theorem has_static_head_child {above : NamePath} (head : above.HasStaticHead) (name : String) :
    (above.child .static name).HasStaticHead := by
  obtain ⟨segments⟩ := above
  cases segments with
  | nil => simp [NamePath.HasStaticHead, NamePath.child]
  | cons first rest => simpa [NamePath.HasStaticHead, NamePath.child] using head

/-- The entities of a stack have static heads and list no members. -/
theorem heads_of_stacked {levels : Nat} {above : NamePath} (head : above.HasStaticHead) :
    ∀ entry ∈ Tree.forestPreorder (stacked levels above),
      entry.1.withStaticHead = entry.1 ∧ entry.2.grounded = entry.2 := by
  induction levels generalizing above with
  | zero => simp [stacked, Tree.forestPreorder]
  | succ levels inductionHypothesis =>
    have own := has_static_head_child head "n"
    have parented : ∀ parent ∈ (above.child .static "n").parent?, parent.HasStaticHead := by
      intro parent held
      cases inside : above.isRoot with
      | false =>
        rw [NamePath.parent?_child inside, Option.mem_some_iff] at held
        exact held ▸ head
      | true =>
        obtain rfl : above = .root := NamePath.eq_of_segments (List.isEmpty_iff.mp inside)
        rw [NamePath.parent?_child_root] at held
        cases held
    rw [stacked, Tree.forestPreorder, Tree.forestPreorder, List.append_nil, Tree.preorder,
      List.forall_mem_cons]
    refine ⟨⟨NamePath.with_static_head_eq_self_iff.mpr own, grounded_eq_self_iff.mpr ⟨?_, rfl⟩⟩,
      inductionHypothesis own⟩
    simpa [Entity.writtenPaths, own] using parented

/-- A tower of sixty-three levels has nothing that is lost in writing, and yet its text is refused.
Its height is not computed; the number of its levels is enough. -/
theorem tower_refused :
    Keyed (tower 63).entities ∧ (∀ path ∈ (tower 63).paths, path.HasStaticHead) ∧
      (∀ entity ∈ (tower 63).recorded, entity.members = []) ∧
      parse? (tower 63).render = none := by
  have high : ¬(tower 63).toJson.height ≤ Json.depthLimit :=
    not_height_le_of_levels (Nat.le_of_eq (forest_levels_stacked 63 .root).symm)
  have whole : (∀ path ∈ (tower 63).paths, path.HasStaticHead) ∧
      ∀ entity ∈ (tower 63).recorded, entity.members = [] :=
    heads_and_members_iff.mpr
      ⟨heads_of_stacked (by simp [NamePath.HasStaticHead, NamePath.root]), by simp [tower]⟩
  exact ⟨keyed_stacked 63 .root, whole.1, whole.2, by rw [parse?_render, if_neg high]⟩

end Snapshot

end DocGraph
