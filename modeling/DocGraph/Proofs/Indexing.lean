import DocGraph.Proofs.Lineage
import DocGraph.Proofs.Rebuilding

/-!
# The indexes of a graph

A graph files its live paths twice, under their containers and under their kinds. Each of the two
indexes lists every live path once, under its own key, and each member list is what is filed under
the path of the entity.

The lists come in source order, except that the members of a container may be asked for in
alphabetical order. Names can be alike there, with or without regard to case, but paths cannot, so a
container has only one alphabetical list of its members: nothing else about the entities matters to
it, not even their places in the source. The choice between the two orders does not show anywhere
else in a graph.

Nothing is asked of the entities: their records need not agree with the paths under which they are
held, and several may stand at one place of the source order.

An index is made by collecting paths under keys, and then its lists may be rearranged and the
entities be given their member lists. Each of these is shown to leave every path filed where it was,
so both indexes are instances of one argument.
-/

namespace DocGraph

/-! ## The order of paths -/

/-- Comparing bindings is transitive. -/
instance : Std.TransOrd Binding where
  eq_swap {left right} := by cases left <;> cases right <;> rfl
  isLE_trans {first second third} := by cases first <;> cases second <;> cases third <;> decide

/-- Bindings that compare as equal are equal. -/
instance : Std.LawfulEqOrd Binding where
  eq_of_compare {left right} := by cases left <;> cases right <;> decide
  compare_self {binding} := by cases binding <;> rfl

/-- Comparing segments is transitive. -/
instance : Std.TransOrd Segment :=
  inferInstanceAs (Std.TransCmp (compareLex (compareOn Segment.binding) (compareOn Segment.name)))

/-- Segments that compare as equal are equal. -/
instance : Std.LawfulEqOrd Segment where
  eq_of_compare {left right} equal := by
    obtain ⟨bindings, names⟩ := Ordering.then_eq_eq.mp equal
    cases left
    cases right
    simp only [Std.compare_eq_iff_eq] at bindings names
    rw [bindings, names]
  compare_self {segment} := Ordering.then_eq_eq.mpr
    ⟨Std.ReflOrd.compare_self, Std.ReflOrd.compare_self⟩

/-- Comparing paths is transitive. -/
instance : Std.TransOrd NamePath :=
  inferInstanceAs (Std.TransCmp (compareOn NamePath.segments))

/-- Paths that compare as equal are equal. -/
instance : Std.LawfulEqOrd NamePath where
  eq_of_compare {left right} equal := by
    have same : compareOn NamePath.segments left right = .eq := equal
    cases left
    cases right
    exact congrArg NamePath.mk (Std.LawfulEqOrd.eq_of_compare same)
  compare_self {path} := (Std.ReflOrd.compare_self : compare path.segments path.segments = .eq)

namespace NamePath

/-- A path comes before another one in alphabetical order: its name does without regard to case, or
else its name does, or else, when the two names are the same, the path does. The last case only
decides between paths that end in one name, such as a static and an instance member. -/
def NamedBefore (left right : NamePath) : Prop :=
  Text.lowercase left.lastName < Text.lowercase right.lastName ∨
    Text.lowercase left.lastName = Text.lowercase right.lastName ∧
      (left.lastName < right.lastName ∨
        left.lastName = right.lastName ∧ Ord.compare left right = .lt)

/-- Comparing two paths by lower-case name, then by name, then as paths. It is the comparison that
members are sorted by. -/
def compareNamed : NamePath → NamePath → Ordering :=
  compareLex (compareLex (compareOn fun path => Text.lowercase path.lastName)
    (compareOn NamePath.lastName)) Ord.compare

/-- Comparing by names is transitive. -/
instance : Std.TransCmp compareNamed :=
  inferInstanceAs (Std.TransCmp (compareLex _ _))

variable {left right : NamePath}

/-- The alphabetical test is the comparison by names. -/
theorem alphabetical_iff : Graph.alphabetical left right = true ↔
    (compareNamed left right).isLE = true :=
  Iff.rfl

/-- Only a path itself compares as equal to it. It makes the alphabetical arrangement unique,
although names may be alike. -/
theorem eq_of_compare_named (equal : compareNamed left right = .eq) : left = right :=
  Std.LawfulEqOrd.eq_of_compare (Ordering.then_eq_eq.mp equal).2

/-- A path that comes no later than a different one comes before it. -/
theorem named_before_of_alphabetical (upTo : Graph.alphabetical left right = true)
    (differ : left ≠ right) : left.NamedBefore right := by
  rw [alphabetical_iff, compareNamed, compareLex, compareLex, Ordering.then_assoc,
    Ordering.isLE_then_iff_or, Ordering.isLE_then_iff_or] at upTo
  simp only [compareOn, compare_lt_iff_lt, Std.compare_eq_iff_eq] at upTo
  refine upTo.imp_right (And.imp_right (Or.imp_right (And.imp_right fun below => ?_)))
  cases compared : Ord.compare left right with
  | lt => rfl
  | eq => exact absurd (Std.LawfulEqOrd.eq_of_compare compared) differ
  | gt => simp [compared] at below

end NamePath

namespace Graph

/-- Of two different paths only one comes before the other. Antisymmetry is what two sorted
arrangements of the same paths need in order to be equal. -/
theorem alphabetical_antisymm {left right : NamePath} (forth : alphabetical left right = true)
    (back : alphabetical right left = true) : left = right :=
  NamePath.eq_of_compare_named (Std.OrientedCmp.isLE_antisymm forth back)

/-- Members in alphabetical order are sorted. -/
theorem pairwise_order_members (members : List NamePath) :
    (orderMembers .alphabetical members).Pairwise fun left right =>
      alphabetical left right = true :=
  pairwise_merge_sort_is_le NamePath.compareNamed members

/-- Alphabetical order does not depend on the arrangement of the members. -/
theorem order_members_eq_of_perm {left right : List NamePath} (same : left.Perm right) :
    orderMembers .alphabetical left = orderMembers .alphabetical right :=
  List.Perm.eq_of_pairwise (fun _ _ _ _ => alphabetical_antisymm) (pairwise_order_members left)
    (pairwise_order_members right)
    ((order_members_perm _ left).trans (same.trans (order_members_perm _ right).symm))

/-! ## What is filed where -/

section Files

variable {κ : Type} [DecidableEq κ] {key : Entity → κ} {live : Table NamePath Entity}
  {index : Table κ (List NamePath)}

/-- The path of the container of an entity, the root if it has no parent. -/
def container (entity : Entity) : NamePath := entity.parent.getD .root

/-- An index files the live paths under keys of their entities: it lists every live path once and
nothing else, and lists it under its own key. That a path is listed once and under its own key
leaves no other key for it. -/
structure Files (index : Table κ (List NamePath)) (live : Table NamePath Entity)
    (key : Entity → κ) : Prop where
  once : index.values.flatten.Perm live.keys
  own : ∀ path entity, live.get? path = some entity →
    ∃ filed, index.get? (key entity) = some filed ∧ path ∈ filed

/-- The paths of a table collected under keys of their entities. The lists keep the order of the
table. -/
def filed (live : Table NamePath Entity) (key : Entity → κ) : Table κ (List NamePath) :=
  .group (live.entries.map fun entry => (key entry.2, entry.1))

/-- What is collected under a key are the paths of the entities that have it, in order. All that is
said of an index is read off this equation. -/
theorem getd_get?_filed (live : Table NamePath Entity) (key : Entity → κ) (asked : κ) :
    ((filed live key).get? asked).getD [] =
      (live.entries.filter fun entry => key entry.2 = asked).map Prod.fst := by
  rw [filed, Table.getd_get?_group, List.filter_map, List.map_map]
  rfl

/-- No path is collected twice under a key. -/
theorem nodup_filed (live : Table NamePath Entity) (key : Entity → κ) (asked : κ) :
    (((filed live key).get? asked).getD []).Nodup := by
  rw [getd_get?_filed]
  exact live.distinct.sublist (List.filter_sublist.map Prod.fst)

/-- The values of a table are what is held under its keys. Put together they are the live paths in
another arrangement, which is what filing asks for. -/
theorem values_eq_map_getd (index : Table κ (List NamePath)) :
    index.values = index.keys.map fun asked => (index.get? asked).getD [] := by
  rw [Table.keys, List.map_map]
  refine List.map_congr_left fun entry present => ?_
  simp [Table.get?_eq_some_iff.mpr present]

/-- Collected paths are filed.

Proof: each list is a filter of the entries by its key, and the filters by all keys together make up
the table again. -/
theorem files_filed (live : Table NamePath Entity) (key : Entity → κ) :
    Files (filed live key) live key := by
  have own (path : NamePath) (entity : Entity) (found : live.get? path = some entity) :
      ∃ paths, (filed live key).get? (key entity) = some paths ∧ path ∈ paths :=
    Table.exists_mem_group_iff.mpr
      (List.mem_map.mpr ⟨(path, entity), Table.get?_eq_some_iff.mp found, rfl⟩)
  refine ⟨?_, own⟩
  have related : live.entries.Perm ((filed live key).keys.flatMap fun asked =>
      live.entries.filter fun entry => key entry.2 = asked) := by
    refine perm_flat_map_filter live.distinct.of_map (Table.keys_nodup _) fun entry present => ?_
    obtain ⟨paths, found, _⟩ := own entry.1 entry.2 (Table.get?_eq_some_iff.mpr present)
    refine ⟨key entry.2, Table.mem_keys_of_get? found, by simp, fun other _ same => ?_⟩
    exact (of_decide_eq_true same).symm
  have listed := (related.map Prod.fst).symm
  rw [List.map_flatMap] at listed
  rw [values_eq_map_getd, ← List.flatMap_def]
  simpa only [getd_get?_filed, Table.keys] using listed

/-- Rearranging the lists of an index leaves every path filed where it was. -/
theorem Files.map_values (files : Files index live key) {arrange : List NamePath → List NamePath}
    (kept : ∀ paths, (arrange paths).Perm paths) :
    Files (index.mapValues fun _ => arrange) live key := by
  refine ⟨?_, fun path entity found => ?_⟩
  · have arranged : ∀ lists : List (List NamePath),
        (lists.map arrange).flatten.Perm lists.flatten := by
      intro lists
      induction lists with
      | nil => exact .refl _
      | cons first rest inductionHypothesis => exact (kept first).append inductionHypothesis
    have values : (index.mapValues fun _ => arrange).values = index.values.map arrange := by
      rw [Table.values_map_values, Table.values, List.map_map]
      rfl
    rw [values]
    exact (arranged index.values).trans files.once
  · obtain ⟨paths, held, listed⟩ := files.own path entity found
    exact ⟨arrange paths, by simp [held],
      (kept paths).mem_iff.mpr listed⟩

/-- Changing what the keys do not depend on leaves every path filed where it was. -/
theorem Files.of_map_values (files : Files index live key) {f : NamePath → Entity → Entity}
    (same : ∀ path entity, key (f path entity) = key entity) :
    Files index (live.mapValues f) key := by
  refine ⟨(Table.keys_map_values f live).symm ▸ files.once, fun path entity found => ?_⟩
  obtain ⟨before, held, rfl⟩ := Table.get?_map_values_eq_some_iff.mp found
  exact same path before ▸ files.own path before held

end Files

/-! ## Source order -/

/-- Paths come in source order: the entity at an earlier one comes no later. Two entities may stand
at one place; then either order is allowed. -/
def InSourceOrder (live : Table NamePath Entity) (paths : List NamePath) : Prop :=
  paths.Pairwise fun left right => ∃ first second, live.get? left = some first ∧
    live.get? right = some second ∧ earlier first second = true

/-- Changing what is no matter of place keeps lists in source order. -/
theorem InSourceOrder.of_map_values {live : Table NamePath Entity} {paths : List NamePath}
    (sorted : InSourceOrder live paths) {f : NamePath → Entity → Entity}
    (same : ∀ path entity, (f path entity).order = entity.order) :
    InSourceOrder (live.mapValues f) paths := by
  refine List.Pairwise.imp ?_ sorted
  rintro left right ⟨first, second, foundFirst, foundSecond, before⟩
  refine ⟨f left first, f right second, ?_, ?_, ?_⟩
  · simp [foundFirst]
  · simp [foundSecond]
  · rw [earlier, same, same]
    exact before

/-- The paths of a sorted table that are collected under one key come in source order. Filtering a
sorted list leaves it sorted. -/
theorem in_source_order_filed {κ : Type} [DecidableEq κ] (live : Table NamePath Entity)
    (key : Entity → κ) (asked : κ) :
    InSourceOrder (live.sortValues earlier)
      (((filed (live.sortValues earlier) key).get? asked).getD []) := by
  rw [getd_get?_filed, InSourceOrder, List.pairwise_map]
  refine List.Pairwise.imp_of_mem ?_ (List.Pairwise.filter _ (pairwise_sort_values live))
  intro first second inFirst inSecond before
  exact ⟨first.2, second.2, Table.get?_eq_some_iff.mpr (List.mem_of_mem_filter inFirst),
    Table.get?_eq_some_iff.mpr (List.mem_of_mem_filter inSecond), before⟩

/-! ## The indexes of a graph -/

/-- The indexes of a graph cohere. Its live paths are filed under their containers and under their
kinds, the member lists are what is filed under the paths, and the lists come in source order, those
of the containers only if they are to come in this order. Otherwise they come in alphabetical order.
The member lists are stated for live paths only; paths of missing containers are filed all the
same. -/
structure Indexed (graph : Graph) : Prop where
  containers : Files graph.byContainer graph.live fun entity => entity.parent.getD .root
  kinds : Files graph.byKind graph.live Entity.kind
  members : ∀ path entity, graph.live.get? path = some entity →
    entity.members = (graph.byContainer.get? path).getD []
  kindsSorted : ∀ kind, InSourceOrder graph.live ((graph.byKind.get? kind).getD [])
  membersSorted : graph.memberOrder = .declaration →
    ∀ container, InSourceOrder graph.live ((graph.byContainer.get? container).getD [])
  membersNamed : graph.memberOrder = .alphabetical →
    ∀ container, ((graph.byContainer.get? container).getD []).Pairwise NamePath.NamedBefore

/-- Two graphs differ in the arrangement of members only. They have the same entities but for the
member lists, the same public paths, kinds, references and superseded entities, and the same
containers, each with the same members. Public paths, kinds and references are compared as they are,
with their order. -/
structure Rearranged (left right : Graph) : Prop where
  info : right.info = left.info
  live : right.live.entries.map unlist = left.live.entries.map unlist
  visible : right.visible = left.visible
  byKind : right.byKind = left.byKind
  seeIndex : right.seeIndex = left.seeIndex
  superseded : right.superseded = left.superseded
  containers : right.byContainer.keys = left.byContainer.keys
  members : ∀ container, ((right.byContainer.get? container).getD []).Perm
    ((left.byContainer.get? container).getD [])

section Indexes

variable (entities : Table NamePath Entity) (superseded : List Entity) (info : ModuleInfo)
  (order : MemberOrder)

/-- The containers of a graph are the paths that are collected under them, in the configured
order. -/
theorem by_container_of_entities : (ofEntities entities superseded info order).byContainer =
    (filed (entities.sortValues earlier) container).mapValues fun _ => orderMembers order :=
  rfl

/-- The live entities of a graph are the sorted ones, with their members filled in. The table is
sorted by place before anything is filed, so every list that is not rearranged is in source
order. -/
theorem live_of_entities : (ofEntities entities superseded info order).live =
    (entities.sortValues earlier).mapValues fun path entity =>
      { entity with members :=
        ((ofEntities entities superseded info order).byContainer.get? path).getD [] } :=
  rfl

/-- The kinds of a graph are the paths that are collected under them. -/
theorem by_kind_of_entities : (ofEntities entities superseded info order).byKind =
    filed (entities.sortValues earlier) Entity.kind := by
  show Table.group _ = Table.group _
  simp [Table.mapValues, Function.comp_def]

/-- The members of a container are the paths that are collected under it, in the configured order. A
container without members has no list, and the empty list stands for it. -/
theorem getd_get?_by_container (asked : NamePath) :
    ((ofEntities entities superseded info order).byContainer.get? asked).getD [] =
      orderMembers order
        (((filed (entities.sortValues earlier) container).get? asked).getD []) := by
  rw [by_container_of_entities, Table.get?_map_values]
  cases (filed (entities.sortValues earlier) container).get? asked with
  | none => exact (List.perm_nil.mp (order_members_perm order [])).symm
  | some paths => rfl

/-- The paths that are filed under a container are the live ones whose entities have it. A path
without an entry has the empty list, so nothing is assumed of the container. -/
theorem mem_by_container_iff {path asked : NamePath} :
    path ∈ ((ofEntities entities superseded info order).byContainer.get? asked).getD [] ↔
      ∃ entity, (ofEntities entities superseded info order).live.get? path = some entity ∧
        container entity = asked := by
  rw [getd_get?_by_container, (order_members_perm order _).mem_iff, getd_get?_filed,
    live_of_entities, Table.get?_map_values]
  simp only [List.mem_map, List.mem_filter, decide_eq_true_eq, Option.map_eq_some_iff]
  constructor
  · rintro ⟨entry, ⟨present, filedThere⟩, rfl⟩
    exact ⟨_, ⟨entry.2, Table.get?_eq_some_iff.mpr present, rfl⟩, filedThere⟩
  · rintro ⟨_, ⟨entity, found, rfl⟩, filedThere⟩
    exact ⟨(path, entity), ⟨Table.get?_eq_some_iff.mp found, filedThere⟩, rfl⟩

/-- The indexes of every graph cohere. Each field is one of the facts above about the sorted table,
whose entities have then been given their members. -/
theorem indexed_of_entities : (ofEntities entities superseded info order).Indexed where
  containers := by
    rw [by_container_of_entities, live_of_entities]
    refine Files.of_map_values ?_ fun path entity => rfl
    exact (files_filed _ container).map_values fun paths => order_members_perm order paths
  kinds := by
    rw [by_kind_of_entities, live_of_entities]
    exact Files.of_map_values (files_filed _ Entity.kind) fun path entity => rfl
  members := by
    intro path entity found
    rw [live_of_entities] at found
    obtain ⟨before, held, rfl⟩ := Table.get?_map_values_eq_some_iff.mp found
    rfl
  kindsSorted := by
    intro kind
    rw [by_kind_of_entities, live_of_entities]
    exact (in_source_order_filed entities Entity.kind kind).of_map_values fun path entity => rfl
  membersSorted := by
    intro declared asked
    obtain rfl : order = .declaration := declared
    rw [getd_get?_by_container, live_of_entities]
    exact (in_source_order_filed entities container asked).of_map_values fun path entity => rfl
  membersNamed := by
    intro named asked
    obtain rfl : order = .alphabetical := named
    rw [getd_get?_by_container]
    have once := (order_members_perm .alphabetical _).nodup_iff.mpr
      (nodup_filed (entities.sortValues earlier) container asked)
    refine ((pairwise_order_members _).and once).imp ?_
    rintro left right ⟨upTo, differ⟩
    exact NamePath.named_before_of_alphabetical upTo differ

/-- The public paths of a graph do not depend on its member lists. -/
theorem is_public_map_values (live : Table NamePath Entity) {f : NamePath → Entity → Entity}
    (same : ∀ path entity, (f path entity).visibility = entity.visibility) (path : NamePath) :
    isPublic (live.mapValues f) path = isPublic live path := by
  have hides : holdsPrivate (live.mapValues f) = holdsPrivate live := by
    funext above
    rw [holdsPrivate, holdsPrivate, Table.get?_map_values, Option.any_map]
    simp only [same]
  rw [isPublic, isPublic, hides]

/-- The references of a graph do not depend on its member lists. -/
theorem references_map_values (live : Table NamePath Entity) {f : NamePath → Entity → Entity}
    (same : ∀ path entity, (f path entity).seeAlso = entity.seeAlso) :
    references (live.mapValues f) = references live := by
  rw [references, references, Table.keys_map_values]
  simp only [Table.mapValues, List.flatMap_map, same]

/-- Graphs of the same entities with their members in source order and in alphabetical order differ
in the arrangement of members only. Both graphs are made of the same sorted table, and the order of
members is looked at in one place only. -/
theorem rearranged_of_entities :
    Rearranged (ofEntities entities superseded info .declaration)
      (ofEntities entities superseded info .alphabetical) := by
  have plain (order : MemberOrder) :
      (ofEntities entities superseded info order).live.entries.map unlist =
        (entities.sortValues earlier).entries.map unlist := by
    simp [live_of_entities, Table.mapValues, Function.comp_def, unlist, Entity.unlisted]
  have visible (order : MemberOrder) : (ofEntities entities superseded info order).visible =
      (entities.sortValues earlier).keys.filter (isPublic (entities.sortValues earlier)) := by
    show List.filter (isPublic (ofEntities entities superseded info order).live)
      (ofEntities entities superseded info order).live.keys = _
    rw [live_of_entities, Table.keys_map_values]
    refine List.filter_congr fun path _ => is_public_map_values _ ?_ path
    intro above entity
    rfl
  have seen (order : MemberOrder) : (ofEntities entities superseded info order).seeIndex =
      references (entities.sortValues earlier) := by
    refine references_map_values _ ?_
    intro path entity
    rfl
  refine ⟨rfl, ?_, ?_, ?_, ?_, rfl, ?_, fun asked => ?_⟩
  · rw [plain, plain]
  · rw [visible, visible]
  · rw [by_kind_of_entities, by_kind_of_entities]
  · rw [seen, seen]
  · rw [by_container_of_entities, by_container_of_entities, Table.keys_map_values,
      Table.keys_map_values]
  · rw [getd_get?_by_container, getd_get?_by_container]
    exact order_members_perm .alphabetical _

/-- What is collected under the containers depends on nothing but the parents, up to its
arrangement. The entities may differ in everything but path and parent. -/
theorem filed_perm_of_parents {left right : Table NamePath Entity}
    (same : (left.entries.map fun entry => (entry.1, entry.2.parent)).Perm
      (right.entries.map fun entry => (entry.1, entry.2.parent))) (asked : NamePath) :
    (((filed left container).get? asked).getD []).Perm
      (((filed right container).get? asked).getD []) := by
  have pairs (live : Table NamePath Entity) :
      ((filed live container).get? asked).getD [] =
        ((live.entries.map fun entry => (entry.1, entry.2.parent)).filter
          fun pair => pair.2.getD .root = asked).map Prod.fst := by
    rw [getd_get?_filed, List.filter_map, List.map_map]
    rfl
  rw [pairs, pairs]
  exact (same.filter _).map Prod.fst

/-- The indexes of a graph cohere, whatever entities it is made of and whichever order is configured
for members. The two orders differ in the arrangement of members only, and the alphabetical
arrangement is the same for all entities with the same paths and parents, wherever they stand in the
source.

Proof: that the indexes cohere holds of any entities, by filing and sorting. The two orders
rearrange the same lists. And an alphabetical list is determined by its paths, because of two
different paths one comes strictly before the other; the paths under a container depend on the
recorded parents alone. -/
theorem index_coherence :
    (∀ order, (ofEntities entities superseded info order).memberOrder = order ∧
      ((ofEntities entities superseded info order).live.entries.map unlist).Perm
        (entities.entries.map unlist) ∧
      (ofEntities entities superseded info order).Indexed) ∧
    Rearranged (ofEntities entities superseded info .declaration)
      (ofEntities entities superseded info .alphabetical) ∧
    ∀ others otherSuperseded otherInfo,
      (entities.entries.map fun entry => (entry.1, entry.2.parent)).Perm
        (others.entries.map fun entry => (entry.1, entry.2.parent)) →
      ∀ asked, ((ofEntities entities superseded info .alphabetical).byContainer.get? asked).getD
          [] =
        ((ofEntities others otherSuperseded otherInfo .alphabetical).byContainer.get? asked).getD
          [] := by
  refine ⟨fun order => ⟨rfl, map_unlist_of_entities_perm _ _ _ _, indexed_of_entities _ _ _ _⟩,
    rearranged_of_entities _ _ _, fun others otherSuperseded otherInfo same asked => ?_⟩
  have sorted (live : Table NamePath Entity) :
      ((live.sortValues earlier).entries.map fun entry => (entry.1, entry.2.parent)).Perm
        (live.entries.map fun entry => (entry.1, entry.2.parent)) :=
    (live.entries_sort_values_perm earlier).map _
  rw [getd_get?_by_container, getd_get?_by_container]
  exact order_members_eq_of_perm
    (filed_perm_of_parents ((sorted entities).trans (same.trans (sorted others).symm)) asked)

end Indexes

/-- Top-level functions of some names, declared one after the other. -/
def sampleFunctions (names : List String) : Table NamePath Entity :=
  .ofList (names.zipIdx.map fun (name, place) =>
    (NamePath.root.child .static name,
      { kind := .function, name := name, order := ⟨0, place.toUInt32⟩ }))

/-- Three functions have one alphabetical arrangement, in whichever order they are declared,
also when two names differ in their case only. -/
theorem index_coherence_sample :
    ((sampleFunctions ["b", "a", "A"]).entries.map fun entry => (entry.1, entry.2.parent)).Perm
        ((sampleFunctions ["A", "b", "a"]).entries.map fun entry => (entry.1, entry.2.parent)) ∧
      ((ofEntities (sampleFunctions ["b", "a", "A"]) [] {} .alphabetical).byContainer.get?
          .root).getD [] =
        ((ofEntities (sampleFunctions ["A", "b", "a"]) [] {} .alphabetical).byContainer.get?
          .root).getD [] := by
  have same : ((sampleFunctions ["b", "a", "A"]).entries.map fun entry =>
      (entry.1, entry.2.parent)).Perm
        ((sampleFunctions ["A", "b", "a"]).entries.map fun entry => (entry.1, entry.2.parent)) := by
    decide
  exact ⟨same, (index_coherence _ [] {}).2.2 _ [] {} same .root⟩

end Graph

end DocGraph
