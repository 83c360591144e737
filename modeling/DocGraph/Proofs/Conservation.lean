import DocGraph.Proofs.RegistrySteps

/-!
# No entity is lost or duplicated

Between the drafts of a build and its graph every entity keeps its place in the source order, its
name, its kind and its location. Paths, relations and visibility change, entities move from the live
to the superseded ones, and members are taken out and put back elsewhere; the collection of these
traits stays the same throughout.

The accounting is done for any trait that moves, relations and visibility leave alone. Each
operation of the registry is accounted for once, and a whole build follows by induction over the
drafts that are placed and over the steps that are taken. Builds that end with a fault are not
accounted for, since they have no graph.

What is collected is a multiset and not a list. Entities change their places in the tables all the
time, and neither the order of the table nor that of the superseded ones is that of the drafts.
-/

namespace DocGraph

namespace Entity

/-- A trait that an entity keeps wherever it goes: it depends neither on the path nor on relations
or visibility. The three equations are the three ways in which a registry changes an entity it
holds. -/
structure Lasting {α : Type} (trait : Entity → α) : Prop where
  moved : ∀ entity path, trait (entity.movedTo path) = trait entity
  related : ∀ (entity : Entity) relations,
    trait { entity with relations := relations } = trait entity
  settled : ∀ (entity : Entity) visibility,
    trait { entity with visibility := visibility } = trait entity

/-- What identifies an entity from its draft to the graph: its place in the source order, its name,
its kind and its location. Several entities may have one imprint only if their places are the same,
which no build of a reasonable size has; the accounting does not depend on it. -/
def imprint (entity : Entity) : SourceOrder × String × EntityKind × Location :=
  (entity.order, entity.name, entity.kind, entity.location)

/-- The imprint of an entity is lasting. -/
theorem imprint_lasting : Lasting imprint :=
  ⟨fun _ _ => rfl, fun _ _ => rfl, fun _ _ => rfl⟩

end Entity

namespace Draft

variable {α : Type} {trait : Entity → α}

/-- The traits of a draft and of all drafts nested in it. The drafts are counted with the traits of
the entities they contain. -/
def treeCensus (trait : Entity → α) (tree : Tree Draft) : Multiset α :=
  Multiset.ofList (tree.preorder.map fun draft => trait draft.entity)

/-- The traits of all drafts of a forest. It is the count that a registry has to arrive at. -/
def census (trait : Entity → α) (forest : List (Tree Draft)) : Multiset α :=
  Multiset.ofList ((Tree.forestPreorder forest).map fun draft => trait draft.entity)

/-- A draft is counted once, above those nested in it. With it a census is taken apart in the way in
which drafts are placed. -/
@[simp]
theorem tree_census_node (draft : Draft) (nested : List (Tree Draft)) :
    treeCensus trait (.node draft nested) = trait draft.entity ::ₘ census trait nested := by
  simp only [census, treeCensus, Tree.preorder, List.map_cons, Multiset.cons_coe]

/-- A draft is counted once, above its children. -/
theorem tree_census_eq (tree : Tree Draft) :
    treeCensus trait tree = trait tree.value.entity ::ₘ census trait tree.children := by
  cases tree
  exact tree_census_node _ _

/-- No drafts have no traits. -/
@[simp]
theorem census_nil : census trait [] = 0 := rfl

/-- The trees of a forest are counted one after the other. -/
@[simp]
theorem census_cons (first : Tree Draft) (rest : List (Tree Draft)) :
    census trait (first :: rest) = treeCensus trait first + census trait rest := by
  simp only [census, treeCensus, Tree.forestPreorder, List.map_append, Multiset.coe_add]

/-- Two forests are counted one after the other. -/
@[simp]
theorem census_append (left right : List (Tree Draft)) :
    census trait (left ++ right) = census trait left + census trait right := by
  simp only [census, Tree.forest_preorder_eq_flat_map, List.flatMap_append, List.map_append,
    Multiset.coe_add]

end Draft

namespace Registry

variable {α : Type} {trait : Entity → α}

/-- The traits of all entities that a registry holds, live and superseded. -/
def census (trait : Entity → α) (registry : Registry) : Multiset α :=
  Multiset.ofList (registry.live.values.map trait) +
    Multiset.ofList (registry.superseded.map trait)

/-- The traits of all live entities. -/
def living (trait : Entity → α) (registry : Registry) : Multiset α :=
  Multiset.ofList (registry.live.values.map trait)

/-- What a registry holds is live or superseded. The two are counted apart where a step changes one
of them only. -/
theorem census_eq_living_add (registry : Registry) :
    census trait registry =
      registry.living trait + Multiset.ofList (registry.superseded.map trait) :=
  rfl

/-- An entity that becomes live at a free path is one more live entity. Were the path held, its
entity would be replaced, and the count would stay the same. -/
theorem living_put {registry : Registry} {entity : Entity} (directives : Directives)
    (free : entity.path ∉ registry.live.keys) :
    (registry.put entity directives).living trait = trait entity ::ₘ registry.living trait := by
  simp only [living, put, Table.values_insert_of_not_mem free, List.map_append, List.map_cons,
    List.map_nil, ← Multiset.coe_add, Multiset.coe_singleton]
  rw [Multiset.add_comm, Multiset.singleton_add]

/-- An entity that is taken out is one live entity less. It is stated as an equation between
additions, because multisets are not subtracted here. -/
theorem cons_living_remove {registry : Registry} {path : NamePath} {entity : Entity}
    (found : registry.live.get? path = some entity) :
    trait entity ::ₘ (registry.remove path).living trait = registry.living trait := by
  have split := Multiset.coe_eq_coe.mpr ((Table.values_perm_cons_erase found).map trait)
  simp only [List.map_cons, ← Multiset.cons_coe] at split
  exact split.symm

/-- An entity that becomes live at a free path is counted once. -/
theorem census_put {registry : Registry} {entity : Entity} (directives : Directives)
    (free : entity.path ∉ registry.live.keys) :
    census trait (registry.put entity directives) = trait entity ::ₘ census trait registry := by
  rw [census_eq_living_add, living_put directives free, Multiset.cons_add]
  rfl

/-- An entity that arrives superseded is counted once. -/
theorem census_add_superseded (registry : Registry) (entity : Entity) :
    census trait (registry.addSuperseded entity) = trait entity ::ₘ census trait registry := by
  simp only [census, addSuperseded, List.map_append, List.map_cons, List.map_nil,
    ← Multiset.coe_add, Multiset.coe_singleton]
  rw [← Multiset.add_assoc, Multiset.add_comm _ {trait entity}, Multiset.singleton_add]

/-- Superseding a subtree only moves entities from one side to the other.

Proof: the live table is split into the paths within the subtree and the others, which only permutes
its values. The first part is what is appended to the superseded ones. -/
theorem census_supersede_subtree (registry : Registry) (path : NamePath) :
    census trait (registry.supersedeSubtree path) = census trait registry := by
  have split := ((registry.live.values_filter_keys_perm (isWithin path)).map trait)
  have parts := Multiset.coe_eq_coe.mpr split
  simp only [List.map_append, ← Multiset.coe_add] at parts
  simp only [census, supersedeSubtree, List.map_append, ← Multiset.coe_add]
  rw [← parts, Multiset.add_comm (Multiset.ofList (registry.superseded.map trait)),
    ← Multiset.add_assoc]

/-- An entity that is taken out is missing once. The operation that follows puts it back. -/
theorem cons_census_remove {registry : Registry} {path : NamePath} {entity : Entity}
    (found : registry.live.get? path = some entity) :
    trait entity ::ₘ census trait (registry.remove path) = census trait registry := by
  rw [census_eq_living_add registry, ← cons_living_remove found, Multiset.cons_add]
  rfl

/-- Changing the live entities in place does not matter to a trait that is left alone. -/
theorem census_map_values {f : NamePath → Entity → Entity}
    (kept : ∀ path entity, trait (f path entity) = trait entity) (registry : Registry) :
    census trait { registry with live := registry.live.mapValues f } = census trait registry := by
  simp only [census, Table.map_values_map_values kept]

/-- Registering an entity counts it once, whether it becomes live, arrives superseded or takes a
path over. A takeover supersedes the subtree of the old entity, which keeps the census, and then
puts the new one at a path that has become free. -/
theorem census_insert (lasting : Entity.Lasting trait) {registry next : Registry}
    {entity : Entity} {directives : Directives} {live : Bool}
    (inserted : registry.insert entity directives = .ok (next, live)) :
    census trait next = trait entity ::ₘ census trait registry := by
  obtain ⟨free, rfl, _⟩ | ⟨_, _, _, rfl, _⟩ | ⟨_, _, _, rfl, _⟩ := insert_cases inserted
  · exact census_put directives free
  · exact census_add_superseded registry entity
  · have free : (shadowing entity).path ∉ (registry.supersedeSubtree entity.path).live.keys :=
      not_mem_keys_supersede_subtree registry entity.path
    rw [census_put directives free, census_supersede_subtree]
    exact congrArg (· ::ₘ _) (lasting.related entity _)

/-- An elementary step of lending keeps the census. Proof: a member that is taken out is missing
once, and it is counted once where it is put back, live or superseded, because moving leaves its
trait alone. A relation changes an entity in place, and dropping a subtree moves entities to the
other side. -/
theorem Step.census_eq (lasting : Entity.Lasting trait) {before after : Registry}
    (step : Step before after) : census trait after = census trait before := by
  cases step with
  | displaced found below =>
    rw [census_add_superseded, lasting.moved, cons_census_remove found]
  | reinserted found below inserted =>
    rw [census_insert lasting inserted, lasting.moved, cons_census_remove found]
  | related path relation =>
    apply census_map_values
    intro held entity
    split
    · exact lasting.related entity _
    · rfl
  | dropped path => exact census_supersede_subtree before path

/-- Any number of elementary steps keep the census. The fact that is carried along compares with the
first registry, so that the steps in between need not be named. -/
theorem Steps.census_eq (lasting : Entity.Lasting trait) {first last : Registry}
    (steps : Steps first last) : census trait last = census trait first :=
  steps.keep (motive := fun registry => census trait registry = census trait first)
    (fun step holds => (step.census_eq lasting).trans holds) rfl

/-- Settling visibility keeps the census. It is the one stage that needs a trait to leave visibility
alone. -/
theorem census_settle_visibility (lasting : Entity.Lasting trait) (registry : Registry) :
    census trait registry.settleVisibility = census trait registry :=
  census_map_values (fun _ entity => lasting.settled entity _) registry

/-- Linking supertypes keeps the census. -/
theorem census_link_supertypes (lasting : Entity.Lasting trait) (registry : Registry) :
    census trait registry.linkSupertypes = census trait registry :=
  census_map_values (fun _ entity => lasting.related entity _) registry

mutual

/-- The entities of a draft that is displaced are those of the draft. Each of them is moved to the
path below the container, and a lasting trait does not see it. -/
theorem map_displaced (lasting : Entity.Lasting trait) (container : NamePath) :
    ∀ tree : Tree Draft, (displaced container tree).map trait =
      tree.preorder.map fun draft => trait draft.entity
  | .node draft nested => by
    simp only [displaced, Tree.preorder, List.map_cons, lasting.moved]
    exact congrArg _ (map_displaced_all lasting _ nested)

/-- The entities of drafts that are displaced are those of the drafts. -/
theorem map_displaced_all (lasting : Entity.Lasting trait) (container : NamePath) :
    ∀ forest : List (Tree Draft), (displacedAll container forest).map trait =
      (Tree.forestPreorder forest).map fun draft => trait draft.entity
  | [] => rfl
  | first :: rest => by
    simp only [displacedAll, Tree.forestPreorder, List.map_append,
      map_displaced lasting container first, map_displaced_all lasting container rest]

end

mutual

/-- Placing a draft counts it and everything nested in it once.

Proof: induction on the tree. The entity of the draft is counted by its registration. If it became
live, the drafts below are counted by induction; if not, they are superseded with the traits that
they had. -/
theorem census_place (lasting : Entity.Lasting trait) :
    ∀ (tree : Tree Draft) {registry next : Registry} {container : NamePath}
      {scopes : List NamePath}, place registry container scopes tree = .ok next →
      census trait next = census trait registry + Draft.treeCensus trait tree
  | .node draft nested, registry, next, container, scopes, placed => by
    rw [Draft.tree_census_node, Multiset.add_cons]
    unfold place at placed
    dsimp only at placed
    split at placed
    · cases placed
    · next inner inserted =>
      have arrived := census_insert lasting inserted
      rw [lasting.moved] at arrived
      rw [census_place_all lasting nested placed, arrived, Multiset.cons_add]
    · next inner inserted =>
      have arrived := census_insert lasting inserted
      rw [lasting.moved] at arrived
      cases placed
      simp only [census, List.map_append, map_displaced_all lasting, ← Multiset.coe_add,
        ← Multiset.add_assoc] at arrived ⊢
      rw [arrived, Multiset.cons_add, Draft.census]

/-- Placing several drafts counts each of them once. The counts of the trees are added one after the
other, in the order of placing. -/
theorem census_place_all (lasting : Entity.Lasting trait) :
    ∀ (forest : List (Tree Draft)) {registry next : Registry} {container : NamePath}
      {scopes : List NamePath}, placeAll registry container scopes forest = .ok next →
      census trait next = census trait registry + Draft.census trait forest
  | [], registry, next, container, scopes, placed => by
    cases placed
    simp
  | first :: rest, registry, next, container, scopes, placed => by
    unfold placeAll at placed
    split at placed
    · cases placed
    · next inner placedFirst =>
      rw [census_place_all lasting rest placed, census_place lasting first placedFirst,
        Draft.census_cons, Multiset.add_assoc]

end

/-- The registry of all files holds exactly the entities of their drafts. The files are placed as
one forest, and the empty registry counts nothing. -/
theorem census_assign (lasting : Entity.Lasting trait) {files : List (List (Tree Draft))}
    {registry : Registry} (assigned : assign files = .ok registry) :
    census trait registry = Draft.census trait files.flatten := by
  rw [census_place_all lasting _ assigned]
  simp [census, empty, Table.empty, Table.values]

/-- Placing the drafts of all files, settling visibility, lending members and linking supertypes
keeps every lasting trait of the drafts. The four stages are taken in their order; each of the first
three keeps what the one before has left. -/
theorem census_of_stages (lasting : Entity.Lasting trait) {files : List (List (Tree Draft))}
    {placed redirected : Registry} (assigned : assign files = .ok placed)
    (steps : Steps placed.settleVisibility redirected) :
    census trait redirected.linkSupertypes = Draft.census trait files.flatten := by
  rw [census_link_supertypes lasting, steps.census_eq lasting, census_settle_visibility lasting,
    census_assign lasting assigned]

end Registry

/-- The entities of a graph are those it was made of, for a trait that does not depend on the member
lists. Sorting permutes the live entities and the member lists are filled in; neither is seen by the
trait. -/
theorem Graph.census_of_entities {α : Type} {trait : Entity → α}
    (unlisted : ∀ (entity : Entity) members,
      trait { entity with members := members } = trait entity)
    (live : Table NamePath Entity) (superseded : List Entity) (info : ModuleInfo)
    (order : MemberOrder) :
    Multiset.ofList (((Graph.ofEntities live superseded info order).live.values ++
      (Graph.ofEntities live superseded info order).superseded).map trait) =
      Multiset.ofList (live.values.map trait) + Multiset.ofList (superseded.map trait) := by
  have relisted : (Graph.ofEntities live superseded info order).live.values.map trait =
      (live.sortValues Graph.earlier).values.map trait :=
    Table.map_values_map_values (fun _ entity => unlisted entity _) _
  rw [List.map_append, relisted, ← Multiset.coe_add]
  congr 1
  exact Multiset.coe_eq_coe.mpr ((live.values_sort_values_perm Graph.earlier).map trait)

/-- Nothing is lost and nothing is duplicated: the live and superseded entities of a graph have the
same imprints, with the same multiplicity, as all the drafts that the files of the build were
normalized to.

Proof: a build that ended well has gone through all four stages without a fault. The census of the
last registry is that of the drafts by induction over the placing and over the steps of lending, and
the graph only sorts what that registry holds and lists members. That an imprint is lasting, and
does not see member lists, holds by definition. -/
theorem Build.imprints_of_graph_eq_imprints_of_drafts {files : List SourceFile}
    {config : Config} {output : BuildOutput} (built : run files config = .ok output) :
    Multiset.ofList ((output.graph.live.values ++ output.graph.superseded).map Entity.imprint) =
      Multiset.ofList (((normalized (ordered files config) config).flatMap fun part =>
        Tree.forestPreorder part.drafts).map fun draft => draft.entity.imprint) := by
  obtain ⟨placed, redirected, info, assigned, steps, made⟩ := run_stages built
  rw [made, Graph.census_of_entities fun _ _ => rfl]
  refine (Registry.census_of_stages Entity.imprint_lasting assigned steps).trans ?_
  rw [Draft.census, ← List.flatMap_def]
  simp [Tree.forest_preorder_eq_flat_map, List.flatMap_assoc]

/-- Two files in which an accessor pair and an overload set collapse, a lender is dropped after its
member took over a path, and one member belongs to a container that does not exist. It is the input
on which several of the later results are evaluated. -/
def Build.sample : List SourceFile :=
  [{ path := "base.js"
     comments := [⟨"/** @lends Base# */", { startLine := 6, endLine := 6 }⟩]
     declarations :=
      [.node { kind := .classDecl, name := some "Base", span := { startLine := 1, endLine := 5 } }
        [.node { kind := .getter, name := some "size", span := { startLine := 2, endLine := 2 } }
          [],
          .node { kind := .setter, name := some "size", span := { startLine := 3, endLine := 3 } }
          [],
          .node { kind := .method, name := some "run", span := { startLine := 4, endLine := 4 } }
          []],
       .node
        { kind := .objectLiteral, name := some "mixin", span := { startLine := 7, endLine := 9 } }
        [.node { kind := .method, name := some "run", span := { startLine := 8, endLine := 8 } }
          []]] },
   { path := "late.js"
     comments := [⟨"/** @memberof Gone.inner */", { startLine := 1, endLine := 1 }⟩]
     declarations :=
      [.node
        { kind := .variableDecl, name := some "kept", span := { startLine := 2, endLine := 2 } } [],
       .node
        { kind := .function, name := some "load", span := { startLine := 3, endLine := 3 },
          hasBody := false } [],
       .node { kind := .function, name := some "load", span := { startLine := 4, endLine := 6 } }
        [.node
          { kind := .variableDecl, name := some "cache",
            span := { startLine := 5, endLine := 5 } } []]] }]

/-- The sample builds, so it has an output to speak of. Only this is evaluated; what the output
looks like follows from theorems. -/
theorem Build.exists_output_sample : ∃ output, run sample {} = .ok output := by
  have succeeds : (run sample {}).isOk = true := by decide +kernel
  cases outcome : run sample {} with
  | ok output => exact ⟨output, rfl⟩
  | error fault => simp [outcome, Except.isOk, Except.toBool] at succeeds

/-- The accounting at the sample, whose ten declarations become eight drafts. -/
theorem Build.imprints_of_sample :
    ∃ output, run sample {} = .ok output ∧
      Multiset.ofList ((output.graph.live.values ++ output.graph.superseded).map Entity.imprint) =
        Multiset.ofList (((normalized (ordered sample {}) {}).flatMap fun part =>
          Tree.forestPreorder part.drafts).map fun draft => draft.entity.imprint) := by
  obtain ⟨output, built⟩ := exists_output_sample
  exact ⟨output, built, imprints_of_graph_eq_imprints_of_drafts built⟩

end DocGraph
