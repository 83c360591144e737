import DocGraph.Proofs.DraftMarks
import DocGraph.Proofs.Emptying
import DocGraph.Proofs.ResolvedRuns

/-!
# The visibility of entities in a graph

Visibility is settled once, between the placing of the drafts and the lending of members, and only
for what is live then. An entity that is live at this moment gets the strictest mark of its draft
and keeps it, whether it is moved, superseded on the way or dropped as a lender. An entity that is
superseded at this moment is left as it was drafted: it stays public, whatever its marks are.

Every draft is followed through the whole build to its one entity, and every entity of the graph is
met on the way.

A draft and its entity are tied together by the place in the source, which nothing changes and which
no two drafts of a build share. So it is enough to follow each draft forwards; that every entity of
the graph is met follows from the count of places.
-/

namespace DocGraph

namespace Entity

variable {entity other : Entity}

/-- An entity stands at the same place of the source wherever it goes. It is what identifies an
entity after it has been moved. -/
theorem Becomes.order (becomes : entity.Becomes other) : other.order = entity.order := by
  obtain ⟨_, _, _, rfl⟩ := becomes
  rfl

/-- An entity is as visible as before wherever it goes. -/
theorem Becomes.visibility (becomes : entity.Becomes other) :
    other.visibility = entity.visibility := by
  obtain ⟨_, _, _, rfl⟩ := becomes
  rfl

end Entity

namespace Registry

variable {registry next : Registry} {path : NamePath} {entity : Entity} {directives : Directives}

/-- A registry retains an entity when it is kept at some path with its directives, or lost. In
contrast to where a lender may be, no path is asked for; an entity may be anywhere. -/
def Retains (registry : Registry) (entity : Entity) (directives : Directives) : Prop :=
  (∃ path, registry.Keeps path entity directives) ∨ registry.Loses entity

/-- Placing drafts retains the entities that a registry has. A registration keeps another entity or
loses it, and superseding only adds to the lost ones. -/
theorem retains_kept_by_placing (entity : Entity) (directives : Directives) :
    KeptByPlacing (·.Retains entity directives) := by
  refine ⟨?_, ?_⟩
  · rintro registry next added given live (⟨path, kept⟩ | lost) _ inserted
    · exact (kept.insert inserted).imp_left fun stays => ⟨path, stays⟩
    · exact .inr (lost.insert inserted)
  · rintro registry added (kept | ⟨other, listed, becomes⟩) _
    · exact .inl kept
    · exact .inr ⟨other, List.mem_append_left added listed, becomes⟩

mutual

/-- What is nested in a displaced draft becomes one of the displaced entities, and so does the draft
itself. It records another path than the one it was drafted for, which becoming allows. -/
theorem becomes_of_displaced (container : NamePath) :
    ∀ tree : Tree Draft, ∀ draft ∈ tree.preorder,
      ∃ entity ∈ displaced container tree, draft.entity.Becomes entity
  | .node own nested, draft, present => by
    rw [displaced]
    rcases List.mem_cons.mp present with rfl | deeper
    · exact ⟨_, List.mem_cons_self, (Entity.Becomes.refl _).moved_to _⟩
    · obtain ⟨entity, listed, becomes⟩ := becomes_of_displaced_all _ nested draft deeper
      exact ⟨entity, List.mem_cons_of_mem _ listed, becomes⟩

/-- The displaced drafts and what is nested in them become displaced entities. -/
theorem becomes_of_displaced_all (container : NamePath) :
    ∀ forest : List (Tree Draft), ∀ draft ∈ Tree.forestPreorder forest,
      ∃ entity ∈ displacedAll container forest, draft.entity.Becomes entity
  | [], _, present => absurd present List.not_mem_nil
  | first :: rest, draft, present => by
    rw [displacedAll]
    rcases List.mem_append.mp present with here | later
    · obtain ⟨entity, listed, becomes⟩ := becomes_of_displaced container first draft here
      exact ⟨entity, List.mem_append_left _ listed, becomes⟩
    · obtain ⟨entity, listed, becomes⟩ := becomes_of_displaced_all container rest draft later
      exact ⟨entity, List.mem_append_right _ listed, becomes⟩

end

mutual

/-- Placing a draft retains it and everything nested in it.

Proof: induction on the tree. The own draft is registered, and what is nested in it is placed below
it or superseded with it; what was retained stays so by the previous facts, also while the later
drafts are placed. -/
theorem retains_of_place :
    ∀ (tree : Tree Draft) {registry next : Registry} {container : NamePath}
      {scopes : List NamePath}, place registry container scopes tree = .ok next →
      ∀ draft ∈ tree.preorder, next.Retains draft.entity draft.directives
  | .node own nested, registry, next, container, scopes, placed, draft, present => by
    obtain ⟨path, arrived, _, outcome⟩ := place_node placed
    have registered {live : Bool}
        (inserted :
          registry.insert (own.entity.movedTo path) own.directives = .ok (arrived, live)) :
        arrived.Retains own.entity own.directives :=
      (keeps_of_insert ((Entity.Becomes.refl own.entity).moved_to path) inserted).imp_left
        fun kept => ⟨_, kept⟩
    obtain ⟨inserted, inner⟩ | ⟨inserted, rfl⟩ := outcome
    · rcases List.mem_cons.mp present with rfl | deeper
      · exact (retains_kept_by_placing _ _).place_all nested (registered inserted) inner
      · exact retains_of_place_all nested inner draft deeper
    · rcases List.mem_cons.mp present with rfl | deeper
      · exact (retains_kept_by_placing _ _).superseded (registered inserted)
          (displaced_all_stands_at path nested)
      · obtain ⟨entity, listed, becomes⟩ := becomes_of_displaced_all path nested draft deeper
        exact .inr ⟨entity, List.mem_append_right _ listed, becomes⟩

/-- Placing several drafts retains them and everything nested in them. -/
theorem retains_of_place_all :
    ∀ (forest : List (Tree Draft)) {registry next : Registry} {container : NamePath}
      {scopes : List NamePath}, placeAll registry container scopes forest = .ok next →
      ∀ draft ∈ Tree.forestPreorder forest, next.Retains draft.entity draft.directives
  | [], _, _, _, _, _, _, present => absurd present List.not_mem_nil
  | first :: rest, registry, next, container, scopes, placed, draft, present => by
    obtain ⟨middle, placedFirst, placedRest⟩ := place_all_cons placed
    rcases List.mem_append.mp present with here | later
    · exact (retains_kept_by_placing _ _).place_all rest
        (retains_of_place first placedFirst draft here) placedRest
    · exact retains_of_place_all rest placedRest draft later

end

/-- A live entity gets the strictest of the marks that it was given when visibility is settled. The
entity is a different one now, with the settled visibility, and from here on it is that one which is
followed. For lost entities there is no such fact, since settling does not look at them. -/
theorem Keeps.settle_visibility (kept : registry.Keeps path entity directives) :
    registry.settleVisibility.Keeps path
      { entity with visibility := Visibility.strictest directives.visibility } directives := by
  obtain ⟨_, found, ⟨place, parent, relations, rfl⟩, given⟩ := kept
  refine ⟨_, ?_, ⟨place, parent, relations, rfl⟩, given⟩
  rw [Registry.settleVisibility, Table.get?_map_values, found, Option.map_some]
  simp [marks, given]

/-- An elementary step of lending retains the entities that a registry has. A member that is moved
is kept at its new path or lost on the way, and all other steps keep it or lose it. -/
theorem Step.retains {before after : Registry} (step : Step before after)
    (retains : before.Retains entity directives) : after.Retains entity directives := by
  have moved {lender old : NamePath} {hop : Hop} (moved : Moved lender hop old before after)
      {held : NamePath} (kept : before.Keeps held entity directives) :
      after.Retains entity directives := by
    obtain stays | ⟨_, goes⟩ | lost := kept.moved moved
    · exact .inl ⟨_, stays⟩
    · exact .inl ⟨_, goes⟩
    · exact .inr lost
  obtain ⟨held, kept⟩ | lost := retains
  · cases step with
    | displaced found _ => exact moved (.displaced found) kept
    | reinserted found _ inserted => exact moved (.reinserted found inserted) kept
    | related path relation =>
      refine .inl ⟨held, kept.map_values fun path entity => ?_⟩
      split
      · exact ⟨_, rfl⟩
      · exact ⟨entity.relations, rfl⟩
    | dropped root => exact (kept.supersede_subtree root).imp_left fun stays => ⟨held, stays⟩
  · exact .inr (step.loses lost)

/-- Linking supertypes retains the entities that a registry has. -/
theorem Retains.link_supertypes (retains : registry.Retains entity directives) :
    registry.linkSupertypes.Retains entity directives :=
  retains.imp_left fun ⟨path, kept⟩ => ⟨path, kept.map_values fun _ _ => ⟨_, rfl⟩⟩

end Registry

/-- What is retained is held by the graph, but for relations, paths and member lists. Only the two
fields are stated that the graph leaves alone for certain. -/
theorem Graph.exists_of_retains {registry : Registry} {entity : Entity} {directives : Directives}
    (retains : registry.Retains entity directives) (info : ModuleInfo) (order : MemberOrder) :
    ∃ held, (held ∈ (ofEntities registry.live registry.superseded info order).live.values ∨
        held ∈ (ofEntities registry.live registry.superseded info order).superseded) ∧
      held.order = entity.order ∧ held.visibility = entity.visibility := by
  obtain ⟨path, other, found, becomes, _⟩ | ⟨other, listed, becomes⟩ := retains
  · have present := (keys_of_entities_perm registry.live registry.superseded info order).mem_iff.mpr
      (Table.mem_keys_of_get? found)
    obtain ⟨⟨_, held⟩, entry, rfl⟩ := List.mem_map.mp present
    have live := Table.get?_eq_some_iff.mpr entry
    obtain ⟨_, again, same⟩ := get?_of_of_entities live
    obtain rfl := Option.some.inj (found.symm.trans again)
    rw [same] at live
    exact ⟨_, .inl (Table.mem_values_of_get? live), becomes.order, becomes.visibility⟩
  · exact ⟨other, .inr listed, becomes.order, becomes.visibility⟩

namespace Build

variable {files : List SourceFile} {config : Config} {output : BuildOutput} {placed : Registry}

/-- A draft of a build has one entity in its graph. It has the strictest of the draft's marks,
unless it was superseded before visibility was settled; then it is as it was drafted.

Proof: placing retains the draft, live or superseded. If it is live when visibility is settled, the
settled entity is kept from there on; otherwise it is lost already, as it was drafted, and
superseded entities stay as they are. Whether it is superseded at that moment is read off its place,
which no other entity has. -/
theorem exists_settled (counted : Counted (ordered files config) config)
    (assigned : Registry.assign
      ((normalized (ordered files config) config).map NormalizedFile.drafts) = .ok placed)
    (built : run files config = .ok output) {draft : Draft}
    (listed : draft ∈ Tree.forestPreorder
      ((normalized (ordered files config) config).map NormalizedFile.drafts).flatten) :
    ∃ entity, (entity ∈ output.graph.live.values ∨ entity ∈ output.graph.superseded) ∧
      entity.order = draft.entity.order ∧
      entity.visibility =
        if draft.entity.order ∈ placed.superseded.map Entity.order then draft.entity.visibility
        else Visibility.strictest draft.directives.visibility := by
  obtain ⟨again, redirected, info, assignedAgain, steps, made⟩ := run_stages built
  rw [assigned] at assignedAgain
  cases assignedAgain
  rw [made]
  have distinct : (placed.census Entity.order).Nodup := by
    rw [Registry.census_assign Registry.order_lasting assigned]
    exact census_order_nodup counted
  have follow {entity : Entity} (settled : placed.settleVisibility.Retains entity
      draft.directives) : redirected.linkSupertypes.Retains entity draft.directives :=
    (steps.keep Registry.Step.retains settled).link_supertypes
  obtain ⟨path, kept⟩ | lost := Registry.retains_of_place_all _ assigned draft listed
  · have apart : draft.entity.order ∉ placed.superseded.map Entity.order := by
      obtain ⟨other, found, becomes, _⟩ := kept
      rw [Registry.census, Multiset.nodup_add] at distinct
      rw [← becomes.order]
      exact Multiset.disjoint_left.mp distinct.2.2 (Registry.mem_living found)
    rw [if_neg apart]
    exact Graph.exists_of_retains (follow (.inl ⟨path, kept.settle_visibility⟩)) info _
  · have superseded : draft.entity.order ∈ placed.superseded.map Entity.order := by
      obtain ⟨other, held, becomes⟩ := lost
      exact List.mem_map.mpr ⟨other, held, becomes.order⟩
    rw [if_pos superseded]
    exact Graph.exists_of_retains (follow (.inr lost)) info _

/-- The entities of a graph stand where drafts of the build stand, each at a place of its own. Both
parts come from the census of places, which is the same for the graph and for the drafts. -/
theorem order_of_graph (counted : Counted (ordered files config) config)
    (built : run files config = .ok output) :
    ((output.graph.live.values ++ output.graph.superseded).map Entity.order).Nodup ∧
      ∀ entity ∈ output.graph.live.values ++ output.graph.superseded,
        ∃ draft ∈ Tree.forestPreorder
          ((normalized (ordered files config) config).map NormalizedFile.drafts).flatten,
          draft.entity.order = entity.order := by
  obtain ⟨placed, redirected, info, assigned, steps, made⟩ := run_stages built
  have same : Multiset.ofList
      ((output.graph.live.values ++ output.graph.superseded).map Entity.order) =
        Draft.census Entity.order
          ((normalized (ordered files config) config).map NormalizedFile.drafts).flatten := by
    rw [made, Graph.census_of_entities fun _ _ => rfl]
    exact Registry.census_of_stages Registry.order_lasting assigned steps
  have arranged := Multiset.coe_eq_coe.mp same
  refine ⟨?_, fun entity held => ?_⟩
  · rw [← Multiset.coe_nodup, same]
    exact census_order_nodup counted
  · exact List.mem_map.mp (arranged.mem_iff.mp (List.mem_map_of_mem held))

/-- The drafts of a build are the drafts of its files. The number of a file is its position among
the files of the build. -/
theorem exists_file_of_draft {draft : Draft}
    (listed : draft ∈ Tree.forestPreorder
      ((normalized (ordered files config) config).map NormalizedFile.drafts).flatten) :
    ∃ file index, (file, index) ∈ (ordered files config).zipIdx ∧
      draft ∈ Tree.forestPreorder (file.normalize (UInt32.ofNat index) config).drafts := by
  rw [Tree.forest_preorder_eq_flat_map] at listed
  obtain ⟨tree, inForest, inTree⟩ := List.mem_flatMap.mp listed
  obtain ⟨forest, inForests, listedTree⟩ := List.mem_flatten.mp inForest
  obtain ⟨part, inParts, rfl⟩ := List.mem_map.mp inForests
  obtain ⟨⟨file, index⟩, inFiles, rfl⟩ := List.mem_map.mp inParts
  refine ⟨file, index, inFiles, ?_⟩
  rw [Tree.forest_preorder_eq_flat_map]
  exact List.mem_flatMap.mpr ⟨tree, listedTree, inTree⟩

/-- Every entity of a graph, live or superseded, comes from a draft of one of the files, and the
draft is made of parts of this file. The entity has the strictest visibility mark of all these
parts, if it was not superseded before visibility was settled; otherwise it is public.

The premise on the counters makes places differ; without it an entity could be taken for another
one.

Proof: the place of the entity belongs to a draft, and that draft has an entity with the visibility
that settling gives. Places differ in the graph, so it is the entity in question. Its directives
hold the marks of its parts in some order, which the strictest of them does not depend on; and every
draft is public before settling. -/
theorem visibility_of_marks (counted : Counted (ordered files config) config)
    (assigned : Registry.assign
      ((normalized (ordered files config) config).map NormalizedFile.drafts) = .ok placed)
    (built : run files config = .ok output) {entity : Entity}
    (held : entity ∈ output.graph.live.values ++ output.graph.superseded) :
    ∃ file index draft parts, (file, index) ∈ (ordered files config).zipIdx ∧
      draft ∈ Tree.forestPreorder (file.normalize (UInt32.ofNat index) config).drafts ∧
      draft.entity.order = entity.order ∧ draft.MadeOf parts ∧
      parts ⊆ file.parts (UInt32.ofNat index) config ∧
      (entity.order ∉ placed.superseded.map Entity.order →
        entity.visibility.IsStrictest (parts.flatMap Draft.Part.marks)) ∧
      (entity.order ∈ placed.superseded.map Entity.order →
        entity.visibility = .publicAccess) := by
  obtain ⟨distinct, drafted⟩ := order_of_graph counted built
  obtain ⟨draft, listed, order⟩ := drafted entity held
  obtain ⟨other, present, same, visible⟩ := exists_settled counted assigned built listed
  obtain rfl : other = entity :=
    List.inj_on_of_nodup_map distinct (List.mem_append.mpr present) held (same.trans order)
  obtain ⟨file, index, inFiles, inFile⟩ := exists_file_of_draft listed
  have everywhere {apt : Draft → Prop} (all : ∀ tree ∈ (file.normalize (UInt32.ofNat index)
      config).drafts, Draft.Everywhere apt tree) : apt draft := by
    rw [Tree.forest_preorder_eq_flat_map] at inFile
    obtain ⟨tree, inForest, inTree⟩ := List.mem_flatMap.mp inFile
    exact all tree inForest draft inTree
  obtain ⟨parts, made, inside⟩ := everywhere (Draft.made_from_normalize file _ config)
  have plain : draft.entity.visibility = .publicAccess :=
    everywhere (Draft.public_normalize file _ config)
  rw [order] at visible
  refine ⟨file, index, draft, parts, inFiles, inFile, order, made, inside, ?_, ?_⟩
  · intro settled
    rw [if_neg settled] at visible
    rw [visible]
    exact (Visibility.is_strictest_strictest _).of_perm made.visibility_perm
  · intro early
    rw [if_pos early] at visible
    exact visible.trans plain

/-- A private function that is declared again, as a protected one. -/
def overridden : List SourceFile :=
  [{ path := "a.js"
     comments := [⟨"/** @private */", { startLine := 1, endLine := 1 }⟩,
       ⟨"/** @protected */", { startLine := 3, endLine := 3 }⟩]
     declarations :=
      [.node { kind := .function, name := some "f", span := { startLine := 2, endLine := 2 } } [],
       .node { kind := .function, name := some "f", span := { startLine := 4, endLine := 4 } }
        []] }]

/-- The function that is live has the strictest mark of its declaration. -/
theorem overridden_visibility :
    Counted (ordered overridden {}) {} ∧ ∃ placed output entity,
      Registry.assign ((normalized (ordered overridden {}) {}).map NormalizedFile.drafts) =
        .ok placed ∧
      run overridden {} = .ok output ∧
      entity ∈ output.graph.live.values ++ output.graph.superseded ∧
      entity.order ∉ placed.superseded.map Entity.order ∧
      ∃ file index draft parts, (file, index) ∈ (ordered overridden {}).zipIdx ∧
        draft ∈ Tree.forestPreorder (file.normalize (UInt32.ofNat index) {}).drafts ∧
        draft.entity.order = entity.order ∧ draft.MadeOf parts ∧
        parts ⊆ file.parts (UInt32.ofNat index) {} ∧
        entity.visibility.IsStrictest (parts.flatMap Draft.Part.marks) := by
  have counted : Counted (ordered overridden {}) {} :=
    (counted_of_few (by decide) (by decide)).ordered
  obtain ⟨placed, output, assigned, built, stands, settled⟩ :=
    exists_run overridden {} (fun placed =>
      placed.resolve.registry.LiveAt (.ofNames ["f"]) { sequence := 1 } ∧
      ({ sequence := 1 } : SourceOrder) ∉ placed.superseded.map Entity.order)
      (by decide) (by decide +kernel)
  obtain ⟨entity, live, order⟩ := exists_of_resolved assigned built stands
  rw [← order] at settled
  have held : entity ∈ output.graph.live.values ++ output.graph.superseded :=
    List.mem_append_left _ (Table.mem_values_of_get? live)
  obtain ⟨file, index, draft, parts, inFiles, inFile, same, made, inside, strictest, _⟩ :=
    visibility_of_marks counted assigned built held
  exact ⟨counted, placed, output, entity, assigned, built, held, settled, file, index, draft,
    parts, inFiles, inFile, same, made, inside, strictest settled⟩

/-- The function that is superseded is public, although its draft has a private mark, whatever parts
this draft is made of. So for superseded entities the strictest mark is not the visibility, and the
two cases of the main statement have to be distinguished. -/
theorem overridden_stays_public :
    ∃ output entity draft, run overridden {} = .ok output ∧
      entity ∈ output.graph.superseded ∧
      draft ∈ Tree.forestPreorder
        ((normalized (ordered overridden {}) {}).map NormalizedFile.drafts).flatten ∧
      draft.entity.order = entity.order ∧
      ∀ parts, draft.MadeOf parts →
        ¬entity.visibility.IsStrictest (parts.flatMap Draft.Part.marks) := by
  obtain ⟨draft, inForest, order, marked⟩ : ∃ draft ∈ Tree.forestPreorder
      ((normalized (ordered overridden {}) {}).map NormalizedFile.drafts).flatten,
      draft.entity.order = {} ∧ draft.directives.visibility = [.privateAccess] := by
    decide +kernel
  obtain ⟨placed, output, assigned, built, entity, listed, first, visible⟩ :=
    exists_run overridden {} (fun placed =>
      ∃ entity ∈ placed.resolve.registry.superseded, entity.order = {} ∧
        entity.visibility = .publicAccess) (by decide) (by decide +kernel)
  obtain ⟨_, info, made⟩ := run_resolves assigned built
  refine ⟨output, entity, draft, built, made ▸ listed, inForest, order.trans first.symm, ?_⟩
  intro parts origin strictest
  have marks := strictest.of_perm origin.visibility_perm.symm
  rw [visible, marked] at marks
  exact absurd marks (by decide)

end Build

end DocGraph
