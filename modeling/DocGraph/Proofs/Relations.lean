import DocGraph.Proofs.Merging
import DocGraph.Proofs.Orphans

/-!
# Where relations come from

An entity has relations from the code, from its comment and from the parts that were merged into it;
it gets one when it takes a path over, and one when its members are to be lent. All of these only
name what they lead to. Until supertypes are linked at the end, there is one relation that is
resolved when it is added: a lender records the entity to which its members went.

So a property of relations holds of all relations of live entities when it holds of those that only
name their target and of those that lenders record. Superseded entities are left out, because
nothing is asked about their relations.

Naming a target is closed under everything that is done to drafts, so one premise covers code,
comments and merging. The registry moves entities without looking at their relations, and there only
the two additions have to be checked.
-/

namespace DocGraph

variable {ok : Relation → Prop}

/-- All relations of an entity have a property. -/
def Entity.Relates (ok : Relation → Prop) (entity : Entity) : Prop :=
  ∀ relation ∈ entity.relations, ok relation

/-- An entity with a further relation that has the property. -/
theorem Entity.Relates.add_relation {entity : Entity} (relates : entity.Relates ok)
    {relation : Relation} (added : ok relation) : (entity.addRelation relation).Relates ok := by
  intro held present
  rcases List.mem_append.mp present with before | last
  · exact relates held before
  · exact List.mem_singleton.mp last ▸ added

namespace Draft

variable {draft : Draft}

section Named

variable (named : ∀ kind target, ok { kind := kind, target := target })

include named

/-- A supertype is added by name. -/
theorem relates_add_supertype
    (relates : draft.entity.Relates ok) (kind : RelationKind) (target : String) :
    (draft.addSupertype kind target).entity.Relates ok := by
  unfold addSupertype modifyEntity
  dsimp only
  split
  · exact relates
  · exact relates.add_relation (named kind target)

/-- Every tag adds relations by name only. Only tags for supertypes add any. -/
theorem relates_apply_tag (relates : draft.entity.Relates ok) (tag : Tag) :
    (draft.applyTag tag).entity.Relates ok := by
  unfold applyTag
  split <;> try exact relates
  · split
    · exact relates_add_supertype named relates _ _
    · exact relates
  · split
    · exact relates_add_supertype named relates _ _
    · exact relates
  · split <;> exact relates

/-- A comment adds relations by name only. -/
theorem relates_document (relates : draft.entity.Relates ok) (doc : DocComment) :
    (draft.document doc).entity.Relates ok := by
  have applied (tags : List Tag) (start : Draft) (begins : start.entity.Relates ok) :
      (tags.foldl applyTag start).entity.Relates ok := by
    induction tags generalizing start with
    | nil => exact begins
    | cons tag rest inductionHypothesis =>
      exact inductionHypothesis _ (relates_apply_tag named begins tag)
  exact applied doc.tags _ relates

/-- The draft of a comment has relations by name only. It starts without relations. -/
theorem relates_of_definition
    (doc : DocComment) (name : String) (tag : Tag) (kind : EntityKind) (location : Location)
    (order : SourceOrder) : (ofDefinition doc name tag kind location order).entity.Relates ok := by
  let start : Draft :=
    { entity := { kind := kind, name := name, location := location, order := order } }
  have unrelated : start.entity.Relates ok := fun relation present =>
    absurd present List.not_mem_nil
  exact relates_document named unrelated doc

/-- The draft of a declaration has relations by name only. The code names supertypes and the
interfaces that are implemented. -/
theorem relates_draft (site : Site) (scope : Scope) : (site.draft scope).entity.Relates ok := by
  have coded : site.codeEntity.Relates ok := by
    intro relation present
    simp only [Site.codeEntity, List.mem_append, List.mem_map] at present
    obtain ⟨_, _, rfl⟩ | ⟨_, _, rfl⟩ := present <;> exact named _ _
  have completed (entity : Entity) (relates : entity.Relates ok) :
      (site.completeEntity entity).Relates ok := by
    unfold Site.completeEntity
    split
    · exact relates
    · exact relates
    · split <;> exact relates
  refine completed _ ?_
  cases site.doc with
  | none => exact coded
  | some doc => exact relates_document named coded doc

end Named

/-- The relations of a merged entity are relations of the parts. They are joined or taken from one
part, and nothing is made up. -/
theorem relates_kept_by_merging : KeptByMerging (Entity.Relates ok) where
  overloaded relates := relates
  paired relates _ := relates
  flagged {_ _} own other relation present :=
    (mem_union_relations.mp present).elim (own relation) (other relation)

end Draft

namespace Registry

variable {registry next : Registry} {path lender : NamePath} {entity : Entity} {hop : Hop}

/-- All relations of the live entities have a property. It holds of the empty registry for any
property. -/
def Relates (ok : Relation → Prop) (registry : Registry) : Prop :=
  ∀ path entity, registry.live.get? path = some entity → entity.Relates ok

/-- Changing the live entities in place keeps the property when every change does. -/
theorem Relates.map_values (relates : registry.Relates ok) {f : NamePath → Entity → Entity}
    (kept : ∀ path entity, entity.Relates ok → (f path entity).Relates ok) :
    { registry with live := registry.live.mapValues f }.Relates ok := by
  intro path entity found
  obtain ⟨before, held, rfl⟩ := Table.get?_map_values_eq_some_iff.mp found
  exact kept path before (relates path before held)

/-- Noting a further relation keeps the property if the relation has it. At all other paths nothing
is added. -/
theorem Relates.modify (relates : registry.Relates ok) {relation : Relation}
    (added : ok relation) (path : NamePath) :
    { registry with live := registry.live.modify path (·.addRelation relation) }.Relates ok := by
  refine relates.map_values fun held entity own => ?_
  split
  · exact own.add_relation added
  · exact own

/-- Taking a path out keeps the property. -/
theorem Relates.remove (relates : registry.Relates ok) (path : NamePath) :
    (registry.remove path).Relates ok :=
  fun held entity found => relates held entity (Table.get?_of_filter_keys found)

/-- Superseding a subtree keeps the property. -/
theorem Relates.supersede_subtree (relates : registry.Relates ok) (path : NamePath) :
    (registry.supersedeSubtree path).Relates ok :=
  fun held entity found => relates held entity (Table.get?_of_filter_keys found)

/-- An entity that becomes live keeps the property if its relations have it. -/
theorem Relates.put (relates : registry.Relates ok) (own : entity.Relates ok)
    (directives : Directives) : (registry.put entity directives).Relates ok := by
  intro path held found
  rw [get?_live_put] at found
  split at found
  · cases found
    exact own
  · exact relates path held found

/-- Retiring a lender keeps the property if what it records has it. It is here that a resolved
relation comes in, and the property has to allow it. -/
theorem Relates.retire (relates : registry.Relates ok) {target : NamePath} {text : String}
    (recorded : ok { kind := .lending, target := text, resolved := some target })
    (lender : NamePath) : (registry.retire lender target text).Relates ok :=
  retire_keeps (motive := Relates ok) relates (relates.modify recorded lender)
    fun _ _ _ relates => relates.supersede_subtree lender

section Named

variable (named : ∀ kind target, ok { kind := kind, target := target })

include named

/-- Registering an entity keeps the property if its relations have it, whichever of the three
outcomes it has. An entity that takes its path over is given a relation that names this path. -/
theorem Relates.insert (relates : registry.Relates ok) {directives : Directives} {live : Bool}
    (own : entity.Relates ok)
    (inserted : registry.insert entity directives = .ok (next, live)) : next.Relates ok := by
  obtain ⟨_, rfl, _⟩ | ⟨_, _, _, rfl, _⟩ | ⟨_, _, _, rfl, _⟩ := insert_cases inserted
  · exact relates.put own directives
  · exact relates
  · exact (relates.supersede_subtree entity.path).put (own.add_relation (named _ _)) directives

/-- Moving one member keeps the property. A member that arrives keeps the relations that it had. -/
theorem Moved.relates {old : NamePath} (moved : Moved lender hop old registry next)
    (relates : registry.Relates ok) : next.Relates ok := by
  cases moved with
  | passed _ => exact relates
  | displaced found => exact relates.remove old
  | @reinserted entity _ _ found inserted =>
    have own : (entity.movedTo (relocate old lender hop)).Relates ok := relates old entity found
    exact (relates.remove old).insert named own inserted

/-- Moving members keeps the property. -/
theorem Relates.move_each {lost listed : List NamePath} (relates : registry.Relates ok)
    (finished : (moveEach lender hop lost registry listed).failure = none) :
    (moveEach lender hop lost registry listed).registry.Relates ok := by
  induction listed generalizing registry lost with
  | nil => exact relates
  | cons old rest inductionHypothesis =>
    obtain ⟨next, known, moved, same⟩ := move_each_cons finished
    rw [same] at finished ⊢
    exact inductionHypothesis (moved.relates named relates) finished

/-- Recording the targets that do not exist keeps the property. -/
theorem Relates.record_strays (relates : registry.Relates ok) :
    registry.recordStrays.Relates ok := by
  have recorded (strays : List (NamePath × String)) (start : Registry) (begins : start.Relates ok) :
      { start with
        live := strays.foldl (fun (live : Table NamePath Entity) (stray : NamePath × String) =>
          live.modify stray.1 (·.addRelation { kind := .lending, target := stray.2 }))
          start.live : Registry }.Relates ok := by
    induction strays generalizing start with
    | nil => exact begins
    | cons stray rest inductionHypothesis =>
      have noted : { start with
          live := start.live.modify stray.1
            (·.addRelation { kind := .lending, target := stray.2 }) }.Relates ok :=
        begins.modify (named _ _) stray.1
      exact inductionHypothesis _ noted
  exact recorded registry.strayLenders registry relates

/-- Lending members keeps the property if what lenders record has it. The premise on lenders is
asked of every hop that a lender may have, whether it has its turn or not. -/
theorem Relates.lend_members (relates : registry.Relates ok)
    (lends : ∀ lender final text, LendsTo registry.hops lender final →
      ok { kind := .lending, target := text, resolved := some final.target })
    (finished : registry.lendMembers.failure = none) :
    registry.lendMembers.registry.Relates ok := by
  refine lend_all_keeps (motive := Relates ok) ?_ finished (relates.record_strays named)
  intro before lender text _ done current
  obtain ⟨_, same⟩ | ⟨final, given, _, moves, result⟩ := lend_turn done
  · rwa [same]
  · rw [result]
    exact Relates.retire (current.move_each named moves) (lends lender final text given) lender

end Named

mutual

/-- Placing a draft keeps the property if all relations in it have it. The relations of the drafts
are asked for as a whole, since those nested in a draft are placed with it. -/
theorem Relates.place (named : ∀ kind target, ok { kind := kind, target := target }) :
    ∀ (tree : Tree Draft) {registry next : Registry} {container : NamePath}
      {scopes : List NamePath}, Draft.Throughout (Entity.Relates ok) tree →
      registry.Relates ok → place registry container scopes tree = .ok next → next.Relates ok
  | .node draft nested, registry, next, container, scopes, all, relates, placed => by
    obtain ⟨own, inside⟩ := Draft.throughout_iff.mp all
    have moved (path : NamePath) : (draft.entity.movedTo path).Relates ok := own
    obtain ⟨path, arrived, _, ⟨inserted, inner⟩ | ⟨inserted, rfl⟩⟩ := place_node placed
    · have arrives : arrived.Relates ok := relates.insert named (moved path) inserted
      exact Relates.place_all named nested inside arrives inner
    · have arrives : arrived.Relates ok := relates.insert named (moved path) inserted
      exact arrives

/-- Placing several drafts keeps the property if all relations in them have it. -/
theorem Relates.place_all (named : ∀ kind target, ok { kind := kind, target := target }) :
    ∀ (forest : List (Tree Draft)) {registry next : Registry} {container : NamePath}
      {scopes : List NamePath}, (∀ tree ∈ forest, Draft.Throughout (Entity.Relates ok) tree) →
      registry.Relates ok → placeAll registry container scopes forest = .ok next →
      next.Relates ok
  | [], registry, next, container, scopes, _, relates, placed => by
    cases placed
    exact relates
  | first :: rest, registry, next, container, scopes, all, relates, placed => by
    obtain ⟨own, later⟩ := List.forall_mem_cons.mp all
    obtain ⟨middle, placedFirst, placedRest⟩ := place_all_cons placed
    exact Relates.place_all named rest later (Relates.place named first own relates placedFirst)
      placedRest

end

end Registry

/-- When the drafts of a build have been placed, all relations of live entities only name their
targets. -/
theorem Build.relates_of_assign (named : ∀ kind target, ok { kind := kind, target := target })
    {files : List SourceFile} {config : Config} {placed : Registry}
    (assigned : Registry.assign
      ((normalized (ordered files config) config).map NormalizedFile.drafts) = .ok placed) :
    placed.Relates ok := by
  have all : ∀ tree ∈ ((normalized (ordered files config) config).map
      NormalizedFile.drafts).flatten, Draft.Throughout (Entity.Relates ok) tree := by
    intro tree present
    obtain ⟨forest, inForests, inForest⟩ := List.mem_flatten.mp present
    obtain ⟨part, inParts, rfl⟩ := List.mem_map.mp inForests
    obtain ⟨⟨file, index⟩, _, rfl⟩ := List.mem_map.mp inParts
    exact Draft.throughout_normalize Draft.relates_kept_by_merging (Draft.relates_draft named)
      (Draft.relates_of_definition named) file _ config tree inForest
  exact Registry.Relates.place_all named _ all
    (fun _ _ found => absurd (Table.mem_keys_of_get? found) List.not_mem_nil) assigned

end DocGraph
