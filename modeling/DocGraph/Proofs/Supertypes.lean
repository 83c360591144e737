import DocGraph.Proofs.Naming
import DocGraph.Proofs.Relations

/-!
# Supertypes are linked to the final layout

Supertypes are linked once, at the end of a build, and a supertype that has been linked before would
be passed over. None has. The code and the comments name supertypes without linking them, merging
only collects them, and the relations that are added later, when a path is taken over or members are
lent, lead to no supertype.

Linking asks for the paths in the order of the registry, while the graph sorts them anew. What a
name means does not depend on the order, so in the graph every supertype is linked to the entity
that its name means there, and one that is not linked means nothing there.

So the proof has two halves. Up to the end of the build no supertype is linked, which is an instance
of what holds of all relations throughout. And the last step gives every one of them the link that
is asked for.
-/

namespace DocGraph

/-- No supertype of an entity is linked. Other relations may be linked from the start, and a lender
records a linked one. -/
def Entity.Unlinked (entity : Entity) : Prop :=
  ∀ relation ∈ entity.relations, relation.kind.isSupertype = true → relation.resolved = none

namespace Registry

variable {registry : Registry} {path : NamePath} {entity : Entity}

/-- No supertype of a live entity is linked. -/
def Unlinked (registry : Registry) : Prop :=
  ∀ path entity, registry.live.get? path = some entity → entity.Unlinked

/-- Changing the live entities in place links no supertypes when no change does. Settling visibility
and the like are changes of this kind. -/
theorem Unlinked.map_values (unlinked : registry.Unlinked) {f : NamePath → Entity → Entity}
    (plain : ∀ path entity, entity.Unlinked → (f path entity).Unlinked) :
    { registry with live := registry.live.mapValues f }.Unlinked :=
  Relates.map_values unlinked plain

/-- Lending members links no supertypes: what a lender records is not one. The premise is that the
lending came to its end; otherwise there is no graph. -/
theorem Unlinked.lend_members (unlinked : registry.Unlinked)
    (finished : registry.lendMembers.failure = none) :
    registry.lendMembers.registry.Unlinked :=
  Relates.lend_members (fun _ _ _ => rfl) unlinked
    (fun _ _ _ _ supertype => absurd supertype Bool.false_ne_true) finished

/-- Linking gives every unlinked supertype the link that its name leads to. A link that is there
already would be kept, and this is why the premise is needed. -/
theorem resolved_link_supertypes (unlinked : registry.Unlinked)
    (found : registry.linkSupertypes.live.get? path = some entity) {relation : Relation}
    (listed : relation ∈ entity.relations) (supertype : relation.kind.isSupertype = true) :
    relation.resolved = Reference.resolve? registry.live.keys relation.target := by
  obtain ⟨before, held, rfl⟩ := Table.get?_map_values_eq_some_iff.mp found
  obtain ⟨named, present, rfl⟩ := List.mem_map.mp listed
  have kind : (linkRelation registry.live.keys named).kind = named.kind := by
    unfold linkRelation
    split <;> rfl
  rw [kind] at supertype
  have vacant := unlinked path before held named present supertype
  simp [linkRelation, supertype, vacant]

end Registry

namespace Build

variable {files : List SourceFile} {config : Config} {output : BuildOutput} {placed : Registry}

/-- Nothing is linked when the drafts of a build have been placed. Every relation that is there by
then was only named. -/
theorem unlinked_of_assign (assigned : Registry.assign
      ((normalized (ordered files config) config).map NormalizedFile.drafts) = .ok placed) :
    placed.Unlinked :=
  relates_of_assign (fun _ _ _ => rfl) assigned

/-- Supertypes are linked to the final layout. In the graph of a build, whatever took over which
path and whatever was moved, a supertype of a live entity is linked to what its name leads to among
the live paths of the graph: what it is linked to is live and is meant by the name, and if it is not
linked, the name means nothing.

Proof: the registry that is linked has no linked supertypes, so each gets the link that its name
leads to among the live paths. The graph has the same live paths in another order, and the meaning
of a name is the same for both. -/
theorem supertypes_linked (built : run files config = .ok output) {path : NamePath}
    {entity : Entity} (found : output.graph.live.get? path = some entity) {relation : Relation}
    (listed : relation ∈ entity.relations) (supertype : relation.kind.isSupertype = true) :
    relation.resolved = Reference.resolve? output.graph.live.keys relation.target ∧
      (∀ target, relation.resolved = some target → target ∈ output.graph.live.keys ∧
        Reference.Means output.graph.live.keys (Reference.subject relation.target) target) ∧
      (relation.resolved = none → Reference.MeansNothing output.graph.live.keys
        (Reference.subject relation.target)) := by
  have distinct : output.graph.live.keys.Nodup := Table.keys_nodup _
  have current : relation.resolved =
      Reference.resolve? output.graph.live.keys relation.target := by
    obtain ⟨placed, _, _, assigned, _, _⟩ := run_stages built
    obtain ⟨finished, info, made⟩ := run_resolves assigned built
    obtain ⟨lent, linked⟩ := Registry.resolve_eq finished
    have settled : placed.settleVisibility.Unlinked :=
      (unlinked_of_assign assigned).map_values fun _ _ plain => plain
    rw [made, linked] at found distinct ⊢
    obtain ⟨before, held, same⟩ := Graph.get?_of_of_entities found
    rw [same] at listed
    have keys := Graph.keys_of_entities_perm
      placed.settleVisibility.lendMembers.registry.linkSupertypes.live
      placed.settleVisibility.lendMembers.registry.linkSupertypes.superseded info
      config.memberOrder
    -- the registry was asked in its own order, which makes no difference
    rw [Reference.resolve?_perm distinct keys, Registry.linkSupertypes, Table.keys_map_values]
    exact Registry.resolved_link_supertypes (settled.lend_members lent) held listed supertype
  refine ⟨current, fun target resolved => ?_, fun unresolved => ?_⟩
  · have means := (Reference.resolve?_eq_some_iff distinct).mp (current.symm.trans resolved)
    exact ⟨means.mem, means⟩
  · exact (Reference.resolve?_eq_none_iff distinct).mp (current.symm.trans unresolved)

/-- A class whose supertype is declared in a mixin and lent to another class. -/
def lentBase : List SourceFile :=
  [{ path := "a.js"
     comments := [⟨"/** @lends Target */", { startLine := 1, endLine := 1 }⟩]
     declarations :=
      [.node
        { kind := .objectLiteral, name := some "mixin", span := { startLine := 2, endLine := 4 } }
        [.node { kind := .classDecl, name := some "Base", span := { startLine := 3, endLine := 3 } }
          []],
       .node { kind := .classDecl, name := some "Target", span := { startLine := 5, endLine := 5 } }
        [],
       .node
        { kind := .classDecl, name := some "Child", span := { startLine := 6, endLine := 6 },
          supertypes := ["Base"] } []] }]

/-- The class is linked to its supertype where this was moved to. The base is linked at the path
that it has after the lending, not where it was declared. -/
theorem lent_base_linked :
    ∃ output entity, run lentBase {} = .ok output ∧
      output.graph.live.get? ⟨[⟨.static, "Child"⟩]⟩ = some entity ∧
      ⟨.extending, "Base", some ⟨[⟨.static, "Target"⟩, ⟨.static, "Base"⟩]⟩⟩ ∈ entity.relations ∧
      Reference.resolve? output.graph.live.keys "Base" =
        some ⟨[⟨.static, "Target"⟩, ⟨.static, "Base"⟩]⟩ ∧
      ⟨[⟨.static, "Target"⟩, ⟨.static, "Base"⟩]⟩ ∈ output.graph.live.keys := by
  have made : (run lentBase {}).toOption.any (fun output =>
      (output.graph.live.get? ⟨[⟨.static, "Child"⟩]⟩).any fun entity =>
        decide (⟨.extending, "Base", some ⟨[⟨.static, "Target"⟩, ⟨.static, "Base"⟩]⟩⟩ ∈
          entity.relations)) = true := by cbv
  obtain ⟨output, built, passes⟩ := exists_ok_of_any made
  simp only [Option.any_eq_true, decide_eq_true_eq] at passes
  obtain ⟨entity, found, listed⟩ := passes
  obtain ⟨current, live, _⟩ := supertypes_linked built found listed rfl
  exact ⟨output, entity, built, found, listed, current.symm, (live _ rfl).1⟩

end Build

end DocGraph
