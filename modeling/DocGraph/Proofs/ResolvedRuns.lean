import DocGraph.Proofs.RebuildingText
import DocGraph.Proofs.Shadowing

/-!
# The registry behind a graph

A build that gives a graph has placed its drafts and resolved their registry without a fault. The
graph is made of the resolved registry: the same paths are live, each with the same entity but for
its member list, and the same entities are superseded. So what is proved about the registry that a
resolution leaves is carried over to the graph by the lemmas of this module.

The other direction serves runs on given files. Whether the drafts can be placed and resolved, and
whether something holds of the placed registry, is computed; that there is a graph then follows.
-/

namespace DocGraph

namespace Registry

/-- A resolution without a fault ends in the lent registry with its supertypes linked. Of the steps
of a resolution only the lending can fail. -/
theorem resolve_eq {registry : Registry} (finished : registry.resolve.failure = none) :
    registry.settleVisibility.lendMembers.failure = none ∧
      registry.resolve.registry =
        registry.settleVisibility.lendMembers.registry.linkSupertypes := by
  unfold resolve at finished ⊢
  dsimp only at finished ⊢
  split at finished
  · cases finished
  · next redirected outcome => rw [outcome]; exact ⟨rfl, rfl⟩

end Registry

/-- An entity of a graph is one of those it was made of, but for its member list. The graph sorts
the entities by their paths, which does not matter to a look-up. -/
theorem Graph.get?_of_of_entities {live : Table NamePath Entity} {superseded : List Entity}
    {info : ModuleInfo} {order : MemberOrder} {path : NamePath} {entity : Entity}
    (found : (ofEntities live superseded info order).live.get? path = some entity) :
    ∃ before, live.get? path = some before ∧
      entity = { before with members := entity.members } := by
  obtain ⟨before, held, rfl⟩ := Table.get?_map_values_eq_some_iff.mp found
  have present := (Table.entries_sort_values_perm _ _).mem_iff.mp (Table.get?_eq_some_iff.mp held)
  exact ⟨before, Table.get?_eq_some_iff.mpr present, rfl⟩

namespace Build

/-- A build that places its drafts and gives a graph resolves their registry without a fault, and
makes the graph of the result.

Proof: the build goes through the same drafts, and every other outcome of it is a fault. -/
theorem run_resolves {files : List SourceFile} {config : Config} {output : BuildOutput}
    {placed : Registry}
    (assigned : Registry.assign
      ((normalized (ordered files config) config).map NormalizedFile.drafts) = .ok placed)
    (built : run files config = .ok output) :
    placed.resolve.failure = none ∧ ∃ info, output.graph = .ofEntities
      placed.resolve.registry.live placed.resolve.registry.superseded info config.memberOrder := by
  unfold run at built
  dsimp only at built
  split at built
  · cases built
  · unfold assemble at built
    rw [assigned] at built
    dsimp only at built
    split at built
    · cases built
    · next resolved warnings outcome =>
      cases built
      rw [outcome]
      exact ⟨rfl, _, rfl⟩

/-- A build of different files gives a graph when its drafts are placed and their registry is
resolved without a fault. Whether this is so, and whether the placed registry has a property, is
found out by one computation, which does not make the graph.

Proof: the only faults of a build are repeated paths, faults of placing and faults of resolving, and
all three are excluded. -/
theorem exists_run (files : List SourceFile) (config : Config) (holds : Registry → Prop)
    [DecidablePred holds]
    (different : firstRepeated? [] ((ordered files config).map SourceFile.path) = none)
    (checked : (Registry.assign
      ((normalized (ordered files config) config).map NormalizedFile.drafts)).toOption.any
        (fun placed => decide (placed.resolve.failure.isNone = true ∧ holds placed)) = true) :
    ∃ placed output, Registry.assign
        ((normalized (ordered files config) config).map NormalizedFile.drafts) = .ok placed ∧
      run files config = .ok output ∧ holds placed := by
  obtain ⟨placed, assigned, passes⟩ := exists_ok_of_any checked
  obtain ⟨finished, property⟩ := of_decide_eq_true passes
  have succeeds : ∃ output, run files config = .ok output := by
    unfold run assemble
    simp only [different, assigned]
    split
    · next stopped warnings fault outcome =>
      rw [outcome] at finished
      cases finished
    · exact ⟨_, rfl⟩
  obtain ⟨output, built⟩ := succeeds
  exact ⟨placed, output, assigned, built, property⟩

section Graph

variable {files : List SourceFile} {config : Config} {output : BuildOutput} {placed : Registry}
  {path : NamePath}

/-- What is live in the graph of a build is what is live in the resolved registry. Only the order of
the paths can differ. -/
theorem mem_keys_of_run (assigned : Registry.assign
      ((normalized (ordered files config) config).map NormalizedFile.drafts) = .ok placed)
    (built : run files config = .ok output) :
    path ∈ output.graph.live.keys ↔ path ∈ placed.resolve.registry.live.keys := by
  obtain ⟨_, info, made⟩ := run_resolves assigned built
  rw [made]
  exact (Graph.keys_of_entities_perm _ _ _ _).mem_iff

/-- An entity of the graph of a build is the one of the resolved registry, but for its member
list. -/
theorem get?_of_run {entity : Entity} (assigned : Registry.assign
      ((normalized (ordered files config) config).map NormalizedFile.drafts) = .ok placed)
    (built : run files config = .ok output) (live : output.graph.live.get? path = some entity) :
    ∃ before, placed.resolve.registry.live.get? path = some before ∧
      entity = { before with members := entity.members } := by
  obtain ⟨_, info, made⟩ := run_resolves assigned built
  rw [made] at live
  exact Graph.get?_of_of_entities live

/-- What is live in the resolved registry is live in the graph of a build, the same but for its
member list. -/
theorem exists_entity_of_resolved {entity : Entity} (assigned : Registry.assign
      ((normalized (ordered files config) config).map NormalizedFile.drafts) = .ok placed)
    (built : run files config = .ok output)
    (held : placed.resolve.registry.live.get? path = some entity) :
    ∃ members, output.graph.live.get? path = some { entity with members := members } := by
  have present := (mem_keys_of_run assigned built).mpr (Table.mem_keys_of_get? held)
  obtain ⟨⟨_, listed⟩, entry, rfl⟩ := List.mem_map.mp present
  have live := Table.get?_eq_some_iff.mpr entry
  obtain ⟨before, again, same⟩ := get?_of_run assigned built live
  rw [held] at again
  cases again
  exact ⟨listed.members, same ▸ live⟩

/-- What is live in the resolved registry is live in the graph of a build. -/
theorem exists_of_resolved {owner : SourceOrder} (assigned : Registry.assign
      ((normalized (ordered files config) config).map NormalizedFile.drafts) = .ok placed)
    (built : run files config = .ok output)
    (stands : placed.resolve.registry.LiveAt path owner) :
    ∃ entity, output.graph.live.get? path = some entity ∧ entity.order = owner := by
  obtain ⟨before, held, same⟩ := stands
  obtain ⟨_, live⟩ := exists_entity_of_resolved assigned built held
  exact ⟨_, live, same⟩

end Graph

end Build

end DocGraph
