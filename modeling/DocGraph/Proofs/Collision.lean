import DocGraph.Proofs.Circle
import DocGraph.Proofs.Places

/-!
# Two declarations never contend for one path without an order

A registry refuses an entity only when the path is held by one with the same place in the source
order. The places of all drafts of a build are different, and no operation of the registry changes
the place of an entity or brings a second one with it. So neither placing the drafts nor lending
members can meet such a pair, and a build ends with a graph, with a file that was given twice, or
with members that are lent in a circle.

The invariant is that the places of what the registry holds, together with the places of what is
still to be registered, are distinct. It is stated through the census, which counts live and
superseded entities alike.

The places of the drafts are distinct because each file counts its declarations and comments with
one counter, and files have places of their own. The counters have 32 bits, which is the only reason
for the two bounds of the main result.
-/

namespace DocGraph

namespace Registry

mutual

/-- Drafts at places of their own can be placed. Its own place, those of the drafts below it and
those of everything registered so far have to be different from each other.

Proof: a registration is refused only over a live entity at the same place, and the place of the
draft is not among those of the registry. The census grows by one draft with every registration, so
what is asked for holds again for the drafts below. -/
theorem place_succeeds : ∀ (tree : Tree Draft) {registry : Registry} (container : NamePath)
    (scopes : List NamePath),
    (registry.census Entity.order + Draft.treeCensus Entity.order tree).Nodup →
      ∃ next, place registry container scopes tree = .ok next
  | .node draft nested, registry, container, scopes, distinct => by
    rw [Draft.tree_census_node, Multiset.add_cons, Multiset.nodup_cons] at distinct
    obtain ⟨fresh, remaining⟩ := distinct
    have free : (draft.entity.movedTo (registry.pathFor draft container scopes)).order ∉
        registry.living Entity.order :=
      fun held => fresh (Multiset.mem_add.mpr (.inl (Multiset.mem_add.mpr (.inl held))))
    obtain ⟨next, live, inserted⟩ := insert_succeeds draft.directives free
    unfold place
    dsimp only
    rw [inserted]
    cases live with
    | false => exact ⟨_, rfl⟩
    | true =>
      apply place_all_succeeds nested
      rw [census_insert order_lasting inserted, Multiset.cons_add, Multiset.nodup_cons]
      exact ⟨fresh, remaining⟩

/-- Several drafts at places of their own can be placed. The first tree is placed, and the census of
the registry is then what it was together with that of the tree. So the premise of the rest is the
premise of the whole, differently grouped. -/
theorem place_all_succeeds : ∀ (forest : List (Tree Draft)) {registry : Registry}
    (container : NamePath) (scopes : List NamePath),
    (registry.census Entity.order + Draft.census Entity.order forest).Nodup →
      ∃ next, placeAll registry container scopes forest = .ok next
  | [], registry, _, _, _ => ⟨registry, rfl⟩
  | first :: rest, registry, container, scopes, distinct => by
    rw [Draft.census_cons, ← Multiset.add_assoc] at distinct
    have head := Multiset.nodup_of_le (Multiset.le_add_right _ _) distinct
    obtain ⟨inner, placed⟩ := place_succeeds first container scopes head
    rw [← census_place order_lasting first placed] at distinct
    obtain ⟨next, placedRest⟩ := place_all_succeeds rest container scopes distinct
    refine ⟨next, ?_⟩
    rw [placeAll, placed]
    exact placedRest

end

/-- A resolution fails only because members are lent in a circle. Of the three faults a resolution
knows only one, and a contention between two entities would need one place for both of them. -/
theorem resolve_failure {registry : Registry} {fault : BuildError}
    (distinct : (registry.census Entity.order).Nodup)
    (failed : registry.resolve.failure = some fault) : ∃ circle, fault = .lendsCycle circle := by
  have settled : (registry.settleVisibility.living Entity.order).Nodup := by
    refine Multiset.nodup_of_le (living_le_census _) ?_
    rwa [census_settle_visibility order_lasting]
  have outcome := lend_members_cases settled
  unfold resolve at failed
  dsimp only at failed
  split at failed
  · next stopped error ended =>
    rw [ended] at outcome
    obtain ⟨_, done⟩ | ⟨_, _, _, _, circle, _, _, _, _, fails⟩ := outcome
    · cases done
    · cases failed
      exact ⟨circle, Option.some.inj fails⟩
  · cases failed

end Registry

namespace Build

/-- Few declarations and comments keep every counter in its range. A declaration or a comment uses
the counter of its file at most once, so as many of them as there are numbers are still told
apart. -/
theorem counted_of_few {files : List SourceFile} {config : Config}
    (fewFiles : files.length < UInt32.size)
    (fewPlaces : ∀ file ∈ files,
      (Tree.forestPreorder file.declarations).length + file.comments.length < UInt32.size) :
    Counted files config :=
  ⟨fewFiles, fun file present =>
    Nat.lt_of_le_of_lt (file.place_count_le config) (fewPlaces file present)⟩

/-- The drafts of a counted build can be placed, and then stand at different places. The registry
starts out empty, and so its census with that of the drafts is that of the drafts alone. -/
theorem assign_succeeds {files : List SourceFile} {config : Config}
    (counted : Counted files config) :
    ∃ registry,
      Registry.assign ((normalized files config).map NormalizedFile.drafts) = .ok registry ∧
        (registry.census Entity.order).Nodup := by
  have distinct := census_order_nodup counted
  have start : (Registry.empty.census Entity.order + Draft.census Entity.order
      ((normalized files config).map NormalizedFile.drafts).flatten).Nodup := by
    simpa [Registry.census, Registry.empty, Table.empty, Table.values] using distinct
  obtain ⟨registry, assigned⟩ := Registry.place_all_succeeds _ .root [] start
  exact ⟨registry, assigned, Registry.census_assign Registry.order_lasting assigned ▸ distinct⟩

/-- A build that places its drafts ends with a graph, with a file that was given twice, or with
members that are lent in a circle. The three outcomes are not described further here: which file was
given twice, and which members are lent in a circle, is stated elsewhere. -/
theorem run_outcome {files : List SourceFile} {config : Config} {placed : Registry}
    (assigned : Registry.assign
      ((normalized (ordered files config) config).map NormalizedFile.drafts) = .ok placed)
    (distinct : (placed.census Entity.order).Nodup) :
    (∃ output, run files config = .ok output) ∨
      (∃ path, run files config = .error (.duplicateSource path)) ∨
      ∃ circle, run files config = .error (.lendsCycle circle) := by
  have stops (fault : BuildError) : placed.resolve.failure = some fault →
      ∃ circle, fault = .lendsCycle circle := Registry.resolve_failure distinct
  unfold run
  dsimp only
  split
  · exact .inr (.inl ⟨_, rfl⟩)
  · unfold assemble
    rw [assigned]
    dsimp only
    split
    · next fault outcome =>
      rw [outcome] at stops
      obtain ⟨circle, rfl⟩ := stops fault rfl
      exact .inr (.inr ⟨circle, rfl⟩)
    · exact .inl ⟨_, rfl⟩

/-- No build of fewer than 2^32 files, each with fewer than 2^32 declarations and comments, fails
over two declarations that cannot be told apart. All drafts that are placed, nested ones included,
stand at different places; placing them succeeds; at no step of lending do two entities, live or
superseded, stand at one place; and lending fails only in a circle. So a build gives a graph, or a
file was given twice, or members are lent in a circle.

Proof: few declarations keep the counters in range, and then the drafts have places of their own.
Placing succeeds with a census of distinct places. The census of places is kept by settling and by
every elementary step, so it is distinct wherever lending gets to; a refused registration would
contradict that. What is left of the faults is a circle. -/
theorem run_never_collides {files : List SourceFile} {config : Config}
    (fewFiles : files.length < 2 ^ 32)
    (fewPlaces : ∀ file ∈ files,
      (Tree.forestPreorder file.declarations).length + file.comments.length < 2 ^ 32) :
    ((Tree.forestPreorder ((normalized (ordered files config) config).map
      NormalizedFile.drafts).flatten).map fun draft => draft.entity.order).Nodup ∧
    (∃ placed,
      Registry.assign ((normalized (ordered files config) config).map NormalizedFile.drafts) =
        .ok placed ∧
      (∀ reached, Registry.Steps placed.settleVisibility reached →
        ((reached.live.values ++ reached.superseded).map Entity.order).Nodup) ∧
      ∀ fault, placed.resolve.failure = some fault → ∃ circle, fault = .lendsCycle circle) ∧
    ((∃ output, run files config = .ok output) ∨
      (∃ path, run files config = .error (.duplicateSource path)) ∨
      ∃ circle, run files config = .error (.lendsCycle circle)) := by
  have counted : Counted (ordered files config) config :=
    (counted_of_few fewFiles fewPlaces).ordered
  obtain ⟨placed, assigned, distinct⟩ := assign_succeeds counted
  refine ⟨Multiset.coe_nodup.mp (census_order_nodup counted), ⟨placed, assigned, ?_, ?_⟩,
    run_outcome assigned distinct⟩
  · intro reached steps
    have kept : (reached.census Entity.order).Nodup := by
      rwa [steps.census_eq Registry.order_lasting,
        Registry.census_settle_visibility Registry.order_lasting]
    rw [List.map_append, ← Multiset.coe_nodup, ← Multiset.coe_add]
    exact kept
  · intro fault failed
    exact Registry.resolve_failure distinct failed

/-- The sample is small enough, and so its drafts are told apart. The bounds are checked on the
sample by evaluation, and the theorem gives the rest. -/
theorem sample_never_collides :
    sample.length < 2 ^ 32 ∧
    (∀ file ∈ sample,
      (Tree.forestPreorder file.declarations).length + file.comments.length < 2 ^ 32) ∧
    ((Tree.forestPreorder ((normalized (ordered sample {}) {}).map
      NormalizedFile.drafts).flatten).map fun draft => draft.entity.order).Nodup ∧
    ∃ placed, Registry.assign ((normalized (ordered sample {}) {}).map NormalizedFile.drafts) =
      .ok placed := by
  have fewFiles : sample.length < 2 ^ 32 := by decide
  have fewPlaces : ∀ file ∈ sample,
      (Tree.forestPreorder file.declarations).length + file.comments.length < 2 ^ 32 := by
    decide
  have apart := @run_never_collides sample {} fewFiles fewPlaces
  obtain ⟨distinct, ⟨placed, assigned, _⟩, _⟩ := apart
  exact ⟨fewFiles, fewPlaces, distinct, placed, assigned⟩

end Build

end DocGraph
