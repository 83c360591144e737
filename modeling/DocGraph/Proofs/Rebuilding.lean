import DocGraph.Proofs.Collision
import DocGraph.Proofs.Nesting

/-!
# Rebuilding a graph from its snapshot

A graph depends on its live entities only up to their arrangement and their member lists: it sorts
them by their place in the source and computes the lists and all indexes anew. Entities at different
places have only one sorted arrangement, so a snapshot, which holds the same entities in another
arrangement, gives the same graph again.

The statement is about every completed build, with either member order, with containers that are
missing from the graph, and with private and superseded entities.

So the proof has two halves. That the snapshot holds the same entities is nesting, and asks that
entities stand where they are held. That the same entities give the same graph is sorting, and asks
that their places differ. A completed build has both, by coherence and by the count of places.
-/

namespace DocGraph

namespace SourceOrder

/-- Comparing places is transitive. -/
instance : Std.TransCmp SourceOrder.compare :=
  inferInstanceAs (Std.TransCmp (compareLex (compareOn SourceOrder.file)
    (compareOn SourceOrder.sequence)))

/-- Of any two places, one comes no later than the other. Sorting needs it in order to give an
ascending list. -/
theorem up_to_total (left right : SourceOrder) :
    (left.upTo right || right.upTo left) = true := by
  have swapped : SourceOrder.compare left right = (SourceOrder.compare right left).swap :=
    Std.OrientedCmp.eq_swap
  rw [upTo, upTo, swapped]
  cases SourceOrder.compare right left <;> rfl

/-- What comes no later than a place comes no later than any place after it. -/
theorem up_to_trans {left middle right : SourceOrder} (first : left.upTo middle = true)
    (second : middle.upTo right = true) : left.upTo right = true :=
  Std.TransCmp.isLE_trans first second

/-- Places of which neither comes later are the same. It leaves one sorted arrangement only. -/
theorem up_to_antisymm {left right : SourceOrder} (forth : left.upTo right = true)
    (back : right.upTo left = true) : left = right := by
  have equal : SourceOrder.compare left right = .eq := Std.OrientedCmp.isLE_antisymm forth back
  exact eq_of_compare_eq equal

end SourceOrder

namespace Graph

/-- Entries that agree but for their member lists agree in everything that does not look at these
lists. Sorting, indexing and the choice of public paths are all blind in this sense. -/
theorem map_eq_of_unlist {α : Type} {left right : List (NamePath × Entity)}
    {trait : NamePath × Entity → α} (same : left.map unlist = right.map unlist)
    (blind : ∀ entry, trait (unlist entry) = trait entry) : left.map trait = right.map trait := by
  have listed := congrArg (List.map trait) same
  simpa only [List.map_map, Function.comp_def, blind] using listed

/-- A graph depends only on the sorted entries, and not on their member lists. Everything in a graph
is computed from the sorted entries, and each part is shown to be blind to the lists. -/
theorem of_entities_congr {left right : Table NamePath Entity}
    (same : (left.sortValues earlier).entries.map unlist =
      (right.sortValues earlier).entries.map unlist)
    (superseded : List Entity) (info : ModuleInfo) (order : MemberOrder) :
    ofEntities left superseded info order = ofEntities right superseded info order := by
  have held : containers (left.sortValues earlier) = containers (right.sortValues earlier) :=
    congrArg Table.group (map_eq_of_unlist same fun _ => rfl)
  have listed : (left.sortValues earlier).mapValues (fun path entity =>
        { entity with members := (((containers (right.sortValues earlier)).mapValues
          fun _ => orderMembers order).get? path).getD [] }) =
      (right.sortValues earlier).mapValues (fun path entity =>
        { entity with members := (((containers (right.sortValues earlier)).mapValues
          fun _ => orderMembers order).get? path).getD [] }) :=
    Table.ext (map_eq_of_unlist same fun _ => rfl)
  simp only [ofEntities, held, listed]

/-- Sorted entries come in the order of their places. It holds of any table, since the order is
total. -/
theorem pairwise_sort_values (live : Table NamePath Entity) :
    (live.sortValues earlier).entries.Pairwise fun left right =>
      earlier left.2 right.2 = true := by
  apply List.pairwise_mergeSort
  · intro first second third
    exact SourceOrder.up_to_trans
  · intro first second
    exact SourceOrder.up_to_total first.2.order second.2.order

/-- Entities at different places have one sorted arrangement, whatever arrangement they come in and
whether or not they list their members.

Proof: both arrangements are ascending and have the same entries, and entries whose places are the
same are equal, as places differ. -/
theorem map_unlist_sort_values {left right : Table NamePath Entity}
    (same : (left.entries.map unlist).Perm (right.entries.map unlist))
    (distinct : (right.values.map Entity.order).Nodup) :
    (left.sortValues earlier).entries.map unlist =
      (right.sortValues earlier).entries.map unlist := by
  have sorted (live : Table NamePath Entity) :
      ((live.sortValues earlier).entries.map unlist).Pairwise fun first second =>
        earlier first.2 second.2 = true :=
    List.pairwise_map.mpr (pairwise_sort_values live)
  have arranged (live : Table NamePath Entity) :
      ((live.sortValues earlier).entries.map unlist).Perm (live.entries.map unlist) :=
    (live.entries_sort_values_perm earlier).map unlist
  have apart : ((right.entries.map unlist).map fun entry => entry.2.order).Nodup := by
    rw [Table.values, List.map_map] at distinct
    rw [List.map_map]
    exact distinct
  refine List.Perm.eq_of_pairwise ?_ (sorted left) (sorted right)
    ((arranged left).trans (same.trans (arranged right).symm))
  intro first second inLeft inRight forth back
  have inFirst := same.mem_iff.mp ((arranged left).mem_iff.mp inLeft)
  have inSecond := (arranged right).mem_iff.mp inRight
  exact List.inj_on_of_nodup_map apart inFirst inSecond (SourceOrder.up_to_antisymm forth back)

/-- The live entities of a graph are those it was made of, but for their arrangement and their
member lists. Making a graph loses no entity and adds none. -/
theorem map_unlist_of_entities_perm (live : Table NamePath Entity) (superseded : List Entity)
    (info : ModuleInfo) (order : MemberOrder) :
    ((ofEntities live superseded info order).live.entries.map unlist).Perm
      (live.entries.map unlist) := by
  have relisted : (ofEntities live superseded info order).live.entries.map unlist =
      (live.sortValues earlier).entries.map unlist := by
    simp [ofEntities, Table.mapValues, Function.comp_def, unlist, Entity.unlisted]
  rw [relisted]
  exact (live.entries_sort_values_perm earlier).map unlist

/-- Every graph holds the same as itself. -/
theorem same_self (graph : Graph) : graph.same graph = true := by
  simp [same, Table.agrees_self, sameMembers]

end Graph

namespace Snapshot

/-- The entries of a flattened snapshot are those of its forest, if no path comes twice. Otherwise
later entries of a path would replace the earlier ones. -/
theorem entries_flatten {snapshot : Snapshot}
    (distinct : ((Tree.forestPreorder snapshot.entities).map Prod.fst).Nodup) :
    snapshot.flatten.entries = Tree.forestPreorder snapshot.entities :=
  Table.entries_of_list distinct

/-- The snapshot of a graph that was made of standing entities at different places gives this graph
again.

Proof: flattening the snapshot gives the live entities of the graph without their member lists,
which are those that it was made of, in another arrangement. Superseded entities, information and
member order are taken over as they are. -/
theorem to_graph_of_graph {live : Table NamePath Entity} {superseded : List Entity}
    {info : ModuleInfo} {order : MemberOrder}
    (stands : ∀ {path entity}, live.get? path = some entity → entity.StandsAt path)
    (distinct : (live.values.map Entity.order).Nodup) :
    (ofGraph (.ofEntities live superseded info order)).toGraph =
      .ofEntities live superseded info order := by
  have nested := Graph.nested_of_entities stands superseded info order
  have forest := forest_preorder_of_graph_perm nested
  have keys : ((Tree.forestPreorder
      (ofGraph (.ofEntities live superseded info order)).entities).map Prod.fst).Nodup := by
    have listed := forest.map Prod.fst
    rw [List.map_map] at listed
    exact listed.nodup_iff.mpr (Graph.ofEntities live superseded info order).live.distinct
  have same : ((ofGraph (.ofEntities live superseded info order)).flatten.entries.map
      unlist).Perm (live.entries.map unlist) := by
    rw [entries_flatten keys]
    have twice := forest.map unlist
    rw [List.map_map] at twice
    exact twice.trans (Graph.map_unlist_of_entities_perm live superseded info order)
  exact Graph.of_entities_congr (Graph.map_unlist_sort_values same distinct) superseded info order

end Snapshot

namespace Build

/-- The graph of a completed build was made of standing entities at different places, so its
snapshot gives it again. Members that were lent have been checked by coherence through every
step. -/
theorem to_graph_of_graph_output {files : List SourceFile} {config : Config}
    {output : BuildOutput} (built : run files config = .ok output)
    (counted : Counted files config) :
    (Snapshot.ofGraph output.graph).toGraph = output.graph := by
  obtain ⟨placed, redirected, info, assigned, steps, made⟩ := run_stages built
  have coherent := Registry.coherent_of_stages assigned steps
  have places := Registry.census_of_stages Registry.order_lasting assigned steps
  have distinct := census_order_nodup counted.ordered
  rw [← places, Registry.census, Multiset.nodup_add] at distinct
  rw [made]
  exact Snapshot.to_graph_of_graph coherent.live (Multiset.coe_nodup.mp distinct.1)

/-- The snapshot of a completed build is lossless. Whatever the files and the configuration, the
graph that is made of the snapshot is the graph of the build, in every component and in every list,
and so it also counts as the same graph.

Proof: the equality is the fact before, and every graph holds the same as itself. -/
theorem rebuilt_from_snapshot {files : List SourceFile} {config : Config} {output : BuildOutput}
    (built : run files config = .ok output) (counted : Counted files config) :
    (Snapshot.ofGraph output.graph).toGraph = output.graph ∧
      (Snapshot.ofGraph output.graph).toGraph.same output.graph = true := by
  have rebuilt := to_graph_of_graph_output built counted
  refine ⟨rebuilt, ?_⟩
  rw [rebuilt]
  exact Graph.same_self output.graph

/-- The snapshot of the sample is lossless, although one of its containers is missing from
the graph and two of its entities are superseded. -/
theorem sample_rebuilt_from_snapshot :
    ∃ output, run sample {} = .ok output ∧ Counted sample {} ∧
      (Snapshot.ofGraph output.graph).toGraph = output.graph ∧
      (Snapshot.ofGraph output.graph).toGraph.same output.graph = true := by
  obtain ⟨output, built⟩ := exists_output_sample
  have counted : Counted sample {} := counted_of_few (by decide) (by decide)
  exact ⟨output, built, counted, rebuilt_from_snapshot built counted⟩

end Build

end DocGraph
