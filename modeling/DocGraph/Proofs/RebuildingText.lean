import DocGraph.Proofs.Rebuilding
import DocGraph.Proofs.TextHeight

/-!
# Rebuilding a graph from its text

The text of a graph is meant to be as lossless as its snapshot. It is not, in two ways. The first
binding of a path is not written, so a path that does not start with a static segment comes back as
another path, and two live paths that differ in nothing else fall together. And a reader allows only
so many open brackets, so a graph whose entities nest too deep is refused.

These are the only ways. The graph of a completed build comes back from its text exactly when all
written paths have static heads and the text is not too high. No graph with at most sixty live
entities is too high.

In one direction nothing new has to be shown: where grounding changes nothing, the text holds the
snapshot. In the other direction the graph that was read is only known to hold the same as the one
that was written, so it has to be seen from the comparison alone that the paths have static heads.
-/

namespace DocGraph

/-- Member lists are left alone by moves, relations and visibility. It lets the count of entities be
used for member lists. -/
theorem Entity.members_lasting : Entity.Lasting Entity.members :=
  ⟨fun _ _ => rfl, fun _ _ => rfl, fun _ _ => rfl⟩

/-- The drafts of a file list no members. Neither code nor comments list members. -/
theorem SourceFile.members_of_mem_census (file : SourceFile) (fileIndex : UInt32)
    (config : Config) :
    ∀ members ∈ Draft.census Entity.members (file.normalize fileIndex config).drafts,
      members = [] := by
  intro members present
  simp only [normalize, Draft.census_append, Multiset.mem_add] at present
  rcases present with declared | virtual
  · have given := Multiset.mem_of_le
      (Draft.census_declared_le Draft.members_inherited Site.members_draft _) declared
    simp only [Draft.siteCensus, Multiset.mem_coe, List.mem_map] at given
    obtain ⟨_, _, same⟩ := given
    exact same.symm
  · simp only [Draft.census, virtualDrafts, Tree.forest_preorder_eq_flat_map, List.flatMap_map,
      Tree.preorder, Tree.forestPreorder, Multiset.mem_coe, List.mem_map, List.mem_flatMap,
      List.mem_singleton] at virtual
    obtain ⟨draft, ⟨⟨⟨line, doc, name, tag, kind⟩, sequence⟩, _, rfl⟩, rfl⟩ := virtual
    exact congrArg Prod.snd (Draft.fixed_part_of_definition doc name tag kind _ _)

namespace Build

/-- No superseded entity of a build lists members. A superseded entity has the member list of some
draft. So writing no member lists loses nothing for them. -/
theorem members_of_superseded {files : List SourceFile} {config : Config}
    {output : BuildOutput} (built : run files config = .ok output) :
    ∀ entity ∈ output.graph.superseded, entity.members = [] := by
  obtain ⟨placed, redirected, info, assigned, steps, made⟩ := run_stages built
  intro entity present
  rw [made] at present
  have listed : entity.members ∈ redirected.linkSupertypes.census Entity.members :=
    Multiset.mem_add.mpr (.inr (Multiset.mem_coe.mpr (List.mem_map_of_mem present)))
  rw [Registry.census_of_stages Entity.members_lasting assigned steps] at listed
  simp only [Draft.census, Tree.forest_preorder_eq_flat_map, Multiset.mem_coe, List.mem_map,
    List.mem_flatMap, List.mem_flatten] at listed
  obtain ⟨draft, ⟨tree, ⟨forest, ⟨part, inParts, rfl⟩, inForest⟩, inTree⟩, same⟩ := listed
  obtain ⟨⟨file, index⟩, _, rfl⟩ := List.mem_map.mp inParts
  refine file.members_of_mem_census (UInt32.ofNat index) config _ ?_
  rw [← same, Draft.census, Tree.forest_preorder_eq_flat_map]
  exact Multiset.mem_coe.mpr
    (List.mem_map_of_mem (List.mem_flatMap.mpr ⟨tree, inForest, inTree⟩))

end Build

namespace Graph

/-- The paths that are written for a graph, live and superseded entities taken together. Paths of
containers that are missing are among them, as recorded parents. -/
def writtenPaths (graph : Graph) : List NamePath :=
  (graph.live.values ++ graph.superseded).flatMap Entity.writtenPaths

/-- The paths that are written for a graph are those of the entities it was made of. Member lists
are not written, so filling them in adds no path. -/
theorem mem_written_paths_of_entities {live : Table NamePath Entity} {superseded : List Entity}
    {info : ModuleInfo} {order : MemberOrder} {path : NamePath} :
    path ∈ (ofEntities live superseded info order).writtenPaths ↔
      path ∈ (live.values ++ superseded).flatMap Entity.writtenPaths := by
  have entries (table : Table NamePath Entity) :
      table.values.flatMap Entity.writtenPaths =
        (table.entries.map unlist).flatMap fun entry => entry.2.writtenPaths := by
    rw [Table.values, List.flatMap_map, List.flatMap_map]
    rfl
  have same := (map_unlist_of_entities_perm live superseded info order).flatMap_right
    fun entry => entry.2.writtenPaths
  rw [← entries, ← entries] at same
  rw [writtenPaths, List.flatMap_append, List.flatMap_append, List.mem_append, List.mem_append,
    same.mem_iff]
  rfl

/-- The live paths of a graph are those of the entities it was made of. -/
theorem keys_of_entities_perm (live : Table NamePath Entity) (superseded : List Entity)
    (info : ModuleInfo) (order : MemberOrder) :
    (ofEntities live superseded info order).live.keys.Perm live.keys := by
  have same := (map_unlist_of_entities_perm live superseded info order).map Prod.fst
  rwa [List.map_map, List.map_map] at same

/-- A graph that holds the same as one made of grounded entities has static heads only.

Proof: the comparison finds each entity of the one graph in the other, but for member lists, and a
grounded entity has static heads in all its paths. -/
theorem heads_of_same {graph : Graph} {live : Table NamePath Entity} {superseded : List Entity}
    {info : ModuleInfo} {order : MemberOrder}
    (grounded : ∀ entry ∈ live.entries, entry.2.grounded = entry.2)
    (lost : ∀ entity ∈ superseded, entity.grounded = entity)
    (same : (ofEntities live superseded info order).same graph = true) :
    ∀ path ∈ graph.writtenPaths, path.withStaticHead = path := by
  simp only [Graph.same, Bool.and_eq_true, beq_iff_eq] at same
  have bare (entity : Entity) (fixed : entity.grounded = entity) :
      entity.unlisted.grounded = entity.unlisted := by
    have none : entity.unlisted = entity := by
      rw [← fixed]
      rfl
    rw [none, fixed]
  intro path written
  obtain ⟨entity, present, listed⟩ := List.mem_flatMap.mp written
  refine (Entity.grounded_unlisted_iff entity).mp ?_ path listed
  rcases List.mem_append.mp present with alive | dead
  · obtain ⟨held, entry⟩ := Table.mem_values_iff.mp alive
    have rebuilt := Table.mem_entries_of_agrees same.1.1.1.1.1.2 entry
    have unlisted := (map_unlist_of_entities_perm live superseded info order).mem_iff.mp
      (List.mem_map_of_mem rebuilt)
    obtain ⟨origin, inside, alike⟩ := List.mem_map.mp unlisted
    have record : origin.2.unlisted = entity.unlisted := congrArg Prod.snd alike
    rw [← record]
    exact bare origin.2 (grounded origin inside)
  · have kept : superseded = graph.superseded := same.2
    exact bare entity (lost entity (kept ▸ dead))

/-- The graph that is read from the text of a graph, if the text is not too high. It joins what is
known of texts and of snapshots. -/
theorem of_text?_to_text (graph : Graph) :
    ofText? graph.toText =
      if (Snapshot.ofGraph graph).toJson.height ≤ Json.depthLimit then
        some (Snapshot.ofGraph graph).grounded.toGraph else none := by
  rw [ofText?, toText, Snapshot.parse?_render]
  split <;> rfl

/-- A graph that comes back from its text as the same graph has static heads only and is not too
high. What was read is made of grounded entities, whatever was written. -/
theorem heads_of_of_text? {graph again : Graph} (reads : ofText? graph.toText = some again)
    (same : again.same graph = true) :
    (∀ path ∈ graph.writtenPaths, path.withStaticHead = path) ∧
      (Snapshot.ofGraph graph).toJson.height ≤ Json.depthLimit := by
  rw [of_text?_to_text] at reads
  split at reads
  · next low =>
    cases reads
    refine ⟨heads_of_same (Snapshot.grounded_of_mem_flatten _) ?_ same, low⟩
    intro entity lost
    obtain ⟨origin, _, rfl⟩ := List.mem_map.mp lost
    exact Entity.grounded_grounded origin
  · cases reads

end Graph

namespace Build

/-- The graph of a completed build comes back from its text when every written path has a static
head and the text is not too high: nothing is changed by grounding, and the snapshot is lossless. It
is stronger than asked for: the graph that is read is equal to the one that was written. -/
theorem of_text?_to_text_of_heads {files : List SourceFile} {config : Config}
    {output : BuildOutput} (built : run files config = .ok output)
    (counted : Counted files config)
    (heads : ∀ path ∈ output.graph.writtenPaths, path.withStaticHead = path)
    (low : (Snapshot.ofGraph output.graph).toJson.height ≤ Json.depthLimit) :
    Graph.ofText? output.graph.toText = some output.graph := by
  have grounded : (Snapshot.ofGraph output.graph).grounded = Snapshot.ofGraph output.graph := by
    refine Snapshot.grounded_of_graph ?_ (members_of_superseded built)
    intro entity present path listed
    exact heads path (List.mem_flatMap.mpr ⟨entity, present, listed⟩)
  rw [Graph.of_text?_to_text, if_pos low, grounded, to_graph_of_graph_output built counted]

/-- The graph of a completed build comes back from its text, as the same graph, exactly when every
path that is written for it has a static head and the text opens no more brackets at once than a
reader allows. Its live paths are all written differently exactly when no two of them differ in the
first binding only.

Proof: from left to right, a graph that is read is made of grounded entities, and if it holds the
same, so is the written one; and reading succeeds on low texts only. From right to left, grounding
changes nothing, and the snapshot gives the graph again. Two paths are written alike exactly if they
agree with static heads, so the lists of both kinds repeat something at the same time. -/
theorem rebuilt_from_text_iff {files : List SourceFile} {config : Config} {output : BuildOutput}
    (built : run files config = .ok output) (counted : Counted files config) :
    ((∃ again, Graph.ofText? output.graph.toText = some again ∧
        again.same output.graph = true) ↔
      (∀ path ∈ output.graph.writtenPaths, path.withStaticHead = path) ∧
        (Snapshot.ofGraph output.graph).toJson.height ≤ Json.depthLimit) ∧
    ((output.graph.live.keys.map NamePath.render).Nodup ↔
      (output.graph.live.keys.map NamePath.withStaticHead).Nodup) := by
  refine ⟨⟨?_, ?_⟩, ?_⟩
  · rintro ⟨again, reads, same⟩
    exact Graph.heads_of_of_text? reads same
  · rintro ⟨heads, low⟩
    exact ⟨output.graph, of_text?_to_text_of_heads built counted heads low,
      Graph.same_self output.graph⟩
  · have distinct := output.graph.live.keys_nodup
    rw [List.nodup_map_iff_inj_on distinct, List.nodup_map_iff_inj_on distinct]
    simp only [NamePath.render_eq_iff]

/-- The registry that the graph of a build is made of. It is evaluated instead of the whole build,
whose indexes would have to be computed as well. -/
def settled? (files : List SourceFile) (config : Config) : Option Registry :=
  match Registry.assign ((normalized (ordered files config) config).map NormalizedFile.drafts) with
  | .error _ => none
  | .ok placed =>
    match placed.resolve with
    | ⟨_, _, some _⟩ => none
    | ⟨resolved, _, none⟩ => some resolved

/-- A build that has an output makes its graph of the settled registry. -/
theorem run_settled {files : List SourceFile} {config : Config} {output : BuildOutput}
    (built : run files config = .ok output) :
    ∃ registry info, settled? files config = some registry ∧
      output.graph = .ofEntities registry.live registry.superseded info config.memberOrder := by
  unfold run assemble at built
  dsimp only at built
  split at built
  · cases built
  · split at built
    · cases built
    · next placed assigned =>
      split at built
      · cases built
      · next resolved warnings outcome =>
        cases built
        have settled : settled? files config = some resolved := by
          rw [settled?, assigned]
          dsimp only
          rw [outcome]
        exact ⟨resolved, _, settled, rfl⟩

/-- Every written path of the sample has a static head, and so the sample comes back from
its text. -/
theorem sample_rebuilt_from_text :
    ∃ output, run sample {} = .ok output ∧ Counted sample {} ∧
      (∀ path ∈ output.graph.writtenPaths, path.withStaticHead = path) ∧
      ∃ again, Graph.ofText? output.graph.toText = some again ∧
        again.same output.graph = true := by
  obtain ⟨output, built⟩ := exists_output_sample
  obtain ⟨registry, info, settled, made⟩ := run_settled built
  have counted : Counted sample {} := counted_of_few (by decide) (by decide)
  have checked : (settled? sample {}).all (fun registry =>
      decide ((∀ path ∈ (registry.live.values ++ registry.superseded).flatMap
          Entity.writtenPaths, path.withStaticHead = path) ∧ registry.live.keys.length ≤ 60)) =
      true := by
    decide +kernel
  rw [settled, Option.all_some, decide_eq_true_eq] at checked
  have heads : ∀ path ∈ output.graph.writtenPaths, path.withStaticHead = path := by
    intro path written
    rw [made, Graph.mem_written_paths_of_entities] at written
    exact checked.1 path written
  have few : output.graph.live.size ≤ 60 := by
    rw [made, ← Table.length_keys, (Graph.keys_of_entities_perm _ _ _ _).length_eq]
    exact checked.2
  exact ⟨output, built, counted, heads,
    (rebuilt_from_text_iff built counted).1.mpr ⟨heads, Snapshot.height_of_graph_le few⟩⟩

/-- One file with two members of one name, the container of the first written with a
leading separator. -/
def misheaded : List SourceFile :=
  [{ path := "a.js"
     comments :=
      [⟨"/** @memberof #Foo */", { startLine := 1, endLine := 1 }⟩,
       ⟨"/** @memberof Foo */", { startLine := 3, endLine := 3 }⟩]
     declarations :=
      [.node
        { kind := .variableDecl, name := some "n", span := { startLine := 2, endLine := 2 } } [],
       .node
        { kind := .variableDecl, name := some "n", span := { startLine := 4, endLine := 4 } }
        []] }]

/-- Two live entities of a build may have paths that are written alike, and its graph then does not
come back from its text. The two paths differ in their first binding, so one of them has no static
head. -/
theorem misheaded_not_rebuilt_from_text :
    ∃ output, run misheaded {} = .ok output ∧ Counted misheaded {} ∧
      (∃ left ∈ output.graph.live.keys, ∃ right ∈ output.graph.live.keys,
        left ≠ right ∧ left.render = right.render) ∧
      ¬∃ again, Graph.ofText? output.graph.toText = some again ∧
        again.same output.graph = true := by
  have succeeds : (run misheaded {}).isOk = true := by decide +kernel
  have counted : Counted misheaded {} := counted_of_few (by decide) (by decide)
  have checked : (settled? misheaded {}).all (fun registry =>
      decide ((∃ left ∈ registry.live.keys, ∃ right ∈ registry.live.keys,
          left ≠ right ∧ left.withStaticHead = right.withStaticHead) ∧
        ∃ path ∈ (registry.live.values ++ registry.superseded).flatMap Entity.writtenPaths,
          path.withStaticHead ≠ path)) = true := by
    decide +kernel
  cases built : run misheaded {} with
  | error fault => simp [built, Except.isOk, Except.toBool] at succeeds
  | ok output =>
    obtain ⟨registry, info, settled, made⟩ := run_settled built
    rw [settled, Option.all_some, decide_eq_true_eq] at checked
    obtain ⟨⟨left, inLeft, right, inRight, differ, alike⟩, path, written, headless⟩ := checked
    have listed : output.graph.live.keys.Perm registry.live.keys := by
      rw [made]
      exact Graph.keys_of_entities_perm _ _ _ _
    refine ⟨output, rfl, counted, ⟨left, listed.mem_iff.mpr inLeft, right,
      listed.mem_iff.mpr inRight, differ, NamePath.render_eq_iff.mpr alike⟩, ?_⟩
    rintro ⟨again, reads, same⟩
    rw [← Graph.mem_written_paths_of_entities, ← made] at written
    exact headless ((Graph.heads_of_of_text? reads same).1 path written)

end Build

end DocGraph
