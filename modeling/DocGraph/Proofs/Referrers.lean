import DocGraph.Proofs.PublicView

/-!
# Who refers to a path

References to be seen are indexed by their texts. Several texts may lead to one path, and an entity
may refer to it by several of them or by one of them twice; asked for its referrers, the graph still
lists each of them once, and nobody else.

Unlike the other queries this one does not ask whether a referrer is public. Its answer is the
public part of the referrers only where no hidden entity refers to the path.

Paths are counted and not entities: two paths may hold equal entities, and an answer that lists them
both is right. So an answer is compared with a list of paths that it looks up one by one.
-/

namespace DocGraph

section FirstPerKey

variable {α κ : Type} [DecidableEq κ] {key : α → κ} {taken : List κ} {items : List α}

/-- The keys of the kept items are those of all items but the ones taken before. The taken keys are
those of the items that stand before the list. -/
theorem mem_keys_first_per_key {asked : κ} :
    asked ∈ (firstPerKey key taken items).map key ↔ asked ∈ items.map key ∧ asked ∉ taken := by
  induction items generalizing taken with
  | nil => simp [firstPerKey]
  | cons item rest inductionHypothesis =>
    unfold firstPerKey
    split
    · next seen =>
      rw [List.contains_iff_mem] at seen
      rw [inductionHypothesis, List.map_cons, List.mem_cons]
      refine and_congr_left fun fresh => ?_
      have differs : asked ≠ key item := fun same => fresh (same ▸ seen)
      rw [or_iff_right differs]
    · next unseen =>
      rw [List.contains_iff_mem] at unseen
      rw [List.map_cons, List.mem_cons, inductionHypothesis, List.map_cons, List.mem_cons,
        List.mem_append, List.mem_singleton]
      by_cases same : asked = key item
      · subst same
        simp [unseen]
      · simp [same]

/-- No two kept items have the same key. The induction leaves them open. -/
theorem nodup_keys_first_per_key : ((firstPerKey key taken items).map key).Nodup := by
  induction items generalizing taken with
  | nil => simp [firstPerKey]
  | cons item rest inductionHypothesis =>
    unfold firstPerKey
    split
    · exact inductionHypothesis
    · rw [List.map_cons, List.nodup_cons]
      refine ⟨fun again => ?_, inductionHypothesis⟩
      exact (mem_keys_first_per_key.mp again).2 (by simp)

end FirstPerKey

namespace Graph

variable {graph : Graph} {path source : NamePath} {answer : List Entity}

/-- An entity refers to a path when one of its references leads there. Only references of comments
count; relations to supertypes are no references. -/
def RefersTo (graph : Graph) (source path : NamePath) : Prop :=
  ∃ entity, graph.live.get? source = some entity ∧
    ∃ text ∈ entity.seeAlso, Reference.resolve? graph.live.keys text = some path

/-- An answer lists the entities at the wanted paths, each path once. That every listed path is live
is part of it, since the look-ups have values. -/
def Lists (graph : Graph) (answer : List Entity) (wanted : NamePath → Prop) : Prop :=
  ∃ paths : List NamePath, paths.Nodup ∧ (∀ path, path ∈ paths ↔ wanted path) ∧
    answer.map some = paths.map graph.live.get?

/-- An answer that lists wanted paths lists just those of them that are fit for something exactly
when all of them are. Entities at different paths may be equal, so the paths are counted.

Proof: an answer that lists two sets of paths has as many members as either of them has paths, so
the smaller set cannot leave any of them out. -/
theorem Lists.restrict_iff {wanted fit : NamePath → Prop} (lists : graph.Lists answer wanted) :
    graph.Lists answer (fun path => fit path ∧ wanted path) ↔ ∀ path, wanted path → fit path := by
  obtain ⟨paths, distinct, listed, held⟩ := lists
  constructor
  · rintro ⟨others, distinctOthers, listedOthers, heldOthers⟩ path asked
    have inside : others ⊆ paths := fun other present =>
      (listed other).mpr ((listedOthers other).mp present).2
    -- both selections are as long as the answer, so the smaller one leaves nothing out
    have lengths : paths.length = others.length := by
      simpa using congrArg List.length (held.symm.trans heldOthers)
    have same : others.Perm paths :=
      (List.subperm_of_subset distinctOthers inside).perm_of_length_le (Nat.le_of_eq lengths)
    exact ((listedOthers path).mp (same.mem_iff.mpr ((listed path).mpr asked))).1
  · intro all
    refine ⟨paths, distinct, fun path => ?_, held⟩
    rw [listed]
    exact ⟨fun asked => ⟨all path asked, asked⟩, And.right⟩

/-- Where every item has a value, collecting the values leaves none out. -/
theorem map_some_filter_map_of_forall {α β : Type} {find : α → Option β} {items : List α}
    (found : ∀ item ∈ items, (find item).isSome = true) :
    (items.filterMap find).map some = items.map find := by
  induction items with
  | nil => rfl
  | cons item rest inductionHypothesis =>
    obtain ⟨value, held⟩ := Option.isSome_iff_exists.mp (found item List.mem_cons_self)
    have others := inductionHypothesis fun other present => found other (.tail _ present)
    simp [held, others]

/-- The index has an entry for a text that is referred to. It tells what the text leads to and which
entities refer so. A text is resolved once for all entities that have it. -/
theorem mem_values_references_iff {live : Table NamePath Entity} {entry : SeeEntry} :
    entry ∈ (references live).values ↔
      ∃ text sources, entry = ⟨Reference.resolve? live.keys text, sources⟩ ∧
        (Table.group (live.entries.flatMap fun (path, entity) =>
          entity.seeAlso.map fun target => (target, path))).get? text = some sources := by
  simp only [Table.mem_values_iff, ← Table.get?_eq_some_iff, references, Table.get?_map_values,
    Option.map_eq_some_iff]
  refine exists_congr fun text => exists_congr fun sources => ?_
  rw [and_comm, eq_comm]

/-- The sources that are indexed under the texts that lead to a path are those that refer to it.

Proof: an entry that leads to the path has a text that some source refers by, and each of the
references of a source is indexed under its text. -/
theorem mem_referrers_iff (indexed : graph.seeIndex = references graph.live) :
    source ∈ (graph.seeIndex.values.filter fun entry => entry.resolved = some path).flatMap
        SeeEntry.referrers ↔ graph.RefersTo source path := by
  have given (text : String) :
      (text, source) ∈ (graph.live.entries.flatMap fun (path, entity) =>
          entity.seeAlso.map fun target => (target, path)) ↔
        ∃ entity, graph.live.get? source = some entity ∧ text ∈ entity.seeAlso := by
    simp [Table.get?_eq_some_iff]
  simp only [List.mem_flatMap, List.mem_filter, decide_eq_true_eq, indexed,
    mem_values_references_iff]
  constructor
  · rintro ⟨entry, ⟨⟨text, sources, shape, filed⟩, leads⟩, present⟩
    simp only [shape] at leads present
    obtain ⟨entity, found, refers⟩ :=
      (given text).mp (Table.exists_mem_group_iff.mp ⟨sources, filed, present⟩)
    exact ⟨entity, found, text, refers, leads⟩
  · rintro ⟨entity, found, text, refers, leads⟩
    obtain ⟨sources, filed, present⟩ :=
      Table.exists_mem_group_iff.mpr ((given text).mpr ⟨entity, found, refers⟩)
    refine ⟨_, ⟨⟨text, sources, rfl, filed⟩, ?_⟩, present⟩
    simp only [leads]

/-- Asked for its referrers, a graph lists all entities that refer to a path, each once. The
collected paths may repeat, and the first of each is kept; all of them are live, as they come from
the table. -/
theorem lists_referrers_of (indexed : graph.seeIndex = references graph.live) :
    graph.Lists (graph.referrersOf path) fun source => graph.RefersTo source path := by
  have distinct (sources : List NamePath) : (firstPerKey id [] sources).Nodup := by
    have once : ((firstPerKey id [] sources).map id).Nodup := nodup_keys_first_per_key
    rwa [List.map_id] at once
  have listed (sources : List NamePath) (source : NamePath) :
      source ∈ firstPerKey id [] sources ↔ source ∈ sources := by
    have kept : source ∈ (firstPerKey id [] sources).map id ↔
        source ∈ sources.map id ∧ source ∉ [] := mem_keys_first_per_key
    simpa using kept
  refine ⟨_, distinct _, fun source => (listed _ source).trans (mem_referrers_iff indexed), ?_⟩
  refine map_some_filter_map_of_forall fun source present => ?_
  obtain ⟨entity, found, _⟩ := (mem_referrers_iff indexed).mp ((listed _ source).mp present)
  rw [found]
  rfl

/-- Asked for the referrers of a path, a graph gives the entities that refer to it, each of them
once, whatever entities it is made of. These are the public ones among them exactly when no private
entity hides one of them.

Proof: the index of a graph is that of its live entities, so the first part is the fact before. The
second part is about any answer that lists the wanted paths. -/
theorem referrers_of_of_entities (live : Table NamePath Entity) (superseded : List Entity)
    (info : ModuleInfo) (order : MemberOrder) (path : NamePath) :
    let graph := ofEntities live superseded info order
    graph.Lists (graph.referrersOf path) (fun source => graph.RefersTo source path) ∧
      (graph.Lists (graph.referrersOf path)
          (fun source => Unhidden graph.live source ∧ graph.RefersTo source path) ↔
        ∀ source, graph.RefersTo source path → Unhidden graph.live source) := by
  intro graph
  have lists : graph.Lists (graph.referrersOf path) fun source => graph.RefersTo source path :=
    lists_referrers_of rfl
  exact ⟨lists, lists.restrict_iff⟩

end Graph

/-- A private class whose method refers to another class, as a public function does. -/
def Build.secretive : List SourceFile :=
  [{ path := "a.js"
     comments :=
      [⟨"/** @private */", { startLine := 1, endLine := 1 }⟩,
       ⟨"/** @see Open */", { startLine := 3, endLine := 3 }⟩,
       ⟨"/** @see Open */", { startLine := 7, endLine := 7 }⟩]
     declarations :=
      [.node { kind := .classDecl, name := some "Secret", span := { startLine := 2, endLine := 5 } }
        [.node { kind := .method, name := some "run", span := { startLine := 4, endLine := 4 } }
          []],
       .node { kind := .classDecl, name := some "Open", span := { startLine := 6, endLine := 6 } }
        [],
       .node { kind := .function, name := some "use", span := { startLine := 8, endLine := 8 } }
        []] }]

/-- Among the referrers of the class that is open is the method of the private one. The class is
hidden and its method with it, and the method refers to the class that is open. -/
theorem Build.secretive_lists_hidden :
    ∃ output, run secretive {} = .ok output ∧
      ¬output.graph.Lists (output.graph.referrersOf ⟨[⟨.static, "Open"⟩]⟩) fun source =>
        Graph.Unhidden output.graph.live source ∧
          output.graph.RefersTo source ⟨[⟨.static, "Open"⟩]⟩ := by
  have made : (run secretive {}).toOption.any (fun output =>
      Graph.holdsPrivate output.graph.live ⟨[⟨.static, "Secret"⟩]⟩ &&
        (output.graph.live.get? ⟨[⟨.static, "Secret"⟩, ⟨.onInstance, "run"⟩]⟩).any
          (fun entity => entity.seeAlso.contains "Open") &&
        decide (Reference.resolve? output.graph.live.keys "Open" =
          some ⟨[⟨.static, "Open"⟩]⟩)) = true := by cbv
  obtain ⟨output, built, passes⟩ := exists_ok_of_any made
  simp only [Option.any_eq_true, Bool.and_eq_true, decide_eq_true_eq, Graph.holdsPrivate,
    List.contains_iff_mem] at passes
  obtain ⟨⟨⟨secret, found, hidden⟩, method, listed, refers⟩, leads⟩ := passes
  have refersTo : output.graph.RefersTo ⟨[⟨.static, "Secret"⟩, ⟨.onInstance, "run"⟩]⟩
      ⟨[⟨.static, "Open"⟩]⟩ := ⟨method, listed, "Open", refers, leads⟩
  obtain ⟨_, _, _, _, _, assembled⟩ := run_stages built
  have lists : output.graph.Lists (output.graph.referrersOf ⟨[⟨.static, "Open"⟩]⟩) fun source =>
      output.graph.RefersTo source ⟨[⟨.static, "Open"⟩]⟩ :=
    Graph.lists_referrers_of (by rw [assembled]; rfl)
  refine ⟨output, built, fun restricted => ?_⟩
  exact lists.restrict_iff.mp restricted _ refersTo _ _ (.inr ⟨by decide, by decide⟩) found hidden

end DocGraph
