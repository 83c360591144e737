import DocGraph.Proofs.Naming
import DocGraph.Proofs.PathText
import DocGraph.Proofs.PublicView

/-!
# The look-ups by name agree

A graph is asked for an entity by its path or else by the end of it, or by the end of its path with
preference for an exact match. The order makes no difference: a path that is spelled out ends in
itself, so it is a candidate of the second look-up too.

Both give the entity that the text means among the public paths, and refuse every other text for the
one reason that applies. References are resolved by the same meaning, so a reference that has
nothing to cut off leads to the entity that the look-ups give.

The answers are described by a relation with one rule for each outcome. It is shown complete and
sound for one of the look-ups: an answer that the relation allows is the one that is given, and what
is given is allowed. Since the look-up is a function, the relation then has one answer for each
text.
-/

namespace DocGraph.Graph

open Reference

/-- What a graph answers to a text. -/
inductive Answers (graph : Graph) (text : String) : Except LookupError Entity → Prop where
  /-- The text is no path. -/
  | malformed {error : PathError} (refused : NamePath.parse text = .error error) :
      Answers graph text (.error (.invalidPath error))
  /-- The text means a public path: the one that it spells out, or else the only one that
  ends in it. -/
  | found {path : NamePath} {entity : Entity} (means : Means graph.visible text path)
      (held : graph.live.get? path = some entity) : Answers graph text (.ok entity)
  /-- No public path ends in the text. -/
  | missing {query : NamePath} (reads : NamePath.parse text = .ok query)
      (none : ∀ key, ¬Fits graph.visible text query key) :
      Answers graph text (.error (.notFound text))
  /-- Several public paths end in the text, and none is spelled out. All of them are listed
  as they are written, in ascending order. -/
  | ambiguous {query : NamePath} {fitting : List NamePath} {candidates : List String}
      (reads : NamePath.parse text = .ok query) (inexact : query ∉ graph.visible)
      (distinct : fitting.Nodup)
      (listed : ∀ key, key ∈ fitting ↔ Fits graph.visible text query key)
      (several : 2 ≤ fitting.length)
      (written : candidates.Perm (fitting.map NamePath.render))
      (sorted : candidates.Pairwise (· ≤ ·)) :
      Answers graph text (.error (.ambiguous text candidates))

section Outcomes

variable {graph : Graph} {text : String} {query path : NamePath}

/-- The candidates of a look-up are the public paths that end in the query. -/
theorem mem_candidates_iff :
    path ∈ graph.candidates text query ↔ Fits graph.visible text query path := by
  rw [candidates, List.mem_filter, NamePath.ends_with_iff, Fits]

/-- A public path that is spelled out is a candidate. Every path but the root ends in itself, and no
text spells out the root. -/
theorem mem_candidates_self (reads : NamePath.parse text = .ok query)
    (shown : query ∈ graph.visible) : query ∈ graph.candidates text query :=
  mem_candidates_iff.mpr ⟨shown, NamePath.ends_in_self (NamePath.ne_root_of_parse reads)⟩

/-- Sorted texts come in ascending order. It connects the comparison used for sorting with the order
that is stated. -/
theorem pairwise_merge_sort_compare (texts : List String) :
    (texts.mergeSort fun left right => (compare left right).isLE).Pairwise (· ≤ ·) := by
  have sorted := pairwise_merge_sort_is_le compare texts
  exact sorted.imp fun below => Std.LawfulBCmp.isLE_iff_le.mp below

/-- Texts in ascending order are the sorted form of any arrangement of them. The relation gives the
listed texts as some ascending arrangement, and this says that there is only one. -/
theorem eq_merge_sort_compare {texts sorted : List String} (same : sorted.Perm texts)
    (ascending : sorted.Pairwise (· ≤ ·)) :
    (texts.mergeSort fun left right => (compare left right).isLE) = sorted :=
  List.Perm.eq_of_pairwise (fun _ _ _ _ => le_antisymm) (pairwise_merge_sort_compare texts)
    ascending ((List.mergeSort_perm _ _).trans same.symm)

/-- No candidate is listed twice. Otherwise one path listed twice would be taken for an
ambiguity. -/
theorem nodup_candidates (once : graph.visible.Nodup) : (graph.candidates text query).Nodup :=
  once.filter _

/-- The candidates are the listed paths, if these are the ones that end in the query. Both lists are
without repetitions and have the same members. -/
theorem candidates_perm {fitting : List NamePath} (once : graph.visible.Nodup)
    (distinct : fitting.Nodup)
    (listed : ∀ key, key ∈ fitting ↔ Fits graph.visible text query key) :
    (graph.candidates text query).Perm fitting := by
  rw [List.perm_ext_iff_of_nodup (nodup_candidates once) distinct]
  intro key
  rw [listed, mem_candidates_iff]

/-- The look-up by the end of a path gives every answer that there is.

Proof: one case for each outcome. A path that is spelled out is asked for first, and without it the
number of candidates decides; the candidates are a list of the fitting paths in some order, so the
number and the sorted texts do not depend on the order. -/
theorem Answers.lookup_suffix_eq {result : Except LookupError Entity}
    (answer : graph.Answers text result) (once : graph.visible.Nodup) :
    graph.lookupSuffix text = result := by
  unfold lookupSuffix
  cases answer with
  | malformed refused => rw [refused]
  | @found path entity means held =>
    cases means with
    | exact reads shown =>
      have listed := mem_candidates_self reads shown
      rw [reads]
      dsimp only
      split
      · next none =>
        rw [none] at listed
        cases listed
      · next single only =>
        rw [only, List.mem_singleton] at listed
        rw [← listed, held]
      · rw [if_pos (List.contains_iff_mem.mpr listed), held]
    | @unique query _ reads missing only =>
      have alone : graph.candidates text query = [path] :=
        List.perm_singleton.mp (candidates_perm once (List.nodup_singleton path) fun key => by
          rw [List.mem_singleton, only])
      simp only [reads, alone, held]
  | @missing query reads none =>
    have empty : graph.candidates text query = [] :=
      List.eq_nil_iff_forall_not_mem.mpr fun key listed => none key (mem_candidates_iff.mp listed)
    simp only [reads, empty]
  | @ambiguous query fitting candidates reads inexact distinct listed several written sorted =>
    have same := candidates_perm once distinct listed
    have unspelled : ¬(graph.candidates text query).contains query = true := fun held =>
      inexact (mem_candidates_iff.mp (List.contains_iff_mem.mp held)).1
    rw [reads]
    dsimp only
    split
    · next none =>
      rw [none] at same
      rw [← same.length_eq] at several
      exact absurd several (by decide)
    · next single only =>
      rw [only] at same
      rw [← same.length_eq, List.length_singleton] at several
      exact absurd several (by decide)
    · rw [if_neg unspelled]
      dsimp only
      rw [eq_merge_sort_compare (written.trans (same.map NamePath.render).symm) sorted]

/-- What the look-up by the end of a path gives is an answer, if all public paths are live.

Proof: the branches of the look-up are gone through, and in each of them its tests are the premises
of one rule. That public paths are live is what gives the entity at a path that is meant. -/
theorem answers_lookup_suffix (live : ∀ path ∈ graph.visible, path ∈ graph.live.keys)
    (once : graph.visible.Nodup) : graph.Answers text (graph.lookupSuffix text) := by
  have held (path : NamePath) (shown : path ∈ graph.visible) :
      ∃ entity, graph.live.get? path = some entity :=
    Option.ne_none_iff_exists'.mp (mt Table.get?_eq_none_iff.mp (not_not.mpr (live path shown)))
  unfold lookupSuffix
  split
  · next error refused => exact .malformed refused
  · next query reads =>
    have listed (key : NamePath) : key ∈ graph.candidates text query ↔
        Fits graph.visible text query key := mem_candidates_iff
    split
    · next none =>
      refine .missing reads fun key fits => ?_
      rw [← listed, none] at fits
      cases fits
    · next single only =>
      have alone (key : NamePath) : Fits graph.visible text query key ↔ key = single := by
        rw [← listed, only, List.mem_singleton]
      have shown : single ∈ graph.visible := ((alone single).mpr rfl).1
      obtain ⟨entity, found⟩ := held single shown
      rw [found]
      refine .found ?_ found
      by_cases spelled : query ∈ graph.visible
      · obtain rfl := (alone query).mp (mem_candidates_iff.mp (mem_candidates_self reads spelled))
        exact .exact reads spelled
      · exact .unique reads spelled alone
    · next notNone notOne =>
      by_cases spelled : query ∈ graph.visible
      · obtain ⟨entity, found⟩ := held query spelled
        rw [if_pos (List.contains_iff_mem.mpr (mem_candidates_self reads spelled)), found]
        exact .found (.exact reads spelled) found
      · have unspelled : ¬(graph.candidates text query).contains query = true := fun held =>
          spelled (mem_candidates_iff.mp (List.contains_iff_mem.mp held)).1
        rw [if_neg unspelled]
        refine .ambiguous reads spelled (nodup_candidates once) listed ?_ (List.mergeSort_perm _ _)
          (pairwise_merge_sort_compare _)
        match shape : graph.candidates text query with
        | [] => exact absurd shape notNone
        | [single] => exact absurd shape (notOne single)
        | first :: second :: rest => simp

/-- Asking for the exact path first changes no answer. The exact path is one of the candidates and
is preferred among them. -/
theorem find_eq_lookup_suffix (once : graph.visible.Nodup) :
    graph.find text = graph.lookupSuffix text := by
  unfold find
  split
  · next error refused =>
    rw [Answers.lookup_suffix_eq (.malformed refused) once]
  · next path reads =>
    split
    · next entity found =>
      obtain ⟨shown, held⟩ := get?_eq_some_iff.mp found
      rw [Answers.lookup_suffix_eq (.found (.exact reads shown) held) once]
    · rfl

end Outcomes

/-- The public paths of a graph are live, and none is listed twice. Public paths are filtered from
the live ones, which are the keys of a table. -/
theorem visible_of_entities (live : Table NamePath Entity) (superseded : List Entity)
    (info : ModuleInfo) (order : MemberOrder) :
    (∀ path ∈ (ofEntities live superseded info order).visible,
      path ∈ (ofEntities live superseded info order).live.keys) ∧
      (ofEntities live superseded info order).visible.Nodup :=
  ⟨fun _ shown => List.mem_of_mem_filter shown, (Table.keys_nodup _).filter _⟩

/-- The look-ups by name agree, whatever entities a graph is made of and whatever the text. Both
look-ups give the same answer, and this is the answer that the text has. If there is nothing to cut
off from the text, then as a reference it leads to the public path that it means, and the look-ups
give the entity at the path that the reference leads to.

Proof: asking for the exact path first changes nothing. The two directions of the second part are
the completeness and the soundness of the relation. A reference without anything to cut off is
resolved by what it means among the public paths, and the only answer with an entity is that for a
text that means a path. -/
theorem look_ups_agree (live : Table NamePath Entity) (superseded : List Entity)
    (info : ModuleInfo) (order : MemberOrder) (text : String) :
    let graph := ofEntities live superseded info order
    graph.find text = graph.lookupSuffix text ∧
      (∀ result, graph.lookupSuffix text = result ↔ graph.Answers text result) ∧
      (Bare text →
        (∀ path, resolve? graph.visible text = some path ↔ Means graph.visible text path) ∧
        ∀ entity, graph.lookupSuffix text = .ok entity ↔
          ∃ path, resolve? graph.visible text = some path ∧
            graph.live.get? path = some entity) := by
  intro graph
  obtain ⟨alive, once⟩ := visible_of_entities live superseded info order
  have answers (result : Except LookupError Entity) :
      graph.lookupSuffix text = result ↔ graph.Answers text result :=
    ⟨fun same => same ▸ answers_lookup_suffix alive once,
      fun answer => answer.lookup_suffix_eq once⟩
  refine ⟨find_eq_lookup_suffix once, answers, fun bare => ?_⟩
  have leads (path : NamePath) :
      resolve? graph.visible text = some path ↔ Means graph.visible text path := by
    rw [resolve?_eq_some_iff once, subject_of_bare bare]
  refine ⟨leads, fun entity => ?_⟩
  rw [answers]
  constructor
  · rintro (_ | ⟨means, held⟩)
    exact ⟨_, (leads _).mpr means, held⟩
  · rintro ⟨path, led, held⟩
    exact .found ((leads path).mp led) held

/-- A graph with two public paths that end alike, one of them in the other, and a private
one. -/
def runners : Graph :=
  ofEntities (.ofList
    [(⟨[⟨.static, "A"⟩, ⟨.onInstance, "run"⟩]⟩, { kind := .function, name := "run" }),
     (⟨[⟨.static, "X"⟩, ⟨.static, "A"⟩, ⟨.onInstance, "run"⟩]⟩,
      { kind := .function, name := "run", order := { sequence := 1 } }),
     (⟨[⟨.static, "B"⟩, ⟨.onInstance, "run"⟩]⟩,
      { kind := .function, name := "run", visibility := .privateAccess,
        order := { sequence := 2 } })]) [] {} .declaration

/-- An exact match is preferred to a longer path with the same end, and the reference leads to it
too. The text fits two public paths, and the exact one is given all the same. -/
theorem runners_look_ups_agree :
    Bare "A#run" ∧
      resolve? runners.visible "A#run" = some ⟨[⟨.static, "A"⟩, ⟨.onInstance, "run"⟩]⟩ ∧
      runners.find "A#run" = runners.lookupSuffix "A#run" ∧
      runners.lookupSuffix "A#run" = .ok { kind := .function, name := "run" } := by
  have bare : Bare "A#run" := ⟨by decide, by decide, by decide⟩
  have shown : runners.visible = [⟨[⟨.static, "A"⟩, ⟨.onInstance, "run"⟩]⟩,
      ⟨[⟨.static, "X"⟩, ⟨.static, "A"⟩, ⟨.onInstance, "run"⟩]⟩] := by cbv
  have held : runners.live.get? ⟨[⟨.static, "A"⟩, ⟨.onInstance, "run"⟩]⟩ =
      some { kind := .function, name := "run" } := by cbv
  have led : resolve? runners.visible "A#run" =
      some ⟨[⟨.static, "A"⟩, ⟨.onInstance, "run"⟩]⟩ := by
    rw [shown]
    cbv
  obtain ⟨same, _, reference⟩ := look_ups_agree _ [] {} .declaration "A#run"
  exact ⟨bare, led, same, ((reference bare).2 _).mpr ⟨_, led, held⟩⟩

end DocGraph.Graph
