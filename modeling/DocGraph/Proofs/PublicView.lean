import DocGraph.Graph.Query
import DocGraph.Proofs.PathOrder
import DocGraph.Proofs.Rebuilding

/-!
# What a graph shows to the public

A graph decides once which of its paths are public, and every query but those for all entities is
answered from that decision. A live path is public when no private entity stands at it or at a
container of it. Containers that are not live hide nothing, and the root is not asked about the
paths that it contains: it is the container of no path.

The queries then show exactly the public part of what they look at, in its order, and the live
containers of what they show are public themselves. Nothing is asked of the entities: their records
need not agree with the paths under which they are held.

That a path is public is defined by a search along its chain, and is turned into a condition about
everything on the way. All queries then go through one look-up, so each of them is treated by what
it lists and by that look-up.
-/

namespace DocGraph

/-- A path is on the way to another one when it is that path or a container of it other than the
root. That the root is left out is how the chain of a path is defined; it stops at the path of one
segment. -/
def NamePath.OnWayTo (above path : NamePath) : Prop :=
  above = path ∨ (above ≠ .root ∧ path.isBelow above = true)

namespace NamePath

variable {path above between : NamePath}

/-- The chain of a path lists what is on the way to it. The induction goes from a path to its
parent, as the chain does. -/
theorem mem_chain_iff : above ∈ path.chain ↔ above.OnWayTo path := by
  induction path using induct_parent with
  | step path inductionHypothesis =>
    rw [chain_eq, OnWayTo, List.mem_cons]
    refine or_congr_right ?_
    cases child : path.parent? with
    | none =>
      have short : path.segments.length ≤ 1 := by
        unfold parent? at child
        split at child
        · assumption
        · cases child
      simp only [Option.map_none, Option.getD_none, List.not_mem_nil, false_iff, not_and,
        is_below_iff]
      intro inside shorter
      have positive := List.length_pos_iff.mpr fun empty => inside (eq_of_segments empty)
      omega
    | some parent =>
      have inside := (parent?_eq_some_iff.mp child).1
      rw [Option.map_some, Option.getD_some, inductionHypothesis parent child,
        is_below_iff_of_parent child, OnWayTo]
      constructor
      · rintro (rfl | ⟨away, below⟩)
        · exact ⟨inside, .inl rfl⟩
        · exact ⟨away, .inr below⟩
      · rintro ⟨away, rfl | below⟩
        · exact .inl rfl
        · exact .inr ⟨away, below⟩

/-- What is on the way to something on the way to a path is on the way to the path. -/
theorem OnWayTo.trans (first : above.OnWayTo between) (second : between.OnWayTo path) :
    above.OnWayTo path := by
  obtain rfl | ⟨away, below⟩ := first
  · exact second
  · obtain rfl | ⟨_, further⟩ := second
    · exact .inr ⟨away, below⟩
    · exact .inr ⟨away, is_below_trans further below⟩

end NamePath

namespace Graph

/-- No private entity stands on the way to a path. Protected entities hide nothing. -/
def Unhidden (live : Table NamePath Entity) (path : NamePath) : Prop :=
  ∀ above entity, above.OnWayTo path → live.get? above = some entity →
    entity.visibility ≠ .privateAccess

/-- An entity is shown by a graph when it is the one at a public path. The same entity may be held
at two paths; one of them has to be public. -/
def Shows (graph : Graph) (entity : Entity) : Prop :=
  ∃ path ∈ graph.visible, graph.live.get? path = some entity

/-- A graph keeps its private part to itself: its public paths are those that nothing private hides,
the public paths are closed under live containers, and every public query shows the public part of
its index, all of it, and nothing else. The queries that list something are described by equations,
so that neither is anything left out; those that search may also find nothing. -/
structure KeepsPrivate (graph : Graph) : Prop where
  visible : ∀ path, path ∈ graph.visible ↔ path ∈ graph.live.keys ∧ Unhidden graph.live path
  upward : ∀ path ∈ graph.visible, ∀ above ∈ graph.live.keys, above.OnWayTo path →
    above ∈ graph.visible
  found : ∀ path, (graph.get? path).isSome = true ↔ path ∈ graph.visible
  held : ∀ path entity, graph.get? path = some entity → graph.live.get? path = some entity
  listed : graph.entities =
    (graph.live.entries.filter fun entry => entry.1 ∈ graph.visible).map Prod.snd
  sorted : graph.entities.Pairwise fun left right => earlier left right = true
  members : ∀ container, (graph.membersOf container).map some =
    (((graph.byContainer.get? container).getD []).filter (· ∈ graph.visible)).map graph.live.get?
  kinds : ∀ kind, (graph.ofKind kind).map some =
    (((graph.byKind.get? kind).getD []).filter (· ∈ graph.visible)).map graph.live.get?
  finds : ∀ text entity, graph.find text = .ok entity → graph.Shows entity
  looksUp : ∀ text entity, graph.lookupSuffix text = .ok entity → graph.Shows entity
  inherits : ∀ path, ∀ entity ∈ graph.effectiveMembers path, graph.Shows entity

section Queries

variable {graph : Graph} {path : NamePath} {entity : Entity}

/-- A path is public when nothing private is on the way to it. From here on the chain is not
mentioned any more. -/
theorem is_public_iff {live : Table NamePath Entity} :
    isPublic live path = true ↔ Unhidden live path := by
  simp only [isPublic, Bool.not_eq_true', List.any_eq_false, NamePath.mem_chain_iff, holdsPrivate,
    Option.any_eq_true, decide_eq_true_eq, not_exists, not_and, Unhidden]
  exact ⟨fun clear above entity onWay found => clear above onWay entity found,
    fun clear above onWay entity found => clear above entity onWay found⟩

/-- A path that nothing private hides has containers that nothing private hides. It makes the public
paths closed upwards. -/
theorem Unhidden.container {live : Table NamePath Entity} {above : NamePath}
    (shown : Unhidden live path) (onWay : above.OnWayTo path) : Unhidden live above :=
  fun further entity before found => shown further entity (before.trans onWay) found

/-- A query by path shows the entity at it, if the path is public. Every other query ends with
it. -/
theorem get?_eq_some_iff :
    graph.get? path = some entity ↔
      path ∈ graph.visible ∧ graph.live.get? path = some entity := by
  rw [get?]
  by_cases shown : path ∈ graph.visible <;> simp [shown]

/-- Looking listed paths up one by one shows the public ones among them, when every public path is
live. The premise is what keeps a public path from being skipped. -/
theorem map_some_filter_map_get? (live : ∀ path ∈ graph.visible, path ∈ graph.live.keys)
    (index : List NamePath) :
    (index.filterMap graph.get?).map some =
      (index.filter (· ∈ graph.visible)).map graph.live.get? := by
  induction index with
  | nil => rfl
  | cons first rest inductionHypothesis =>
    by_cases shown : first ∈ graph.visible
    · obtain ⟨entity, found⟩ := Option.ne_none_iff_exists'.mp
        (mt Table.get?_eq_none_iff.mp (not_not.mpr (live first shown)))
      have answered := get?_eq_some_iff.mpr ⟨shown, found⟩
      simp [shown, found, answered, inductionHypothesis]
    · have refused : graph.get? first = none := by simp [get?, shown]
      simp [shown, refused, inductionHypothesis]

/-- Members of a container are shown. -/
theorem shows_of_mem_members_of {container : NamePath}
    (listed : entity ∈ graph.membersOf container) : graph.Shows entity := by
  obtain ⟨path, _, answered⟩ := List.mem_filterMap.mp listed
  exact ⟨path, get?_eq_some_iff.mp answered⟩

/-- What is found by the end of its path is shown. Candidates are looked for among the public paths
from the start. -/
theorem shows_of_lookup_suffix {text : String} (answered : graph.lookupSuffix text = .ok entity) :
    graph.Shows entity := by
  have shown : ∀ query path, path ∈ graph.candidates text query → path ∈ graph.visible :=
    fun _ _ listed => (List.mem_filter.mp listed).1
  unfold lookupSuffix at answered
  split at answered
  · cases answered
  · next query parsed =>
    split at answered
    · cases answered
    · next single only =>
      have listed : single ∈ graph.candidates text query := only ▸ List.mem_singleton_self single
      split at answered
      · next found =>
        cases answered
        exact ⟨single, shown query single listed, found⟩
      · cases answered
    · split at answered
      · next found =>
        cases answered
        split at found
        · next literal =>
          exact ⟨query, shown query query (List.contains_iff_mem.mp literal), found⟩
        · cases found
      · cases answered

/-- What is found by its path, or else by the end of it, is shown. -/
theorem shows_of_find {text : String} (answered : graph.find text = .ok entity) :
    graph.Shows entity := by
  unfold find at answered
  split at answered
  · cases answered
  · next path parsed =>
    split at answered
    · next found =>
      cases answered
      exact ⟨path, get?_eq_some_iff.mp found⟩
    · exact shows_of_lookup_suffix answered

end Queries

/-- Keeping the first item of each key keeps items of the list. Hiding members by each other cannot
bring in new ones. -/
theorem first_per_key_subset {α κ : Type} [DecidableEq κ] {key : α → κ} {taken : List κ}
    {items : List α} : firstPerKey key taken items ⊆ items := by
  induction items generalizing taken with
  | nil => exact List.Subset.refl _
  | cons item rest inductionHypothesis =>
    unfold firstPerKey
    split
    · exact List.subset_cons_of_subset item inductionHypothesis
    · exact List.cons_subset_cons item inductionHypothesis

/-- Own and inherited members are shown. -/
theorem shows_of_mem_effective_members {graph : Graph} {path : NamePath} {entity : Entity}
    (listed : entity ∈ graph.effectiveMembers path) : graph.Shows entity := by
  obtain ⟨container, _, own⟩ := List.mem_flatMap.mp (first_per_key_subset listed)
  exact shows_of_mem_members_of own

/-- The public entities are those at public paths, in the order of the graph. It is stated for any
choice of public paths that is made by a test. -/
theorem entities_eq_filter {graph : Graph} {shown : NamePath → Bool}
    (chosen : graph.visible = graph.live.keys.filter shown) :
    graph.entities = (graph.live.entries.filter fun entry => shown entry.1).map Prod.snd := by
  have paths : graph.visible =
      (graph.live.entries.filter fun entry => shown entry.1).map Prod.fst := by
    rw [chosen, Table.keys, List.filter_map]
    rfl
  have looked := Table.filter_map_get? graph.live (fun _ entity => entity)
    (graph.live.entries.filter fun entry => shown entry.1)
    (fun entry kept => List.mem_of_mem_filter kept)
  simpa [entities, paths] using looked

/-- The live entities of a graph come in source order. Sorting is done before the member lists are
filled in, which do not change places. -/
theorem pairwise_of_entities (live : Table NamePath Entity) (superseded : List Entity)
    (info : ModuleInfo) (order : MemberOrder) :
    (ofEntities live superseded info order).live.entries.Pairwise fun left right =>
      earlier left.2 right.2 = true := by
  have sorted := pairwise_sort_values live
  rw [ofEntities, Table.mapValues, List.pairwise_map]
  exact sorted

/-- A graph keeps its private part to itself, whatever entities it is made of.

Proof: public paths are chosen from the live ones by a test that says whether something private is
on the way. A path that is on the way to a public one has less on its own way. The listing queries
filter an index by that choice, and the others end with a look-up of a public path. -/
theorem of_entities_keeps_private (live : Table NamePath Entity) (superseded : List Entity)
    (info : ModuleInfo) (order : MemberOrder) :
    (ofEntities live superseded info order).KeepsPrivate := by
  generalize made : ofEntities live superseded info order = graph
  have chosen : graph.visible = graph.live.keys.filter (isPublic graph.live) := by
    rw [← made]
    rfl
  have visible : ∀ path, path ∈ graph.visible ↔
      path ∈ graph.live.keys ∧ Unhidden graph.live path := by
    intro path
    rw [chosen, List.mem_filter, is_public_iff]
  have alive : ∀ path ∈ graph.visible, path ∈ graph.live.keys :=
    fun path shown => ((visible path).mp shown).1
  have listed : graph.entities =
      (graph.live.entries.filter fun entry => entry.1 ∈ graph.visible).map Prod.snd := by
    rw [entities_eq_filter chosen]
    congr 1
    refine List.filter_congr ?_
    intro entry present
    have held : entry.1 ∈ graph.live.keys := List.mem_map_of_mem present
    rw [chosen, Bool.eq_iff_iff, decide_eq_true_eq, List.mem_filter, and_iff_right held]
  refine
    { visible := visible
      upward := ?upward
      found := ?found
      held := fun path entity answered => (get?_eq_some_iff.mp answered).2
      listed := listed
      sorted := ?sorted
      members := fun container => map_some_filter_map_get? alive _
      kinds := fun kind => map_some_filter_map_get? alive _
      finds := fun text entity => shows_of_find
      looksUp := fun text entity => shows_of_lookup_suffix
      inherits := fun path entity => shows_of_mem_effective_members }
  case upward =>
    intro path shown above live onWay
    exact (visible above).mpr ⟨live, ((visible path).mp shown).2.container onWay⟩
  case found =>
    intro path
    rw [Option.isSome_iff_exists]
    constructor
    · rintro ⟨entity, answered⟩
      exact (get?_eq_some_iff.mp answered).1
    · intro shown
      obtain ⟨entity, held⟩ := Option.ne_none_iff_exists'.mp
        (mt Table.get?_eq_none_iff.mp (not_not.mpr (alive path shown)))
      exact ⟨entity, get?_eq_some_iff.mpr ⟨shown, held⟩⟩
  case sorted =>
    have inOrder := pairwise_of_entities live superseded info order
    rw [made] at inOrder
    rw [listed, List.pairwise_map]
    exact inOrder.filter _

/-- A graph with a private entity at the root itself, and a public one at top level. -/
def withPrivateRoot : Graph :=
  ofEntities (.ofList
    [(.root, { kind := .namespaceEntity, name := "", visibility := .privateAccess }),
     (⟨[⟨.static, "A"⟩]⟩, { kind := .classEntity, name := "A", path := ⟨[⟨.static, "A"⟩]⟩,
                            order := { sequence := 1 } })]) [] {} .declaration

/-- The root is not public when it holds a private entity, though it is live and what lies below it
is public. So it is only containers other than the root of which the statement can speak. -/
theorem with_private_root_not_upward :
    ¬∀ path ∈ withPrivateRoot.visible, ∀ above ∈ withPrivateRoot.live.keys,
      path.isBelow above = true → above ∈ withPrivateRoot.visible := by
  have shown : withPrivateRoot.visible = [⟨[⟨.static, "A"⟩]⟩] := by cbv
  have live : withPrivateRoot.live.keys = [.root, ⟨[⟨.static, "A"⟩]⟩] := by cbv
  rw [shown, live]
  decide

end Graph

end DocGraph
