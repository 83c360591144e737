import DocGraph.Proofs.RegistrySteps

/-!
# Entities stand where their records say

A registry holds an entity under a path, and the entity records a path, a parent and a name of its
own. The two agree in every registry that a build goes through: the record has the path under which
it is held, the parent is the parent of that path, and the path ends in the entity's name.
Superseded entities agree with the paths that they record.

Agreement is established when a draft is placed, and every elementary step of lending keeps it,
because a relocated path ends as the old one did. Nothing is said about where in the path tree an
entity should stand; only its record is compared.

Placing is treated once and for all: it only registers entities that stand where they are put, and
supersedes others that stand where they would have been put. Any property that those two keep is
kept by placing, which other modules use for properties of their own.
-/

namespace DocGraph

/-- An entity stands at a path when its record says so: the path is its own, ends in its name, and
has its parent above it. The parent is compared as an option, so that an entity with a path of one
segment has the root above it and not nothing. -/
structure Entity.StandsAt (entity : Entity) (path : NamePath) : Prop where
  recorded : entity.path = path
  named : path.name? = some entity.name
  parented : entity.parent = path.parent?

namespace Entity

/-- An entity that is put at a path that ends in its name stands there. A draft gets its path and
parent together and from one path, so only the name has to be checked. -/
theorem moved_to_stands_at {entity : Entity} {path : NamePath}
    (named : path.name? = some entity.name) : (entity.movedTo path).StandsAt path :=
  ⟨rfl, named, rfl⟩

/-- No entity stands at the root. The root has no last segment, and an entity always has a name. -/
theorem StandsAt.ne_root {entity : Entity} {path : NamePath} (stands : entity.StandsAt path) :
    path ≠ .root := by
  rintro rfl
  exact absurd stands.named (by simp [NamePath.name?, NamePath.root])

end Entity

namespace Registry

/-- Every entity of a registry stands where it is held, and every superseded one where its record
says. For a live entity the path of the table is meant, for a superseded one the path of its own
record, since nothing else says where it was. -/
structure Coherent (registry : Registry) : Prop where
  live : ∀ {path entity}, registry.live.get? path = some entity → entity.StandsAt path
  superseded : ∀ entity ∈ registry.superseded, entity.StandsAt entity.path

variable {registry : Registry}

/-- The registry without entities is coherent. -/
theorem coherent_empty : empty.Coherent :=
  ⟨fun found => absurd (Table.mem_keys_of_get? found) List.not_mem_nil,
    fun _ present => absurd present List.not_mem_nil⟩

/-- An entity that becomes live where it stands keeps the registry coherent. A live entity at the
same path is replaced and its record goes with it; the others are found as before. -/
theorem Coherent.put (coherent : registry.Coherent) {entity : Entity}
    (stands : entity.StandsAt entity.path) (directives : Directives) :
    (registry.put entity directives).Coherent := by
  refine ⟨?_, coherent.superseded⟩
  intro path held found
  rw [get?_live_put] at found
  split at found
  · next same =>
    cases found
    exact same ▸ stands
  · exact coherent.live found

/-- Entities that are superseded where they stand keep the registry coherent. They keep the paths
that they were live at, and a path may have been lost more than once. -/
theorem Coherent.supersede (coherent : registry.Coherent) {lost : List Entity}
    (stand : ∀ entity ∈ lost, entity.StandsAt entity.path) :
    { registry with superseded := registry.superseded ++ lost }.Coherent := by
  refine ⟨coherent.live, ?_⟩
  intro entity present
  rcases List.mem_append.mp present with earlier | added
  · exact coherent.superseded entity earlier
  · exact stand entity added

/-- An entity that is superseded where it stands keeps the registry coherent. -/
theorem Coherent.add_superseded (coherent : registry.Coherent) {entity : Entity}
    (stands : entity.StandsAt entity.path) : (registry.addSuperseded entity).Coherent := by
  refine coherent.supersede ?_
  intro added present
  rw [List.mem_singleton] at present
  exact present ▸ stands

/-- Superseding a subtree keeps the registry coherent. The lost entities were live, and so they
stood where their records say. -/
theorem Coherent.supersede_subtree (coherent : registry.Coherent) (path : NamePath) :
    (registry.supersedeSubtree path).Coherent := by
  refine ⟨?_, ?_⟩
  · intro held entity found
    exact coherent.live (Table.get?_of_filter_keys found)
  · intro entity present
    rcases List.mem_append.mp present with earlier | lost
    · exact coherent.superseded entity earlier
    · obtain ⟨held, entry⟩ := Table.mem_values_iff.mp lost
      have found := Table.get?_eq_some_iff.mpr (List.mem_filter.mp entry).1
      have stands := coherent.live found
      exact stands.recorded.symm ▸ stands

/-- Taking a path out keeps the registry coherent. -/
theorem Coherent.remove (coherent : registry.Coherent) (path : NamePath) :
    (registry.remove path).Coherent := by
  refine ⟨?_, coherent.superseded⟩
  intro held entity found
  exact coherent.live (Table.get?_of_filter_keys found)

/-- Changing the live entities in place keeps the registry coherent, if they keep standing where
they stand. It covers settling visibility and linking supertypes, which change neither path nor name
nor parent. -/
theorem Coherent.map_values (coherent : registry.Coherent) {f : NamePath → Entity → Entity}
    (kept : ∀ path entity, entity.StandsAt path → (f path entity).StandsAt path) :
    { registry with live := registry.live.mapValues f }.Coherent := by
  refine ⟨?_, coherent.superseded⟩
  intro path entity found
  obtain ⟨before, held, rfl⟩ := Table.get?_map_values_eq_some_iff.mp found
  exact kept path before (coherent.live held)

/-- Registering an entity that is put where its name ends the path keeps the registry coherent,
whichever of the three outcomes it has. The entity becomes live at a free path, is superseded at
once, or supersedes the subtree of the one that held the path. -/
theorem Coherent.insert (coherent : registry.Coherent) {next : Registry} {entity : Entity}
    {directives : Directives} {live : Bool} (stands : entity.StandsAt entity.path)
    (inserted : registry.insert entity directives = .ok (next, live)) : next.Coherent := by
  obtain ⟨_, rfl, _⟩ | ⟨_, _, _, rfl, _⟩ | ⟨_, _, _, rfl, _⟩ := insert_cases inserted
  · exact coherent.put stands directives
  · exact coherent.add_superseded stands
  · have shadows : (shadowing entity).StandsAt (shadowing entity).path :=
      ⟨rfl, stands.named, stands.parented⟩
    exact (coherent.supersede_subtree entity.path).put shadows directives

/-- A relocated path ends in the same name, when the old path lies below the lender. Only the
segments up to the lender are exchanged. The premise leaves the lender itself out, whose last
segment would be among them.

Proof: the segments behind the lender are not empty, so a path that is continued by them ends in the
last of them, whatever it starts with. -/
theorem name?_relocate {old lender : NamePath} (below : old.isBelow lender = true) (hop : Hop) :
    (relocate old lender hop).name? = old.name? := by
  have longer : lender.segments.length < old.segments.length := by
    simp only [NamePath.isBelow, Bool.and_eq_true, decide_eq_true_eq] at below
    exact below.1
  have ends (rest : List Segment) (start : NamePath) (first : Segment)
      (named : start.name? = some first.name) :
      (rest.foldl (fun path segment => path.child segment.binding segment.name) start).name? =
        (first :: rest).getLast?.map Segment.name := by
    induction rest generalizing start first with
    | nil => simpa using named
    | cons second rest inductionHypothesis =>
      rw [List.foldl_cons, List.getLast?_cons_cons]
      exact inductionHypothesis _ second (NamePath.name?_child start _ _)
  have last : (old.segments.drop lender.segments.length).getLast? = old.segments.getLast? := by
    rw [List.getLast?_drop, if_neg (by omega)]
  unfold relocate
  split
  · next none =>
    have short := List.drop_eq_nil_iff.mp none
    omega
  · next first rest split =>
    rw [ends rest _ first (NamePath.name?_child _ _ _), ← split, last, NamePath.name?]

/-- An elementary step of lending keeps the registry coherent. A member that is taken out stands at
its relocated path, live or superseded, since that path ends in its name as the one it left did. The
other two kinds of step touch relations or supersede what stands where it is held. -/
theorem Step.coherent {before after : Registry} (step : Step before after)
    (coherent : before.Coherent) : after.Coherent := by
  cases step with
  | @displaced old lender entity hop found below =>
    have named := (name?_relocate below hop).trans (coherent.live found).named
    exact (coherent.remove old).add_superseded (Entity.moved_to_stands_at named)
  | @reinserted _ old lender entity hop live found below inserted =>
    have named := (name?_relocate below hop).trans (coherent.live found).named
    exact (coherent.remove old).insert (Entity.moved_to_stands_at named) inserted
  | related path relation =>
    refine coherent.map_values ?_
    intro held entity stands
    split
    · exact ⟨stands.recorded, stands.named, stands.parented⟩
    · exact stands
  | dropped path => exact coherent.supersede_subtree path

/-- Settling visibility keeps the registry coherent. -/
theorem Coherent.settle_visibility (coherent : registry.Coherent) :
    registry.settleVisibility.Coherent :=
  coherent.map_values fun _ _ stands => ⟨stands.recorded, stands.named, stands.parented⟩

/-- Linking supertypes keeps the registry coherent. -/
theorem Coherent.link_supertypes (coherent : registry.Coherent) :
    registry.linkSupertypes.Coherent :=
  coherent.map_values fun _ _ stands => ⟨stands.recorded, stands.named, stands.parented⟩

/-- Wherever the path of a draft comes from, it ends in the draft's name. A path is taken from a
tag, from the written name or from the container; each of the three is extended by the name in the
last place. -/
theorem name?_path_for (registry : Registry) (draft : Draft) (container : NamePath)
    (scopes : List NamePath) :
    (registry.pathFor draft container scopes).name? = some draft.entity.name := by
  unfold pathFor
  split
  · exact NamePath.name?_child _ _ _
  · unfold targetPath
    dsimp only
    split
    · exact NamePath.name?_child _ _ _
    · exact NamePath.name?_child _ _ _
  · exact NamePath.name?_child _ _ _

mutual

/-- The entities of a displaced draft stand where their records say. The whole tree below a lost
draft is recorded under the path that the draft would have had, level by level. -/
theorem displaced_stands_at (container : NamePath) :
    ∀ tree : Tree Draft, ∀ entity ∈ displaced container tree, entity.StandsAt entity.path
  | .node draft nested, entity, present => by
    rw [displaced, List.mem_cons] at present
    rcases present with rfl | deeper
    · exact Entity.moved_to_stands_at (NamePath.name?_child _ _ _)
    · exact displaced_all_stands_at _ nested entity deeper

/-- The entities of displaced drafts stand where their records say. -/
theorem displaced_all_stands_at (container : NamePath) :
    ∀ forest : List (Tree Draft), ∀ entity ∈ displacedAll container forest,
      entity.StandsAt entity.path
  | [], _, present => absurd present List.not_mem_nil
  | first :: rest, entity, present => by
    rw [displacedAll, List.mem_append] at present
    rcases present with here | later
    · exact displaced_stands_at container first entity here
    · exact displaced_all_stands_at container rest entity later

end

/-- What is kept when an entity is registered where it stands, and when entities are superseded
where they stand. Placing drafts does nothing else. A property of this kind may speak of what is
live and of what is superseded, but not of how many drafts were placed. -/
structure KeptByPlacing (motive : Registry → Prop) : Prop where
  inserted : ∀ {registry next : Registry} {entity : Entity} {directives : Directives}
    {live : Bool}, motive registry → entity.StandsAt entity.path →
      registry.insert entity directives = .ok (next, live) → motive next
  superseded : ∀ {registry : Registry} {lost : List Entity}, motive registry →
    (∀ entity ∈ lost, entity.StandsAt entity.path) →
      motive { registry with superseded := registry.superseded ++ lost }

mutual

/-- What registering and superseding keep holds after a draft was placed. The induction is on the
tree. A draft that became live passes its path on to its children; below one that did not, all of
them are superseded without being registered. -/
theorem KeptByPlacing.place {motive : Registry → Prop} (kept : KeptByPlacing motive) :
    ∀ (tree : Tree Draft) {registry next : Registry} {container : NamePath}
      {scopes : List NamePath}, motive registry →
      place registry container scopes tree = .ok next → motive next
  | .node draft nested, registry, next, container, scopes, holds, placed => by
    have stands := Entity.moved_to_stands_at (name?_path_for registry draft container scopes)
    unfold Registry.place at placed
    dsimp only at placed
    split at placed
    · cases placed
    · next inner inserted =>
      exact kept.place_all nested (kept.inserted holds stands inserted) placed
    · next inner inserted =>
      cases placed
      exact kept.superseded (kept.inserted holds stands inserted)
        (displaced_all_stands_at _ nested)

/-- What registering and superseding keep holds after several drafts were placed. The container and
the scopes are the same for all of them; only the registry changes. -/
theorem KeptByPlacing.place_all {motive : Registry → Prop} (kept : KeptByPlacing motive) :
    ∀ (forest : List (Tree Draft)) {registry next : Registry} {container : NamePath}
      {scopes : List NamePath}, motive registry →
      placeAll registry container scopes forest = .ok next → motive next
  | [], registry, next, container, scopes, holds, placed => by
    cases placed
    exact holds
  | first :: rest, registry, next, container, scopes, holds, placed => by
    unfold Registry.placeAll at placed
    split at placed
    · cases placed
    · next inner placedFirst =>
      exact kept.place_all rest (kept.place first holds placedFirst) placed

end

/-- Placing drafts keeps the registry coherent. -/
theorem coherent_kept_by_placing : KeptByPlacing Coherent :=
  ⟨fun coherent => coherent.insert, fun coherent => coherent.supersede⟩

/-- The registry of all files is coherent. -/
theorem coherent_of_assign {files : List (List (Tree Draft))} {placed : Registry}
    (assigned : assign files = .ok placed) : placed.Coherent :=
  coherent_kept_by_placing.place_all _ coherent_empty assigned

/-- Placing the drafts of all files, settling visibility, lending members and linking supertypes
ends in a coherent registry.

Proof: placing keeps coherence, settling and linking change none of the three fields, and lending is
a sequence of elementary steps each of which keeps it. -/
theorem coherent_of_stages {files : List (List (Tree Draft))} {placed redirected : Registry}
    (assigned : assign files = .ok placed) (steps : Steps placed.settleVisibility redirected) :
    redirected.linkSupertypes.Coherent := by
  have settled : placed.settleVisibility.Coherent :=
    (coherent_of_assign assigned).settle_visibility
  have moved : redirected.Coherent := steps.keep Step.coherent settled
  exact moved.link_supertypes

end Registry

end DocGraph
