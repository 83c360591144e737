import DocGraph.Proofs.Orphans

/-!
# The latest declaration wins at top level

A path with a single segment is never taken by something that was declared inside of something else
and moved with it. While drafts are placed, each of these paths therefore holds the latest of all
entities that were registered under it, in whatever order they came, and the others are superseded.

Lending only takes from these paths: it puts members below the entities they are lent to, and
supersedes lenders. What is still live at a top-level path in the end was live there before, so it
still comes later than everything that is superseded under this path. The path of a lender that was
dropped stays free.

Two invariants are needed, since lending drops lenders and leaves their paths free. While drafts are
placed, a path that lost an entity holds a later one. Afterwards it may hold nothing at all, and
what is left is that it holds nothing earlier.
-/

namespace DocGraph

/-- Of three places each before the next, the first comes before the last. -/
theorem SourceOrder.lt_trans {first second third : SourceOrder}
    (before : Ord.compare first second = .lt) (further : Ord.compare second third = .lt) :
    Ord.compare first third = .lt := by
  show SourceOrder.compare first third = .lt
  exact Std.TransCmp.lt_trans (show SourceOrder.compare first second = .lt from before) further

/-- What comes after a place has the place before it. -/
theorem SourceOrder.lt_of_gt {left right : SourceOrder} (after : Ord.compare left right = .gt) :
    Ord.compare right left = .lt := by
  show SourceOrder.compare right left = .lt
  exact Std.OrientedCmp.gt_iff_lt.mp (show SourceOrder.compare left right = .gt from after)

/-- A path is at the top level when it has a single segment. The root is not at the top level;
nothing stands there. -/
def NamePath.IsTop (path : NamePath) : Prop := path.segments.length = 1

instance (path : NamePath) : Decidable path.IsTop :=
  inferInstanceAs (Decidable (_ = _))

namespace NamePath

variable {path above : NamePath}

/-- What lies below a path other than the root is not at the top level. -/
theorem not_is_top_of_is_below (below : path.isBelow above = true) (inside : above ≠ .root) :
    ¬path.IsTop := by
  intro top
  have positive := List.length_pos_iff.mpr fun empty => inside (eq_of_segments empty)
  have longer := (is_below_iff.mp below).1
  rw [IsTop] at top
  omega

/-- The only path other than the root within which a top-level path lies is this path. -/
theorem eq_of_is_within (within : Registry.isWithin above path = true) (inside : above ≠ .root)
    (top : path.IsTop) : path = above := by
  rw [Registry.isWithin, Bool.or_eq_true, decide_eq_true_eq] at within
  exact within.resolve_right fun below => not_is_top_of_is_below below inside top

end NamePath

namespace Registry

variable {registry next : Registry} {path lender : NamePath} {entity : Entity} {hop : Hop}

/-! ## Placing drafts -/

/-- A superseded entity is outranked when the path it lost holds an entity from later in the source.
The winner is asked for, not only that no earlier entity is live. -/
def Outranked (registry : Registry) (lost : Entity) : Prop :=
  ∃ winner, registry.live.get? lost.path = some winner ∧
    Ord.compare lost.order winner.order = .lt

/-- Every entity that is superseded at the top level is outranked. Deeper paths are left out. A
member that was moved with its container may be superseded by an earlier one that holds its new
path. -/
def LatestWins (registry : Registry) : Prop :=
  ∀ lost ∈ registry.superseded, lost.path.IsTop → registry.Outranked lost

/-- Superseding entities below the top level leaves the others outranked. -/
theorem LatestWins.supersede (wins : registry.LatestWins) {lost : List Entity}
    (deep : ∀ entity ∈ lost, ¬entity.path.IsTop) :
    { registry with superseded := registry.superseded ++ lost }.LatestWins := by
  intro entity present top
  rcases List.mem_append.mp present with earlier | added
  · exact wins entity earlier top
  · exact absurd top (deep entity added)

/-- A superseded subtree of a coherent registry leaves its own root at the top level, and nothing
else. Coherence is what says that the lost entities record the paths at which they were live. -/
theorem Coherent.eq_of_lost (coherent : registry.Coherent) {lost : Entity}
    (swept : lost ∈ (registry.live.filterKeys (isWithin path)).values) (inside : path ≠ .root)
    (top : lost.path.IsTop) : lost.path = path ∧ registry.live.get? path = some lost := by
  obtain ⟨key, entry⟩ := Table.mem_values_iff.mp swept
  obtain ⟨held, within⟩ := List.mem_filter.mp entry
  have found := Table.get?_eq_some_iff.mpr held
  have recorded := (coherent.live found).recorded
  have same := NamePath.eq_of_is_within (recorded ▸ within) inside top
  exact ⟨same, by rwa [← same, recorded]⟩

/-- Registering an entity where it stands leaves the latest one live.

Proof: at a free path nobody was superseded before, or the winner would be live there. An entity
that comes too late is outranked by the one that it met. One that takes the path over supersedes the
subtree, of which only its root can be at the top level, and it outranks that one; whatever had lost
to the old entity loses to the new one. -/
theorem LatestWins.insert (wins : registry.LatestWins) (coherent : registry.Coherent)
    {directives : Directives} {live : Bool} (stands : entity.StandsAt entity.path)
    (inserted : registry.insert entity directives = .ok (next, live)) : next.LatestWins := by
  obtain ⟨free, rfl, _⟩ | ⟨existing, held, later, rfl, _⟩ | ⟨existing, held, sooner, rfl, _⟩ :=
    insert_cases inserted
  · intro lost present top
    obtain ⟨winner, found, before⟩ := wins lost present top
    have apart : lost.path ≠ entity.path := fun same =>
      free (same ▸ Table.mem_keys_of_get? found)
    exact ⟨winner, by simp [apart, found], before⟩
  · intro lost present top
    rcases List.mem_append.mp present with earlier | added
    · exact wins lost earlier top
    · rw [List.mem_singleton.mp added]
      exact ⟨existing, held, SourceOrder.lt_of_gt later⟩
  · intro lost present top
    have outranks (below : Ord.compare lost.order entity.order = .lt)
        (same : lost.path = entity.path) :
        ((registry.supersedeSubtree entity.path).put (shadowing entity) directives).Outranked
          lost :=
      ⟨shadowing entity, by simp [same], below⟩
    rcases List.mem_append.mp present with earlier | swept
    · obtain ⟨winner, found, before⟩ := wins lost earlier top
      by_cases same : lost.path = entity.path
      · rw [same, held] at found
        cases found
        exact outranks (SourceOrder.lt_trans before sooner) same
      · have outside : ¬isWithin entity.path lost.path = true := fun within =>
          same (NamePath.eq_of_is_within within stands.ne_root top)
        refine ⟨winner, ?_, before⟩
        simp [same, outside, found]
    · obtain ⟨same, found⟩ := coherent.eq_of_lost swept stands.ne_root top
      rw [held] at found
      cases found
      exact outranks sooner same

mutual

/-- A displaced draft and what is nested in it lie below the container. So displaced drafts are
below the top level, unless they are displaced at the root, where nothing stands. -/
theorem is_below_of_mem_displaced (container : NamePath) :
    ∀ tree : Tree Draft, ∀ entity ∈ displaced container tree,
      entity.path.isBelow container = true
  | .node draft nested, entity, present => by
    have child : (container.child draft.binding draft.entity.name).isBelow container = true := by
      rw [NamePath.is_below_iff]
      exact ⟨by simp [NamePath.child], List.prefix_append _ _⟩
    rw [displaced, List.mem_cons] at present
    rcases present with rfl | deeper
    · exact child
    · exact NamePath.is_below_trans (is_below_of_mem_displaced_all _ nested entity deeper) child

/-- Displaced drafts and what is nested in them lie below the container. -/
theorem is_below_of_mem_displaced_all (container : NamePath) :
    ∀ forest : List (Tree Draft), ∀ entity ∈ displacedAll container forest,
      entity.path.isBelow container = true
  | [], _, present => absurd present List.not_mem_nil
  | first :: rest, entity, present => by
    rw [displacedAll, List.mem_append] at present
    rcases present with here | later
    · exact is_below_of_mem_displaced container first entity here
    · exact is_below_of_mem_displaced_all container rest entity later

end

mutual

/-- Placing a draft leaves the latest entities live. Coherence is carried along, because registering
asks for it. -/
theorem LatestWins.place :
    ∀ (tree : Tree Draft) {registry next : Registry} {container : NamePath}
      {scopes : List NamePath}, registry.Coherent → registry.LatestWins →
      place registry container scopes tree = .ok next → next.LatestWins
  | .node draft nested, registry, next, container, scopes, coherent, wins, placed => by
    have stands := Entity.moved_to_stands_at (name?_path_for registry draft container scopes)
    obtain ⟨path, arrived, rfl, ⟨inserted, inner⟩ | ⟨inserted, rfl⟩⟩ := place_node placed
    · exact LatestWins.place_all nested (coherent.insert stands inserted)
        (wins.insert coherent stands inserted) inner
    · refine (wins.insert coherent stands inserted).supersede fun entity displaced => ?_
      exact NamePath.not_is_top_of_is_below
        (is_below_of_mem_displaced_all _ nested entity displaced) stands.ne_root

/-- Placing several drafts leaves the latest entities live. -/
theorem LatestWins.place_all :
    ∀ (forest : List (Tree Draft)) {registry next : Registry} {container : NamePath}
      {scopes : List NamePath}, registry.Coherent → registry.LatestWins →
      placeAll registry container scopes forest = .ok next → next.LatestWins
  | [], registry, next, container, scopes, _, wins, placed => by
    cases placed
    exact wins
  | first :: rest, registry, next, container, scopes, coherent, wins, placed => by
    obtain ⟨middle, placedFirst, placedRest⟩ := place_all_cons placed
    exact LatestWins.place_all rest (coherent_kept_by_placing.place first coherent placedFirst)
      (LatestWins.place first coherent wins placedFirst) placedRest

end

/-- When the drafts of all files have been placed, the latest entities are live. -/
theorem latest_wins_of_assign {files : List (List (Tree Draft))} {placed : Registry}
    (assigned : assign files = .ok placed) : placed.LatestWins :=
  LatestWins.place_all _ coherent_empty (fun _ present => absurd present List.not_mem_nil) assigned

/-! ## Lending members -/

/-- What is live at a top-level path comes later than everything that is superseded there. In
contrast to the first invariant it asks for no winner. -/
def NoneLater (registry : Registry) : Prop :=
  ∀ lost ∈ registry.superseded, lost.path.IsTop → ∀ winner,
    registry.live.get? lost.path = some winner → Ord.compare lost.order winner.order = .lt

/-- When the latest entities are live, nothing later is superseded. -/
theorem LatestWins.none_later (wins : registry.LatestWins) : registry.NoneLater := by
  intro lost present top winner found
  obtain ⟨_, again, before⟩ := wins lost present top
  rw [found] at again
  cases again
  exact before

/-- A change keeps the superseded entities before the live ones when it supersedes at the top level
only where nothing is live then, and puts nothing else there. The places are compared and not the
entities, because a relation that is added makes another entity of a live one. -/
theorem NoneLater.of_change {before after : Registry} (behind : before.NoneLater)
    (lost : ∀ entity ∈ after.superseded, entity.path.IsTop →
      entity ∈ before.superseded ∨ entity.path ∉ after.live.keys)
    (held : ∀ path entity, path.IsTop → after.live.get? path = some entity →
      before.LiveAt path entity.order) : after.NoneLater := by
  intro entity present top winner found
  obtain earlier | free := lost entity present top
  · obtain ⟨stood, there, same⟩ := held entity.path winner top found
    exact same ▸ behind entity earlier top stood there
  · exact absurd (Table.mem_keys_of_get? found) free

/-- Changing live entities in place keeps the superseded ones before them. -/
theorem NoneLater.map_values (behind : registry.NoneLater) {f : NamePath → Entity → Entity}
    (kept : ∀ path entity, (f path entity).order = entity.order) :
    { registry with live := registry.live.mapValues f }.NoneLater :=
  behind.of_change (fun _ present _ => .inl present) fun _ entity _ found =>
    (live_at_map_values_iff kept).mp ⟨entity, found, rfl⟩

/-- Taking a path out keeps the superseded entities before the live ones. -/
theorem NoneLater.remove (behind : registry.NoneLater) (path : NamePath) :
    (registry.remove path).NoneLater :=
  behind.of_change (fun _ present _ => .inl present) fun _ entity _ found =>
    ⟨entity, Table.get?_of_filter_keys found, rfl⟩

/-- Superseding an entity below the top level keeps the others before the live ones. -/
theorem NoneLater.add_superseded (behind : registry.NoneLater) (deep : ¬entity.path.IsTop) :
    (registry.addSuperseded entity).NoneLater := by
  refine behind.of_change (fun lost present top => ?_) fun _ live _ found => ⟨live, found, rfl⟩
  rcases List.mem_append.mp present with earlier | added
  · exact .inl earlier
  · exact absurd (List.mem_singleton.mp added ▸ top) deep

/-- Superseding a subtree keeps the superseded entities before the live ones: at its root nothing is
live any more. Everything else that is lost lies deeper. -/
theorem NoneLater.supersede_subtree (behind : registry.NoneLater) (coherent : registry.Coherent)
    (inside : path ≠ .root) : (registry.supersedeSubtree path).NoneLater := by
  refine behind.of_change (fun lost present top => ?_) fun _ live _ found =>
    ⟨live, Table.get?_of_filter_keys found, rfl⟩
  rcases List.mem_append.mp present with earlier | swept
  · exact .inl earlier
  · rw [(coherent.eq_of_lost swept inside top).1]
    exact .inr (not_mem_keys_supersede_subtree registry path)

/-- An entity that becomes live below the top level keeps the superseded entities before the
live ones. -/
theorem NoneLater.put (behind : registry.NoneLater) (deep : ¬entity.path.IsTop)
    (directives : Directives) : (registry.put entity directives).NoneLater := by
  refine behind.of_change (fun _ present _ => .inl present) fun path live top found => ?_
  have apart : path ≠ entity.path := fun same => deep (same ▸ top)
  rw [get?_live_put, if_neg apart] at found
  exact ⟨live, found, rfl⟩

/-- Moving one member to a path below the top level keeps the superseded entities before the live
ones. A member is moved below an entity, so its new path has two segments at least. -/
theorem Moved.none_later {old : NamePath} (moved : Moved lender hop old registry next)
    (behind : registry.NoneLater) (coherent : registry.Coherent)
    (deep : ¬(relocate old lender hop).IsTop) (inside : relocate old lender hop ≠ .root) :
    next.NoneLater := by
  cases moved with
  | passed _ => exact behind
  | displaced found => exact (behind.remove old).add_superseded deep
  | @reinserted entity _ live found inserted =>
    have removed := behind.remove old
    obtain ⟨_, rfl, _⟩ | ⟨_, _, _, rfl, _⟩ | ⟨_, _, _, rfl, _⟩ := insert_cases inserted
    · exact removed.put deep _
    · exact removed.add_superseded deep
    · exact (removed.supersede_subtree (coherent.remove old) inside).put deep _

/-- Moving members below an entity keeps the superseded entities before the live ones. Coherence is
kept by every move and used for the next one. -/
theorem NoneLater.move_each {lost listed : List NamePath} (behind : registry.NoneLater)
    (coherent : registry.Coherent) (inside : hop.target ≠ .root)
    (below : ∀ old ∈ listed, old.isBelow lender = true)
    (finished : (moveEach lender hop lost registry listed).failure = none) :
    (moveEach lender hop lost registry listed).registry.NoneLater := by
  induction listed generalizing registry lost with
  | nil => exact behind
  | cons old rest inductionHypothesis =>
    obtain ⟨next, known, moved, same⟩ := move_each_cons finished
    rw [same] at finished ⊢
    have member := below old List.mem_cons_self
    have arrives := relocate_is_below_target member hop
    have deep := NamePath.not_is_top_of_is_below arrives inside
    have away : relocate old lender hop ≠ .root := by
      intro top
      have longer := (NamePath.is_below_iff.mp arrives).1
      simp [top, NamePath.root] at longer
    exact inductionHypothesis (moved.none_later behind coherent deep away)
      ((moved.steps member).keep Step.coherent coherent)
      (fun later listed => below later (List.mem_cons_of_mem old listed)) finished

/-- Retiring a lender keeps the superseded entities before the live ones. A dropped lender frees its
path, and superseded entities of a free path are no matter. -/
theorem NoneLater.retire (behind : registry.NoneLater) (coherent : registry.Coherent)
    (lender target : NamePath) (text : String) :
    (registry.retire lender target text).NoneLater := by
  refine (retire_keeps (motive := fun after => after.Coherent ∧ after.NoneLater)
    ⟨coherent, behind⟩ ⟨(Step.related registry lender _).coherent coherent, ?recorded⟩
    ?dropped).2
  case recorded =>
    refine behind.map_values fun held entity => ?_
    split <;> rfl
  case dropped =>
    rintro before live _ ⟨stands, kept⟩
    obtain ⟨_, entity, found, _⟩ := live_at_of_mem_keys live
    exact ⟨stands.supersede_subtree lender,
      kept.supersede_subtree stands (coherent.live found).ne_root⟩

/-- The turns of lenders keep the superseded entities before the live ones. -/
theorem NoneLater.lend_members (behind : registry.NoneLater) (coherent : registry.Coherent)
    (finished : registry.lendMembers.failure = none) :
    registry.lendMembers.registry.NoneLater := by
  have recorded : registry.recordStrays.NoneLater := by
    obtain ⟨f, related, same⟩ := registry.record_strays_eq
    rw [same]
    refine behind.map_values fun path entity => ?_
    obtain ⟨relations, changed⟩ := related path entity
    rw [changed]
  refine (lend_all_keeps (motive := fun current => current.Coherent ∧ current.NoneLater) ?_
    finished ⟨(record_strays_steps registry).keep Step.coherent coherent, recorded⟩).2
  rintro before lender text _ done ⟨stands, kept⟩
  refine ⟨(lend_steps done).keep Step.coherent stands, ?_⟩
  obtain ⟨_, same⟩ | ⟨final, lends, _, moves, result⟩ := lend_turn done
  · rwa [same]
  · have inside : final.target ≠ .root := by
      obtain ⟨⟨_, entity⟩, entry, rfl⟩ := List.mem_map.mp lends.mem_keys
      exact (coherent.live (Table.get?_eq_some_iff.mpr entry)).ne_root
    rw [result]
    refine NoneLater.retire ?_ ((move_members_steps moves).keep Step.coherent stands) lender
      final.target text
    exact kept.move_each stands inside (fun _ listed => is_below_of_mem_members listed) moves

end Registry

namespace Build

variable {files : List SourceFile} {config : Config} {output : BuildOutput}

/-- The latest declaration wins at top level. In the graph of a build, whatever was merged,
assigned, displaced or lent on the way, the entity that is live at a path with a single segment
comes later in the source than every entity that is superseded under this path.

Proof: placing leaves the latest entities live at the top level, and from there on nothing later is
superseded: settling and linking do not change places, and lending puts entities below the top level
only. The graph has the live and the superseded entities of the last registry, with their places. -/
theorem latest_wins_at_top_level (built : run files config = .ok output) {path : NamePath}
    (top : path.segments.length = 1) {winner lost : Entity}
    (live : output.graph.live.get? path = some winner)
    (superseded : lost ∈ output.graph.superseded) (recorded : lost.path = path) :
    Ord.compare lost.order winner.order = .lt := by
  obtain ⟨placed, _, _, assigned, _, _⟩ := run_stages built
  obtain ⟨finished, info, made⟩ := run_resolves assigned built
  obtain ⟨lent, linked⟩ := Registry.resolve_eq finished
  have settled : placed.settleVisibility.NoneLater :=
    (Registry.latest_wins_of_assign assigned).none_later.map_values fun _ _ => rfl
  have resolved : placed.resolve.registry.NoneLater := by
    rw [linked]
    refine (settled.lend_members ?_ lent).map_values fun _ _ => rfl
    exact (Registry.coherent_of_assign assigned).settle_visibility
  obtain ⟨before, held, same⟩ := get?_of_run assigned built live
  rw [made] at superseded
  rw [same]
  exact resolved lost superseded (recorded ▸ top) before (recorded ▸ held)

/-- A function that is declared in two files and assigned inside of the first one. -/
def loadedTwice : List SourceFile :=
  [{ path := "first.js"
     declarations :=
      [.node { kind := .function, name := some "load", span := { startLine := 1, endLine := 3 } }
        [.node
          { kind := .assignment, name := some "load", target := some "load",
            span := { startLine := 2, endLine := 2 } } []]] },
   { path := "second.js"
     declarations :=
      [.node { kind := .function, name := some "load", span := { startLine := 1, endLine := 1 } }
        []] }]

/-- The function of the second file is live, and one of the first file is superseded. Both of the
earlier two entities are superseded by the one of the second file, whatever was nested in them. -/
theorem loaded_twice_latest_wins :
    ∃ output winner lost, run loadedTwice {} = .ok output ∧
      output.graph.live.get? (.ofNames ["load"]) = some winner ∧
      lost ∈ output.graph.superseded ∧ lost.path = .ofNames ["load"] ∧
      winner.location.file = "second.js" ∧ Ord.compare lost.order winner.order = .lt := by
  obtain ⟨placed, output, assigned, built, ⟨winner, held, file⟩, lost, superseded, recorded⟩ :=
    exists_run loadedTwice {} (fun placed =>
      (∃ winner ∈ placed.resolve.registry.live.get? (.ofNames ["load"]),
        winner.location.file = "second.js") ∧
      ∃ lost ∈ placed.resolve.registry.superseded, lost.path = .ofNames ["load"])
      (by decide) (by decide +kernel)
  obtain ⟨_, live⟩ := exists_entity_of_resolved assigned built held
  obtain ⟨_, info, made⟩ := run_resolves assigned built
  have listed : lost ∈ output.graph.superseded := made ▸ superseded
  exact ⟨output, _, lost, built, live, listed, recorded, file,
    latest_wins_at_top_level built rfl live listed recorded⟩

end Build

end DocGraph
