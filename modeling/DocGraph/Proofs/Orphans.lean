import DocGraph.Proofs.LendingTurns
import DocGraph.Proofs.ResolvedRuns
import DocGraph.Proofs.Together

/-!
# Members keep a live parent

An entity whose parent is live before any member is lent should have a live parent in the graph. The
turn of a lender can break this in two ways. The target is found in the layout before any turn; by
now it may have been moved away or superseded, and then the members are put below a path at which
nothing is live. And a member may be bereft of its parent during the turn itself, when the parent is
superseded on the way and nothing comes in its place.

A turn in which neither happens is called orderly. The main statement says that there is no third
way: when all turns are orderly, in whatever order they come and wherever the targets lie, every
entity of the graph that had a live parent before the lending has a live parent.

An entity is followed by its place, and the fact that is carried from turn to turn is that its
parent is live wherever it is live itself. Nothing is said of entities that are superseded on the
way; they have no parent to keep.
-/

namespace DocGraph

namespace Registry

variable {registry : Registry} {hops : Table NamePath Hop} {lender path : NamePath} {hop : Hop}
  {owner : SourceOrder}

/-- An entity is housed when its parent is live, wherever it is live itself. An entity that is not
live is housed, so superseding never breaks it. -/
def Housed (registry : Registry) (owner : SourceOrder) : Prop :=
  ∀ path, registry.LiveAt path owner →
    ∃ above, path.parent? = some above ∧ above ∈ registry.live.keys

/-- The turn of a lender is orderly when the target is live, if there is anything to lend, and no
member is bereft of its parent. Both conditions are about the registry as the turn finds it. The
second one only concerns members whose parent is lent along; direct members of the lender come to
the target. -/
structure Orderly (registry : Registry) (lender : NamePath) (hop : Hop) : Prop where
  found : registry.membersBelow lender ≠ [] → hop.target ∈ registry.live.keys
  kept : ∀ member ∈ registry.membersBelow lender, ∀ above ∈ registry.membersBelow lender,
    member.parent? = some above → ¬registry.Bereft lender hop above member

instance (registry : Registry) (lender : NamePath) (hop : Hop) :
    Decidable (registry.Orderly lender hop) :=
  decidable_of_iff
    ((registry.membersBelow lender ≠ [] → hop.target ∈ registry.live.keys) ∧
      ∀ member ∈ registry.membersBelow lender, ∀ above ∈ registry.membersBelow lender,
        member.parent? = some above → ¬registry.Bereft lender hop above member)
    ⟨fun both => ⟨both.1, both.2⟩, fun orderly => ⟨orderly.found, orderly.kept⟩⟩

/-- Every turn in the lending of a registry is orderly. It is decided by running the turns one after
the other. -/
def OrderlyLending (registry : Registry) : Prop :=
  EveryTurn Orderly registry.hops registry.recordStrays registry.lenders

instance (registry : Registry) : Decidable registry.OrderlyLending :=
  inferInstanceAs (Decidable (EveryTurn _ _ _ _))

/-! ## The moves of a turn -/

section Moves

variable {start : Registry} {above : NamePath}

/-- A direct member of a lender that does not lend below itself is not moved twice: it can only come
to a path that is listed when the lender rebinds its own members. Its new path lies right below the
target, and a listed path lies below the lender. -/
theorem not_moved_twice_of_direct (outward : hop.target.isBelow lender = false)
    (child : path.parent? = some lender) : ¬start.MovedTwice lender hop path := by
  rintro ⟨listed, _, moves⟩
  obtain ⟨inside, last, grows⟩ := NamePath.parent?_eq_some_iff.mp child
  have split := segments_relocate grows hop
  have below := (mem_members_below.mp listed).2
  have home : hop.target = lender := by
    by_cases top : hop.target = .root
    · have short := (NamePath.is_below_iff.mp below).1
      have positive := List.length_pos_iff.mpr fun empty => inside (NamePath.eq_of_segments empty)
      rw [split, top] at short
      simp only [NamePath.root, List.nil_append, List.length_singleton] at short
      omega
    · have parent := parent?_relocate_of_direct child top
      obtain same | further := (NamePath.is_below_iff_of_parent parent).mp below
      · exact same.symm
      · rw [outward] at further
        cases further
  refine moves (NamePath.eq_of_segments ?_)
  rw [segments_relocate (home ▸ split) hop, split]

/-- A direct member of a lender arrives or is superseded. What could come in between is that it is
moved a second time, which is excluded. -/
theorem direct_arrives (distinct : (start.living Entity.order).Nodup)
    (outward : hop.target.isBelow lender = false) (child : path.parent? = some lender)
    (stood : start.LiveAt path owner) :
    owner ∉ (start.moveMembers lender hop).registry.living Entity.order ∨
      (start.moveMembers lender hop).registry.LiveAt (relocate path lender hop) owner := by
  have once : ¬start.MovedTwice lender hop path := not_moved_twice_of_direct outward child
  have step {front rest lost known : List NamePath} {old : NamePath} {current next : Registry}
      (underway : Underway start lender hop front (old :: rest) lost current)
      (carried : Carried lender hop lost old current next known)
      (either : owner ∉ current.living Entity.order ∨
        (path ∈ old :: rest ∧ current.LiveAt path owner) ∨
        (path ∈ front ∧ current.LiveAt (relocate path lender hop) owner)) :
      owner ∉ next.living Entity.order ∨ (path ∈ rest ∧ next.LiveAt path owner) ∨
        (path ∈ front ++ [old] ∧ next.LiveAt (relocate path lender hop) owner) := by
    obtain gone | ⟨waits, stands⟩ | ⟨passed, stands⟩ := either
    · exact .inl (underway.gone carried gone)
    · obtain ⟨apart, stands⟩ | ⟨here, stands⟩ | gone :=
        (carried.fate underway.distinct stands).outcome
      · exact .inr (.inl ⟨(List.mem_cons.mp waits).resolve_left apart, stands⟩)
      · exact .inr (.inr ⟨List.mem_append_right _ (List.mem_singleton.mpr here), stands⟩)
      · exact .inl gone
    · obtain staying | ⟨gone, _⟩ := stays_of_passed once underway carried passed stands
      · exact .inr (.inr ⟨List.mem_append_left _ passed, staying⟩)
      · exact .inl gone
  have listed := mem_members_below.mpr ⟨stood.mem_keys, NamePath.is_below_parent child⟩
  obtain ⟨_, gone | ⟨waits, _⟩ | ⟨_, stands⟩⟩ := move_members_keeps
    (motive := fun front rest _ current => owner ∉ current.living Entity.order ∨
      (path ∈ rest ∧ current.LiveAt path owner) ∨
      (path ∈ front ∧ current.LiveAt (relocate path lender hop) owner))
    distinct step (.inr (.inl ⟨listed, stood⟩))
  · exact .inl gone
  · exact absurd waits List.not_mem_nil
  · exact .inr stands

/-- The target of a lender stays live while members are put below it. A member that takes over a
path supersedes what lies below it, and the target lies above. -/
theorem target_stays (distinct : (start.living Entity.order).Nodup)
    (outward : hop.target.isBelow lender = false) (present : hop.target ∈ start.live.keys) :
    hop.target ∈ (start.moveMembers lender hop).registry.live.keys := by
  have step {front rest lost known : List NamePath} {old : NamePath} {current next : Registry}
      (underway : Underway start lender hop front (old :: rest) lost current)
      (carried : Carried lender hop lost old current next known)
      (present : hop.target ∈ current.live.keys) : hop.target ∈ next.live.keys := by
    obtain ⟨_, stands⟩ := live_at_of_mem_keys present
    obtain stays | ⟨within, _⟩ :=
      (carried.fate underway.distinct stands).elsewhere (underway.outside outward)
    · exact stays.mem_keys
    · exact absurd within (not_is_within_of_is_below (relocate_is_below_target underway.below hop))
  obtain ⟨_, present⟩ := move_members_keeps
    (motive := fun _ _ _ current => hop.target ∈ current.live.keys) distinct step present
  exact present

/-- What is not lent stays with its parent or is superseded: whatever takes over the parent's path
takes over everything below it.

Proof: the moves are followed one by one. A member that is carried sweeps a path; if that lies at or
above the parent, the entity is swept along with it, and otherwise the parent stays. -/
theorem stays_with_parent (distinct : (start.living Entity.order).Nodup)
    (outside : path.isBelow lender = false) (child : path.parent? = some above)
    (stood : start.LiveAt path owner) (present : above ∈ start.live.keys) :
    owner ∉ (start.moveMembers lender hop).registry.living Entity.order ∨
      ((start.moveMembers lender hop).registry.LiveAt path owner ∧
        above ∈ (start.moveMembers lender hop).registry.live.keys) := by
  have deeper := NamePath.is_below_parent child
  have step {front rest lost known : List NamePath} {old : NamePath} {current next : Registry}
      (underway : Underway start lender hop front (old :: rest) lost current)
      (carried : Carried lender hop lost old current next known)
      (either : owner ∉ current.living Entity.order ∨
        (current.LiveAt path owner ∧ above ∈ current.live.keys)) :
      owner ∉ next.living Entity.order ∨ (next.LiveAt path owner ∧ above ∈ next.live.keys) := by
    have apart := underway.outside outside
    have aboveOutside : above.isBelow lender = false := by
      rw [← Bool.not_eq_true]
      intro below
      rw [NamePath.is_below_trans deeper below] at outside
      cases outside
    obtain gone | ⟨stands, present⟩ := either
    · exact .inl (underway.gone carried gone)
    · obtain stays | ⟨_, _, gone⟩ :=
        (carried.fate underway.distinct stands).elsewhere apart
      · obtain ⟨_, chiefStands⟩ := live_at_of_mem_keys present
        obtain aboveStays | ⟨within, sweeps, _⟩ :=
          (carried.fate underway.distinct chiefStands).elsewhere (underway.outside aboveOutside)
        · exact .inr ⟨stays, aboveStays.mem_keys⟩
        · exact .inl (sweeps.gone stands apart (is_within_of_is_below within deeper))
      · exact .inl gone
  obtain ⟨_, either⟩ := move_members_keeps
    (motive := fun _ _ _ current => owner ∉ current.living Entity.order ∨
      (current.LiveAt path owner ∧ above ∈ current.live.keys))
    distinct step (.inr ⟨stood, present⟩)
  exact either

/-- An entity that is live at one path with a live parent is housed. Distinct places make the one
path the only one. -/
theorem housed_of_live_at (distinct : (registry.living Entity.order).Nodup)
    (stands : registry.LiveAt path owner) (child : path.parent? = some above)
    (present : above ∈ registry.live.keys) : registry.Housed owner := by
  intro other also
  obtain rfl := stands.path_eq distinct also
  exact ⟨above, child, present⟩

/-- What is not live is housed. -/
theorem housed_of_gone (gone : owner ∉ registry.living Entity.order) : registry.Housed owner :=
  fun _ stands => absurd stands.mem_living gone

/-- Orderly moves keep entities housed.

Proof: an entity that is not lent stays with its parent. A direct member comes to the target, which
stays. Any other member has its parent among the members, and arrives below the new path of the
parent, where something is live because the parent is not bereft. -/
theorem Housed.move_members (housed : start.Housed owner)
    (distinct : (start.living Entity.order).Nodup) (rooted : .root ∉ start.live.keys)
    (outward : hop.target.isBelow lender = false) (orderly : start.Orderly lender hop) :
    (start.moveMembers lender hop).registry.Housed owner := by
  have steps : Steps start (start.moveMembers lender hop).registry :=
    move_members_steps (move_each_succeeds distinct)
  have apart := Multiset.nodup_of_le (steps.living_le order_lasting) distinct
  by_cases living : owner ∈ start.living Entity.order
  · obtain ⟨path, stood⟩ := live_at_of_mem_living living
    obtain ⟨above, child, present⟩ := housed path stood
    cases below : path.isBelow lender with
    | false =>
      obtain gone | ⟨stands, present⟩ :=
        @stays_with_parent lender path hop owner start above distinct below child stood present
      · exact housed_of_gone gone
      · exact housed_of_live_at apart stands child present
    | true =>
      have listed := mem_members_below.mpr ⟨stood.mem_keys, below⟩
      obtain rfl | inside := (NamePath.is_below_iff_of_parent child).mp below
      · have target := orderly.found (List.ne_nil_of_mem listed)
        have deep : hop.target ≠ .root := fun top => rooted (top ▸ target)
        obtain gone | stands := direct_arrives distinct outward child stood
        · exact housed_of_gone gone
        · exact housed_of_live_at apart stands (parent?_relocate_of_direct child deep)
            (target_stays distinct outward target)
      · obtain ⟨chief, chiefStood⟩ := live_at_of_mem_keys present
        have kept := orderly.kept path listed above (mem_members_below.mpr ⟨present, inside⟩) child
        obtain gone | ⟨stands, _, holds, _⟩ :=
          arrive_together distinct inside (NamePath.is_below_parent child) chiefStood stood kept
        · exact housed_of_gone gone
        · exact housed_of_live_at apart stands (parent?_relocate inside child hop) holds.mem_keys
  · exact housed_of_gone fun present =>
      living (Multiset.mem_of_le (steps.living_le order_lasting) present)

end Moves

/-! ## Whole turns -/

/-- Changing live entities in place does not move them. -/
theorem live_at_map_values_iff {f : NamePath → Entity → Entity}
    (kept : ∀ path entity, (f path entity).order = entity.order) :
    { registry with live := registry.live.mapValues f }.LiveAt path owner ↔
      registry.LiveAt path owner := by
  constructor
  · rintro ⟨_, found, rfl⟩
    obtain ⟨entity, held, rfl⟩ := Table.get?_map_values_eq_some_iff.mp found
    exact ⟨entity, held, (kept path entity).symm⟩
  · rintro ⟨entity, held, rfl⟩
    exact ⟨f path entity, by simp [held], kept path entity⟩

/-- Changing live entities in place keeps entities housed. -/
theorem Housed.map_values (housed : registry.Housed owner) {f : NamePath → Entity → Entity}
    (kept : ∀ path entity, (f path entity).order = entity.order) :
    { registry with live := registry.live.mapValues f }.Housed owner := by
  intro path stands
  obtain ⟨above, child, present⟩ := housed path ((live_at_map_values_iff kept).mp stands)
  exact ⟨above, child, by rwa [Table.keys_map_values]⟩

/-- An entity that is live after a subtree was superseded was live before, outside of it. -/
theorem LiveAt.of_supersede_subtree {root : NamePath}
    (stands : (registry.supersedeSubtree root).LiveAt path owner) :
    registry.LiveAt path owner ∧ isWithin root path = false := by
  obtain ⟨entity, found, same⟩ := stands
  have outside := (mem_keys_supersede_subtree.mp (Table.mem_keys_of_get? found)).2
  rw [get?_live_supersede_subtree, if_neg (by simp [outside])] at found
  exact ⟨⟨entity, found, same⟩, outside⟩

/-- Superseding a subtree keeps entities housed: a parent is not superseded without what lies below
it. If the parent lies in the subtree, so does the entity. -/
theorem Housed.supersede_subtree (housed : registry.Housed owner) (root : NamePath) :
    (registry.supersedeSubtree root).Housed owner := by
  intro path stands
  obtain ⟨stood, outside⟩ := stands.of_supersede_subtree
  obtain ⟨above, child, present⟩ := housed path stood
  refine ⟨above, child, mem_keys_supersede_subtree.mpr ⟨present, ?_⟩⟩
  rw [← Bool.not_eq_true] at outside ⊢
  exact fun within => outside (is_within_of_is_below within (NamePath.is_below_parent child))

/-- Retiring a lender keeps entities housed. The lender may be dropped with what is left below
it. -/
theorem Housed.retire (housed : registry.Housed owner) (lender target : NamePath)
    (text : String) : (registry.retire lender target text).Housed owner := by
  refine retire_keeps (motive := fun after => after.Housed owner) housed ?recorded
    fun _ _ _ housed => housed.supersede_subtree lender
  case recorded =>
    refine housed.map_values fun held entity => ?_
    split <;> rfl

/-- Lending keeps entities housed when all turns are orderly. The root is never live, because the
registry stays coherent from turn to turn; so a target that is live is not the root, and it is the
parent of what is put right below it.

Proof: recording the targets that do not exist changes relations only, and each orderly turn keeps
coherence and housing: its moves do, and retiring the lender does. -/
theorem Housed.lend_members (housed : registry.Housed owner)
    (distinct : (registry.living Entity.order).Nodup) (coherent : registry.Coherent)
    (orderly : registry.OrderlyLending) (finished : registry.lendMembers.failure = none) :
    registry.lendMembers.registry.Housed owner := by
  refine (EveryTurn.keeps_in_lending
    (motive := fun current => current.Coherent ∧ current.Housed owner)
    ?kept orderly distinct finished ⟨?coherent, ?housed⟩).2
  case kept =>
    rintro before lender final text lends turn apart steps ⟨coherent, housed⟩
    have rooted : .root ∉ before.live.keys := by
      intro top
      obtain ⟨_, entity, found, _⟩ := live_at_of_mem_keys top
      exact (coherent.live found).ne_root rfl
    exact ⟨steps.keep Step.coherent coherent,
      (housed.move_members apart rooted lends.target turn).retire lender final.target text⟩
  case coherent => exact registry.record_strays_steps.keep Step.coherent coherent
  case housed =>
    obtain ⟨f, related, same⟩ := registry.record_strays_eq
    rw [same]
    refine housed.map_values fun path entity => ?_
    obtain ⟨relations, changed⟩ := related path entity
    rw [changed]

/-- Resolving a registry keeps entities housed when all turns are orderly. Before and after lending
only fields are changed that have nothing to do with places. -/
theorem Housed.resolve (housed : registry.Housed owner)
    (distinct : (registry.census Entity.order).Nodup) (coherent : registry.Coherent)
    (orderly : registry.settleVisibility.OrderlyLending)
    (finished : registry.resolve.failure = none) : registry.resolve.registry.Housed owner := by
  obtain ⟨lent, same⟩ := resolve_eq finished
  have settled : registry.settleVisibility.Housed owner := housed.map_values fun _ _ => rfl
  have apart : (registry.settleVisibility.living Entity.order).Nodup := by
    refine Multiset.nodup_of_le (living_le_census _) ?_
    rwa [census_settle_visibility order_lasting]
  rw [same]
  exact (settled.lend_members apart coherent.settle_visibility orderly lent).map_values
    fun _ _ => rfl

end Registry

namespace Build

/-- Members that are lent keep a live parent, as do all other entities, when every turn of the
lending is orderly: an entity of the graph whose parent was live before anything was lent has the
parent that its path has, and this parent is live in the graph.

The premise on turns has two ways to fail, which are the ways in which a member can lose its parent.

Proof: the entity is housed when all drafts are placed, since it is live at one path with a live
parent. Resolving keeps it housed, so it has a live parent in the end; and as the registry is
coherent, that is the parent which its record names. -/
theorem live_parent_of_orderly_lending {files : List SourceFile} {config : Config}
    {output : BuildOutput} {placed : Registry} {path first above : NamePath} {entity : Entity}
    (counted : Counted (ordered files config) config)
    (assigned : Registry.assign
      ((normalized (ordered files config) config).map NormalizedFile.drafts) = .ok placed)
    (built : run files config = .ok output)
    (orderly : placed.settleVisibility.OrderlyLending)
    (stood : placed.LiveAt first entity.order) (child : first.parent? = some above)
    (present : above ∈ placed.live.keys) (live : output.graph.live.get? path = some entity) :
    ∃ parent, entity.parent = some parent ∧ path.parent? = some parent ∧
      parent ∈ output.graph.live.keys := by
  obtain ⟨finished, _⟩ := run_resolves assigned built
  have distinct : (placed.census Entity.order).Nodup := by
    obtain ⟨registry, again, distinct⟩ := assign_succeeds counted
    rw [assigned] at again
    cases again
    exact distinct
  have coherent := Registry.coherent_of_assign assigned
  have housed : placed.Housed entity.order := Registry.housed_of_live_at
    (Multiset.nodup_of_le (Registry.living_le_census _) distinct) stood child present
  have resolved := housed.resolve distinct coherent orderly finished
  obtain ⟨before, held, same⟩ := get?_of_run assigned built live
  obtain ⟨parent, below, alive⟩ := resolved path ⟨before, held, by rw [same]⟩
  have agrees := (Registry.agrees_throughout assigned).2 finished
  obtain ⟨_, _, recorded⟩ := agrees.recorded before (.inl (Table.mem_values_of_get? held))
  rw [agrees.keyed held, below] at recorded
  exact ⟨parent, same ▸ recorded, below, (mem_keys_of_run assigned built).mpr alive⟩

/-- A class is lent to a class that is a member of another one, and that one is lent after it. -/
def innerTarget : List SourceFile :=
  [{ path := "a.js"
     comments := [⟨"/** @lends Outer.Inner */", { startLine := 2, endLine := 2 }⟩,
       ⟨"/** @lends Target */", { startLine := 6, endLine := 6 }⟩]
     declarations :=
      [.node { kind := .classDecl, name := some "Target", span := { startLine := 1, endLine := 1 } }
        [],
       .node { kind := .classDecl, name := some "Mixin", span := { startLine := 3, endLine := 5 } }
        [.node { kind := .method, name := some "run", isStatic := true,
                 span := { startLine := 4, endLine := 4 } } []],
       .node { kind := .classDecl, name := some "Outer", span := { startLine := 7, endLine := 9 } }
        [.node { kind := .classDecl, name := some "Inner", isStatic := true,
                 span := { startLine := 8, endLine := 8 } } []]] }]

/-- The method goes to the inner class first and then along with it, and has a live parent in
the end. -/
theorem inner_target_live_parent :
    Counted (ordered innerTarget {}) {} ∧ ∃ placed output,
      Registry.assign ((normalized (ordered innerTarget {}) {}).map NormalizedFile.drafts) =
        .ok placed ∧
      run innerTarget {} = .ok output ∧ placed.settleVisibility.OrderlyLending ∧
      ∃ entity, output.graph.live.get? (.ofNames ["Target", "Inner", "run"]) = some entity ∧
        placed.LiveAt (.ofNames ["Mixin", "run"]) entity.order ∧
        .ofNames ["Mixin"] ∈ placed.live.keys ∧
        ∃ parent, entity.parent = some parent ∧
          NamePath.parent? (.ofNames ["Target", "Inner", "run"]) = some parent ∧
          parent ∈ output.graph.live.keys := by
  have counted : Counted (ordered innerTarget {}) {} :=
    (counted_of_few (by decide) (by decide)).ordered
  obtain ⟨placed, output, assigned, built, orderly, present, stood, arrived⟩ :=
    exists_run innerTarget {} (fun placed => placed.settleVisibility.OrderlyLending ∧
      .ofNames ["Mixin"] ∈ placed.live.keys ∧
      placed.LiveAt (.ofNames ["Mixin", "run"]) { sequence := 2 } ∧
      placed.resolve.registry.LiveAt (.ofNames ["Target", "Inner", "run"]) { sequence := 2 })
      (by decide) (by decide +kernel)
  obtain ⟨entity, live, same⟩ := exists_of_resolved assigned built arrived
  have child : NamePath.parent? (.ofNames ["Mixin", "run"]) = some (.ofNames ["Mixin"]) := by
    decide
  rw [← same] at stood
  exact ⟨counted, placed, output, assigned, built, orderly, entity, live, stood, present,
    live_parent_of_orderly_lending counted assigned built orderly stood child present live⟩

/-- A class is lent to a class that is a member of another one, which is lent before. -/
def movedTarget : List SourceFile :=
  [{ path := "a.js"
     comments := [⟨"/** @lends Target */", { startLine := 2, endLine := 2 }⟩,
       ⟨"/** @lends Outer.Inner */", { startLine := 7, endLine := 7 }⟩]
     declarations :=
      [.node { kind := .classDecl, name := some "Target", span := { startLine := 1, endLine := 1 } }
        [],
       .node { kind := .classDecl, name := some "Outer", span := { startLine := 3, endLine := 6 } }
        [.node { kind := .classDecl, name := some "Inner", isStatic := true,
                 span := { startLine := 4, endLine := 5 } } []],
       .node { kind := .classDecl, name := some "Mixin", span := { startLine := 8, endLine := 10 } }
        [.node { kind := .method, name := some "run", isStatic := true,
                 span := { startLine := 9, endLine := 9 } } []]] }]

/-- The target is moved away before its turn: the method had a live parent and is lent, and in the
graph nothing is live at the path of its parent. The target was live when hops were resolved and is
not live at its turn, so the turn is not orderly. -/
theorem moved_target_orphan :
    Counted (ordered movedTarget {}) {} ∧ ∃ placed output,
      Registry.assign ((normalized (ordered movedTarget {}) {}).map NormalizedFile.drafts) =
        .ok placed ∧
      run movedTarget {} = .ok output ∧ ∃ first above path entity,
        placed.LiveAt first entity.order ∧ first.parent? = some above ∧
        above ∈ placed.live.keys ∧ path ≠ first ∧
        output.graph.live.get? path = some entity ∧ ∃ parent, path.parent? = some parent ∧
        parent ∉ output.graph.live.keys := by
  have counted : Counted (ordered movedTarget {}) {} :=
    (counted_of_few (by decide) (by decide)).ordered
  obtain ⟨placed, output, assigned, built, present, stood, arrived, missing⟩ :=
    exists_run movedTarget {} (fun placed => .ofNames ["Mixin"] ∈ placed.live.keys ∧
      placed.LiveAt (.ofNames ["Mixin", "run"]) { sequence := 4 } ∧
      placed.resolve.registry.LiveAt (.ofNames ["Outer", "Inner", "run"]) { sequence := 4 } ∧
      .ofNames ["Outer", "Inner"] ∉ placed.resolve.registry.live.keys)
      (by decide) (by decide +kernel)
  obtain ⟨entity, live, same⟩ := exists_of_resolved assigned built arrived
  rw [← same] at stood
  refine ⟨counted, placed, output, assigned, built, _, .ofNames ["Mixin"], _, entity, stood,
    by decide, present, by decide, live, .ofNames ["Outer", "Inner"], by decide, ?_⟩
  rwa [mem_keys_of_run assigned built]

end Build

end DocGraph
