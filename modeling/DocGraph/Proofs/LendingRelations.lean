import DocGraph.Proofs.Relations

/-!
# What lending relations lead to

A lender that stays records to which entity its members went. This entity was live before anything
was lent, and the members came to rest there: it does not lend to another one itself. But nobody
looks at the relation again. A later turn may take away what it leads to, and then it leads to
nothing.

The main statement says in which ways this can happen. Either the entity is a member of another
lender, which moves it to another path at its turn; or it lies below a path that something else
takes over, when a member is sent to a path that may be held. A turn that does neither spares the
path, and when all turns spare it, the relation leads to a live entity.

That the turns spare a path is asked of every registry on the way, because what a turn does depends
on what the turns before it have left. For a given input it can be decided by running the lending;
as a premise it says nothing about the outcome for other paths.
-/

namespace DocGraph

namespace Registry

variable {registry : Registry} {hops : Table NamePath Hop} {lender path : NamePath} {hop : Hop}

/-- The turn of a lender spares a path when it does not move what is there to another path, and the
path lies below none that a member may have to take over. The second condition is asked of members
whose new path may be held by something else, since only these supersede anything. -/
structure Spares (registry : Registry) (lender : NamePath) (hop : Hop) (path : NamePath) :
    Prop where
  unmoved : path.isBelow lender = true → relocate path lender hop = path
  uncovered : ∀ member ∈ registry.membersBelow lender, registry.Contested lender hop member →
    path.isBelow (relocate member lender hop) = false

instance (registry : Registry) (lender : NamePath) (hop : Hop) (path : NamePath) :
    Decidable (registry.Spares lender hop path) :=
  decidable_of_iff
    ((path.isBelow lender = true → relocate path lender hop = path) ∧
      ∀ member ∈ registry.membersBelow lender, registry.Contested lender hop member →
        path.isBelow (relocate member lender hop) = false)
    ⟨fun both => ⟨both.1, both.2⟩, fun spares => ⟨spares.unmoved, spares.uncovered⟩⟩

/-- Every turn in the lending of a registry spares a path. It is not said that the path is live; a
path that is not live may be spared, too. -/
def LendingSpares (registry : Registry) (path : NamePath) : Prop :=
  EveryTurn (fun current lender hop => current.Spares lender hop path) registry.hops
    registry.recordStrays registry.lenders

instance (registry : Registry) (path : NamePath) : Decidable (registry.LendingSpares path) :=
  inferInstanceAs (Decidable (EveryTurn _ _ _ _))

/-! ## A turn that spares a path -/

/-- Only a member of a lender that rebinds its own members is moved to its own path. The path keeps
its length only where the lender and its target are equally long, and then they are the same. -/
theorem target_of_relocate (below : path.isBelow lender = true)
    (unmoved : relocate path lender hop = path) : hop.target = lender := by
  obtain ⟨first, rest, split⟩ := segments_of_is_below below
  have arrives := segments_relocate split hop
  rw [unmoved, split] at arrives
  exact NamePath.eq_of_segments (List.append_inj_left' arrives rfl).symm

/-- A path that is spared by the moves of a turn stays live, if need be with another entity.

Proof: the moves are followed one by one. The member that is moved is another path or is put back
where it was; and what a move supersedes lies within the new path of a contested member, where the
spared path does not lie. -/
theorem Spares.move_members (spares : registry.Spares lender hop path)
    (distinct : (registry.living Entity.order).Nodup) (present : path ∈ registry.live.keys) :
    path ∈ (registry.moveMembers lender hop).registry.live.keys := by
  have step {front rest lost known : List NamePath} {old : NamePath} {current next : Registry}
      (underway : Underway registry lender hop front (old :: rest) lost current)
      (carried : Carried lender hop lost old current next known)
      (present : path ∈ current.live.keys) : path ∈ next.live.keys := by
    obtain ⟨_, stands⟩ := live_at_of_mem_keys present
    have home (here : path = old) : relocate old lender hop = path :=
      here ▸ spares.unmoved (here ▸ underway.below)
    cases carried.fate underway.distinct stands with
    | stays _ stays => exact stays.mem_keys
    | arrives here _ arrived => exact home here ▸ arrived.mem_keys
    | displaced here below _ =>
      -- a lost path above would be the contested path of another member
      obtain ⟨above, listed, covers⟩ := List.any_eq_true.mp below
      obtain ⟨member, _, rfl, contested, _⟩ := underway.judged above listed
      rw [home here, spares.uncovered member contested.1 contested] at covers
      cases covers
    | refused here _ _ taken _ => exact home here ▸ taken
    | swept _ within sweeps _ =>
      rw [isWithin, Bool.or_eq_true, decide_eq_true_eq] at within
      obtain rfl | covers := within
      · exact sweeps.taken
      · have contested := underway.contested sweeps.held
        rw [spares.uncovered old contested.1 contested] at covers
        cases covers
  obtain ⟨_, stays⟩ := move_members_keeps
    (motive := fun _ _ _ current => path ∈ current.live.keys) distinct step present
  exact stays

/-- Retiring a lender keeps a path live that does not lie within the lender, unless the lender
rebinds its own members. A lender that rebinds its own members is never dropped. -/
theorem mem_keys_retire {target : NamePath} {text : String} (present : path ∈ registry.live.keys)
    (outside : isWithin lender path = true → target = lender) :
    path ∈ (registry.retire lender target text).live.keys := by
  refine retire_keeps (motive := fun after => path ∈ after.live.keys) present ?recorded ?dropped
  case recorded => rwa [Table.keys_modify]
  case dropped =>
    exact fun before _ elsewhere present => mem_keys_supersede_subtree.mpr
      ⟨present, Bool.not_eq_true _ ▸ fun within => elsewhere (outside within)⟩

/-- A path where members come to rest stays live in a turn that spares it. The lender itself is not
the path, since members come to rest there and the lender leads elsewhere, unless it leads to
itself. -/
theorem Spares.lend (spares : registry.Spares lender hop path) (lends : LendsTo hops lender hop)
    (rests : Rests hops path) (distinct : (registry.living Entity.order).Nodup)
    (present : path ∈ registry.live.keys) (text : String) :
    path ∈
      ((registry.moveMembers lender hop).registry.retire lender hop.target text).live.keys := by
  refine mem_keys_retire (spares.move_members distinct present) fun within => ?_
  rw [isWithin, Bool.or_eq_true, decide_eq_true_eq] at within
  obtain rfl | below := within
  · obtain ⟨first, held, arrives⟩ := lends
    rw [destination, if_pos (rests first held)] at arrives
    cases arrives
    exact rests hop held
  · exact target_of_relocate below (spares.unmoved below)

/-! ## All turns -/

/-- Where members come to rest stays live when all turns spare it. The premise on places is what
lets every move succeed, and it is kept by every turn. -/
theorem LendingSpares.mem_keys (spares : registry.LendingSpares path)
    (rests : Rests registry.hops path) (distinct : (registry.living Entity.order).Nodup)
    (present : path ∈ registry.live.keys) (finished : registry.lendMembers.failure = none) :
    path ∈ registry.lendMembers.registry.live.keys := by
  refine EveryTurn.keeps_in_lending (motive := fun current => path ∈ current.live.keys) ?kept
    spares distinct finished ?present
  case kept =>
    exact fun lends spared apart _ present => spared.lend lends rests apart present _
  case present => rwa [keys_record_strays]

/-! ## What lenders record -/

/-- A lending relation is sound when it is not resolved or leads to where some lender lends. Before
a turn is taken nothing is resolved, and a relation that is linked is none of this kind. -/
def SoundLending (hops : Table NamePath Hop) (relation : Relation) : Prop :=
  relation.kind = .lending → ∀ target, relation.resolved = some target →
    ∃ lender final, LendsTo hops lender final ∧ final.target = target

/-- Linking supertypes leaves the lending relations alone. Only relations to supertypes are
linked. -/
theorem Relates.link_supertypes (sound : registry.Relates (SoundLending hops)) :
    registry.linkSupertypes.Relates (SoundLending hops) := by
  refine sound.map_values fun path entity own relation present => ?_
  obtain ⟨named, listed, rfl⟩ := List.mem_map.mp present
  unfold linkRelation
  split
  · next supertype =>
    intro lending
    simp [show named.kind = .lending from lending, RelationKind.isSupertype] at supertype
  · exact own named listed

end Registry

namespace Build

variable {files : List SourceFile} {config : Config} {output : BuildOutput} {placed : Registry}
  {path : NamePath} {entity : Entity}

/-- In a resolved registry the lending relations that are resolved lead to where lenders lend.
Drafts name their relations without resolving them; the turn of a lender adds one that leads to
where it lends. -/
theorem sound_lending_of_resolve (assigned : Registry.assign
      ((normalized (ordered files config) config).map NormalizedFile.drafts) = .ok placed)
    (finished : placed.resolve.failure = none) : placed.resolve.registry.Relates
      (Registry.SoundLending placed.settleVisibility.hops) := by
  have named (kind : RelationKind) (text : String) :
      Registry.SoundLending placed.settleVisibility.hops { kind := kind, target := text } :=
    fun _ _ resolved => nomatch resolved
  have settled : placed.settleVisibility.Relates
      (Registry.SoundLending placed.settleVisibility.hops) :=
    (relates_of_assign named assigned).map_values fun _ _ own => own
  obtain ⟨lent, linked⟩ := Registry.resolve_eq finished
  rw [linked]
  refine (settled.lend_members named ?_ lent).link_supertypes
  exact fun lender final _ lends _ target leads => ⟨lender, final, lends, Option.some.inj leads⟩

/-- Where members come to rest is live in the resolved registry when all turns spare it. A path
where lenders lend is one where walks rest, and it was live when the hops were resolved. -/
theorem mem_keys_of_lending_spares (counted : Counted (ordered files config) config)
    (assigned : Registry.assign
      ((normalized (ordered files config) config).map NormalizedFile.drafts) = .ok placed)
    (finished : placed.resolve.failure = none) {lender : NamePath} {final : Registry.Hop}
    (lends : Registry.LendsTo placed.settleVisibility.hops lender final)
    (spares : placed.settleVisibility.LendingSpares final.target) :
    final.target ∈ placed.resolve.registry.live.keys := by
  have distinct : (placed.settleVisibility.living Entity.order).Nodup := by
    refine Multiset.nodup_of_le (Registry.living_le_census _) ?_
    rw [Registry.census_settle_visibility Registry.order_lasting,
      Registry.census_assign Registry.order_lasting assigned]
    exact census_order_nodup counted
  obtain ⟨lent, linked⟩ := Registry.resolve_eq finished
  rw [linked, Registry.linkSupertypes, Table.keys_map_values]
  exact spares.mem_keys lends.rests distinct lends.mem_keys lent

/-- A lending relation does not dangle unless a turn takes away what it leads to. In the graph of a
build, a lending relation of a live entity that is resolved leads to a path that was live before
anything was lent, in whatever order and wherever members were lent; and when every turn spares this
path, it is live in the graph.

Proof: the relation is one of the resolved registry, so it leads to where some lender lends, by an
invariant of the turns. Such a path was live before the first turn, and it is one where members come
to rest, so it stays live through turns that spare it. Linking supertypes and making the graph keep
the live paths. -/
theorem lending_relation_live (counted : Counted (ordered files config) config)
    (assigned : Registry.assign
      ((normalized (ordered files config) config).map NormalizedFile.drafts) = .ok placed)
    (built : run files config = .ok output) (found : output.graph.live.get? path = some entity)
    {relation : Relation} (listed : relation ∈ entity.relations)
    (lending : relation.kind = .lending) {target : NamePath}
    (resolved : relation.resolved = some target) :
    target ∈ placed.live.keys ∧
      (placed.settleVisibility.LendingSpares target → target ∈ output.graph.live.keys) := by
  obtain ⟨finished, _⟩ := run_resolves assigned built
  obtain ⟨before, held, same⟩ := get?_of_run assigned built found
  rw [same] at listed
  obtain ⟨lender, final, lends, rfl⟩ := sound_lending_of_resolve assigned finished path before held
    relation listed lending target resolved
  have paths : placed.settleVisibility.live.keys = placed.live.keys := Table.keys_map_values _ _
  refine ⟨paths ▸ lends.mem_keys, fun spares => ?_⟩
  rw [mem_keys_of_run assigned built]
  exact mem_keys_of_lending_spares counted assigned finished lends spares

/-- Two mixins of which one lends to the other, and this one to a member of a class to which a
third class lends as well. -/
def lentOnwards : List SourceFile :=
  [{ path := "a.js"
     comments := [⟨"/** A mixin.\n * @lends Target.Inner */", { startLine := 4, endLine := 5 }⟩,
       ⟨"/** Another one.\n * @lends Mixin */", { startLine := 7, endLine := 8 }⟩,
       ⟨"/** @lends Target */", { startLine := 10, endLine := 10 }⟩]
     declarations :=
      [.node { kind := .classDecl, name := some "Target", span := { startLine := 1, endLine := 3 } }
        [.node { kind := .classDecl, name := some "Inner", isStatic := true,
                 span := { startLine := 2, endLine := 2 } } []],
       .node { kind := .classDecl, name := some "Mixin", span := { startLine := 6, endLine := 6 } }
        [],
       .node
        { kind := .classDecl, name := some "Further", span := { startLine := 9, endLine := 9 } } [],
       .node
        { kind := .classDecl, name := some "Outer", span := { startLine := 11, endLine := 13 } }
        [.node { kind := .classDecl, name := some "Other", isStatic := true,
                 span := { startLine := 12, endLine := 12 } } []]] }]

/-- The first mixin leads to where its members finally went, and this is live. The condition on the
turns is evaluated together with the build. -/
theorem lent_onwards_relation_live :
    Counted (ordered lentOnwards {}) {} ∧ ∃ placed output entity,
      Registry.assign ((normalized (ordered lentOnwards {}) {}).map NormalizedFile.drafts) =
        .ok placed ∧
      run lentOnwards {} = .ok output ∧
      output.graph.live.get? (.ofNames ["Further"]) = some entity ∧
      ⟨.lending, "Mixin", some (.ofNames ["Target", "Inner"])⟩ ∈ entity.relations ∧
      placed.settleVisibility.LendingSpares (.ofNames ["Target", "Inner"]) ∧
      .ofNames ["Target", "Inner"] ∈ placed.live.keys ∧
      .ofNames ["Target", "Inner"] ∈ output.graph.live.keys := by
  have counted : Counted (ordered lentOnwards {}) {} :=
    (counted_of_few (by decide) (by decide)).ordered
  obtain ⟨placed, output, assigned, built, spares, before, held, listed⟩ :=
    exists_run lentOnwards {} (fun placed =>
      placed.settleVisibility.LendingSpares (.ofNames ["Target", "Inner"]) ∧
      ∃ entity ∈ placed.resolve.registry.live.get? (.ofNames ["Further"]),
        ⟨.lending, "Mixin", some (.ofNames ["Target", "Inner"])⟩ ∈ entity.relations)
      (by decide) (by decide +kernel)
  obtain ⟨_, found⟩ := exists_entity_of_resolved assigned built held
  obtain ⟨stood, stays⟩ :=
    lending_relation_live counted assigned built found listed rfl rfl
  exact ⟨counted, placed, output, _, assigned, built, found, listed, spares, stood,
    stays spares⟩

/-- A mixin that lends to a class that is a member of another one, which is lent after it. -/
def movedAfterwards : List SourceFile :=
  [{ path := "a.js"
     comments := [⟨"/** A mixin.\n * @lends Outer.Inner */", { startLine := 2, endLine := 3 }⟩,
       ⟨"/** @lends Target */", { startLine := 5, endLine := 5 }⟩]
     declarations :=
      [.node { kind := .classDecl, name := some "Target", span := { startLine := 1, endLine := 1 } }
        [],
       .node { kind := .classDecl, name := some "Mixin", span := { startLine := 4, endLine := 4 } }
        [],
       .node { kind := .classDecl, name := some "Outer", span := { startLine := 6, endLine := 8 } }
        [.node { kind := .classDecl, name := some "Inner", isStatic := true,
                 span := { startLine := 7, endLine := 7 } } []]] }]

/-- The inner class is moved on, and the relation of the mixin leads to nothing. The class is a
member of a lender whose turn comes later, which is the first of the two ways. -/
theorem moved_afterwards_dangles :
    ∃ output path entity relation target, run movedAfterwards {} = .ok output ∧
      output.graph.live.get? path = some entity ∧ relation ∈ entity.relations ∧
      relation.kind = .lending ∧ relation.resolved = some target ∧
      target ∉ output.graph.live.keys := by
  obtain ⟨placed, output, assigned, built, missing, before, held, listed⟩ :=
    exists_run movedAfterwards {} (fun placed =>
      .ofNames ["Outer", "Inner"] ∉ placed.resolve.registry.live.keys ∧
      ∃ entity ∈ placed.resolve.registry.live.get? (.ofNames ["Mixin"]),
        ⟨.lending, "Outer.Inner", some (.ofNames ["Outer", "Inner"])⟩ ∈ entity.relations)
      (by decide) (by decide +kernel)
  obtain ⟨_, found⟩ := exists_entity_of_resolved assigned built held
  rw [← mem_keys_of_run assigned built] at missing
  exact ⟨output, _, _, _, _, built, found, listed, rfl, rfl, missing⟩

end Build

end DocGraph
