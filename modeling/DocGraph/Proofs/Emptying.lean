import DocGraph.Proofs.Directives
import DocGraph.Proofs.Landing

/-!
# When a lender ends up without members

A lender is to give all of its members away. At its turn it does, but only if it is still found
where it was declared, and for what is put below it later nothing is done. So there are two ways in
which a lender can end up with members. A lender that is itself a member of another lender may be
moved, members and all, before its turn; its path is then not live when its turn comes, and it is
passed over. And something else may get below a place where the lender comes to stand: when a lender
lends into another one, when a member without a live container is put where the container would be,
or when the lender is moved to a place that has members.

The main statement says that there is no third way. A lender that cannot have been moved before its
turn, and for which nothing that may be live in the end lies below a place that it may come to in
the end, either is live in the end, with its directives and without any live member, or it was
superseded.

Both conditions are about an over-approximation of where paths may be brought by turns. It ignores
the contents of the registry, so it can be computed for a given input; in exchange it may keep a
lender from being covered that ends up empty all the same.
-/

namespace DocGraph

namespace Entity

/-- An entity becomes another one when they differ at most in where they stand and in their
relations. It says that an entity that is found later is the one that was there before, although
nothing in it names it. -/
def Becomes (entity other : Entity) : Prop :=
  ∃ path parent relations,
    other = { entity with path := path, parent := parent, relations := relations }

variable {entity other : Entity}

/-- An entity becomes itself. -/
theorem Becomes.refl (entity : Entity) : entity.Becomes entity :=
  ⟨entity.path, entity.parent, entity.relations, rfl⟩

/-- Moving an entity changes where it stands. Its path and its parent are forgotten by the relation
anyway. -/
theorem Becomes.moved_to (becomes : entity.Becomes other) (path : NamePath) :
    entity.Becomes (other.movedTo path) := by
  obtain ⟨_, _, relations, rfl⟩ := becomes
  exact ⟨path, path.parent?, relations, rfl⟩

/-- Other relations do not make another entity. -/
theorem Becomes.related (becomes : entity.Becomes other) (relations : List Relation) :
    entity.Becomes { other with relations := relations } := by
  obtain ⟨path, parent, _, rfl⟩ := becomes
  exact ⟨path, parent, relations, rfl⟩

end Entity

namespace Registry

variable {registry next : Registry} {path lender old : NamePath} {hop : Hop} {entity : Entity}
  {directives : Directives} {places : NamePath → Prop}

/-- An entity is kept at a path when it is live there with its directives. The directives are
compared exactly; nothing changes them, and they travel with the entity. -/
def Keeps (registry : Registry) (path : NamePath) (entity : Entity) (directives : Directives) :
    Prop :=
  ∃ other, registry.live.get? path = some other ∧ entity.Becomes other ∧
    registry.directives.get? path = some directives

/-- An entity is lost when it is superseded. The entity may have been moved before that, and its
record says where to. -/
def Loses (registry : Registry) (entity : Entity) : Prop :=
  ∃ other ∈ registry.superseded, entity.Becomes other

/-- An entity is kept at one of some places, or lost. It is the invariant of the development: an
entity never disappears, so it is enough to know where it may be. -/
def KeepsOrLoses (registry : Registry) (places : NamePath → Prop) (entity : Entity)
    (directives : Directives) : Prop :=
  (∃ path, places path ∧ registry.Keeps path entity directives) ∨ registry.Loses entity

/-- The path of a kept entity is live. -/
theorem Keeps.mem_keys (kept : registry.Keeps path entity directives) :
    path ∈ registry.live.keys := by
  obtain ⟨_, found, _⟩ := kept
  exact Table.mem_keys_of_get? found

/-- Adding to the superseded entities loses none of them. -/
theorem Loses.add_superseded (lost : registry.Loses entity) (added : Entity) :
    (registry.addSuperseded added).Loses entity := by
  obtain ⟨other, present, becomes⟩ := lost
  exact ⟨other, List.mem_append_left _ present, becomes⟩

/-- Superseding a subtree keeps the superseded entities. -/
theorem Loses.supersede_subtree (lost : registry.Loses entity) (root : NamePath) :
    (registry.supersedeSubtree root).Loses entity := by
  obtain ⟨other, present, becomes⟩ := lost
  exact ⟨other, List.mem_append_left _ present, becomes⟩

/-- Registering an entity keeps the superseded entities. -/
theorem Loses.insert (lost : registry.Loses entity) {added : Entity} {given : Directives}
    {live : Bool} (inserted : registry.insert added given = .ok (next, live)) :
    next.Loses entity := by
  obtain ⟨_, rfl, _⟩ | ⟨_, _, _, rfl, _⟩ | ⟨_, _, _, rfl, _⟩ := insert_cases inserted
  · exact lost
  · exact lost.add_superseded added
  · exact lost.supersede_subtree added.path

/-- What is superseded stays superseded. There is no operation that makes a superseded entity live
again. -/
theorem Step.loses {before after : Registry} (step : Step before after)
    (lost : before.Loses entity) : after.Loses entity := by
  cases step with
  | @displaced old lender moved hop _ _ =>
    have removed : (before.remove old).Loses entity := lost
    exact removed.add_superseded _
  | @reinserted _ old _ _ _ _ _ _ inserted =>
    have removed : (before.remove old).Loses entity := lost
    exact removed.insert inserted
  | related _ _ => exact lost
  | dropped root => exact lost.supersede_subtree root

/-- Taking another path out does not matter. -/
theorem Keeps.remove (kept : registry.Keeps path entity directives) (apart : path ≠ old) :
    (registry.remove old).Keeps path entity directives := by
  obtain ⟨other, found, becomes, given⟩ := kept
  exact ⟨other, by simp [apart, found], becomes, by simp [apart, given]⟩

/-- An entity that becomes live at a free path leaves the others alone. At the path of the kept
entity itself nothing can be put as long as it is live. -/
theorem Keeps.put (kept : registry.Keeps path entity directives) {added : Entity}
    (free : added.path ∉ registry.live.keys) (given : Directives) :
    (registry.put added given).Keeps path entity directives := by
  have apart : path ≠ added.path := fun same => free (same ▸ kept.mem_keys)
  obtain ⟨other, found, becomes, held⟩ := kept
  exact ⟨other, by simp [apart, found], becomes, by simp [apart, held]⟩

/-- An entity whose subtree or a larger one is superseded is lost; otherwise it is kept. It is lost
with the directives that it had, which nobody looks at afterwards. -/
theorem Keeps.supersede_subtree (kept : registry.Keeps path entity directives)
    (root : NamePath) : (registry.supersedeSubtree root).Keeps path entity directives ∨
      (registry.supersedeSubtree root).Loses entity := by
  obtain ⟨other, found, becomes, given⟩ := kept
  by_cases within : isWithin root path = true
  · have entry : (path, other) ∈ (registry.live.filterKeys (isWithin root)).entries :=
      List.mem_filter.mpr ⟨Table.get?_eq_some_iff.mp found, within⟩
    exact .inr ⟨other, List.mem_append_right _ (Table.mem_values_iff.mpr ⟨path, entry⟩), becomes⟩
  · refine .inl ⟨other, ?_, becomes, ?_⟩
    · simp [within, found]
    · simp [Registry.supersedeSubtree, within, given]

/-- Registering an entity keeps another one or loses it, whichever of the three outcomes it has. It
is lost only when the registered entity takes over its path or one above it. -/
theorem Keeps.insert (kept : registry.Keeps path entity directives) {added : Entity}
    {given : Directives} {live : Bool}
    (inserted : registry.insert added given = .ok (next, live)) :
    next.Keeps path entity directives ∨ next.Loses entity := by
  obtain ⟨free, rfl, _⟩ | ⟨_, _, _, rfl, _⟩ | ⟨_, _, _, rfl, _⟩ := insert_cases inserted
  · exact .inl (kept.put free given)
  · exact .inl kept
  · have free : (shadowing added).path ∉ (registry.supersedeSubtree added.path).live.keys :=
      not_mem_keys_supersede_subtree registry added.path
    exact (kept.supersede_subtree added.path).imp_left fun kept => kept.put free given

/-- A registered entity is kept at its path or lost. It becomes live if the path is free or it is
the later of the two, and it is lost otherwise. -/
theorem keeps_of_insert {added : Entity} (becomes : entity.Becomes added) {live : Bool}
    (inserted : registry.insert added directives = .ok (next, live)) :
    next.Keeps added.path entity directives ∨ next.Loses entity := by
  obtain ⟨_, rfl, _⟩ | ⟨_, _, _, rfl, _⟩ | ⟨_, _, _, rfl, _⟩ := insert_cases inserted
  · exact .inl ⟨added, by simp, becomes, by simp⟩
  · exact .inr ⟨added, by simp [Registry.addSuperseded], becomes⟩
  · exact .inl ⟨shadowing added, by simp, becomes.related _, by simp⟩

/-- A change of relations keeps every entity. It covers the recording of targets that do not
exist. -/
theorem Keeps.map_values (kept : registry.Keeps path entity directives)
    {f : NamePath → Entity → Entity}
    (related : ∀ path entity, ∃ relations, f path entity = { entity with relations := relations }) :
    { registry with live := registry.live.mapValues f }.Keeps path entity directives := by
  obtain ⟨other, found, becomes, given⟩ := kept
  obtain ⟨relations, changed⟩ := related path other
  exact ⟨f path other, by simp [found],
    changed ▸ becomes.related relations, given⟩

/-- When a listed member is moved, a kept entity stays, or it is that member and is kept at its new
path, or it is lost. The three cases are what the induction over the listed members needs: each of
the first two is the same fact about another path. -/
theorem Keeps.moved (kept : registry.Keeps path entity directives)
    (moved : Moved lender hop old registry next) :
    next.Keeps path entity directives ∨
      (path = old ∧ next.Keeps (relocate old lender hop) entity directives) ∨
      next.Loses entity := by
  by_cases same : path = old
  · subst same
    obtain ⟨other, held, becomes, given⟩ := kept
    cases moved with
    | passed gone =>
      rw [gone] at held
      cases held
    | displaced found =>
      obtain rfl := Option.some.inj (held.symm.trans found)
      have listed : other.movedTo (relocate path lender hop) ∈ ((registry.remove path).addSuperseded
          (other.movedTo (relocate path lender hop))).superseded := by
        simp [Registry.addSuperseded]
      exact .inr (.inr ⟨_, listed, becomes.moved_to _⟩)
    | reinserted found inserted =>
      obtain rfl := Option.some.inj (held.symm.trans found)
      rw [given] at inserted
      exact .inr ((keeps_of_insert (becomes.moved_to _) inserted).imp_left fun kept => ⟨rfl, kept⟩)
  · cases moved with
    | passed _ => exact .inl kept
    | displaced _ => exact .inl (kept.remove same)
    | reinserted _ inserted => exact ((kept.remove same).insert inserted).imp_right .inr

/-- Retiring a lender keeps every entity or loses it. A lender that is only recorded as such gets a
relation; one without a comment is dropped with what is left below it. -/
theorem Keeps.retire (kept : registry.Keeps path entity directives)
    (lender target : NamePath) (text : String) :
    (registry.retire lender target text).Keeps path entity directives ∨
      (registry.retire lender target text).Loses entity := by
  refine retire_keeps
    (motive := fun after => after.Keeps path entity directives ∨ after.Loses entity)
    (.inl kept) (.inl ?recorded) ?dropped
  case recorded =>
    refine kept.map_values fun held entity => ?_
    split
    · exact ⟨_, rfl⟩
    · exact ⟨entity.relations, rfl⟩
  case dropped =>
    rintro before _ _ (kept | lost)
    · exact kept.supersede_subtree lender
    · exact .inr (lost.supersede_subtree lender)

/-- An entity that is kept at one of fewer places is kept at one of more. -/
theorem KeepsOrLoses.mono (either : registry.KeepsOrLoses places entity directives)
    {more : NamePath → Prop} (extended : ∀ path, places path → more path) :
    registry.KeepsOrLoses more entity directives :=
  either.imp_left fun ⟨path, place, kept⟩ => ⟨path, extended path place, kept⟩

/-- Moving listed members below a lender keeps an entity at one of some places, or loses it, when
the relocation of a place below the lender is a place too.

Proof: induction on the listed members. When the entity is the one that is moved, its new place is
one by the premise; when it is another one, it stays; and when it is lost, it stays lost. -/
theorem KeepsOrLoses.move_each {lost listed : List NamePath}
    (either : registry.KeepsOrLoses places entity directives)
    (below : ∀ old ∈ listed, old.isBelow lender = true)
    (closed : ∀ old, old.isBelow lender = true → places old → places (relocate old lender hop))
    (finished : (moveEach lender hop lost registry listed).failure = none) :
    (moveEach lender hop lost registry listed).registry.KeepsOrLoses places entity directives := by
  induction listed generalizing registry lost with
  | nil => exact either
  | cons old rest inductionHypothesis =>
    obtain ⟨next, known, moved, same⟩ := move_each_cons finished
    rw [same] at finished ⊢
    have belowHead := below old List.mem_cons_self
    refine inductionHypothesis ?_
      (fun later listed => below later (List.mem_cons_of_mem old listed))
      finished
    obtain ⟨path, place, kept⟩ | lost := either
    · obtain stays | ⟨rfl, goes⟩ | lost := kept.moved moved
      · exact .inl ⟨path, place, stays⟩
      · exact .inl ⟨_, closed path belowHead place, goes⟩
      · exact .inr lost
    · exact .inr ((moved.steps belowHead).keep Step.loses lost)

/-- The turn of a lender keeps an entity at one of some places, or loses it, when the relocation of
a place below the lender is a place too. A turn that is passed over changes nothing. -/
theorem KeepsOrLoses.lend {hops : Table NamePath Hop} {text : String}
    (either : registry.KeepsOrLoses places entity directives)
    (closed : ∀ final old, LendsTo hops lender final → old.isBelow lender = true → places old →
      places (relocate old lender final))
    (finished : (lend hops registry lender text).failure = none) :
    (lend hops registry lender text).registry.KeepsOrLoses places entity directives := by
  obtain ⟨_, same⟩ | ⟨final, lends, _, moves, result⟩ := lend_turn finished
  · rwa [same]
  · rw [result]
    obtain ⟨path, place, kept⟩ | lost := either.move_each
      (fun _ listed => is_below_of_mem_members listed)
      (fun old below => closed final old lends below) moves
    · exact (kept.retire lender final.target text).imp_left fun kept => ⟨path, place, kept⟩
    · exact .inr ((retire_steps _ lender final.target text).keep Step.loses lost)

/-- The turns of some lenders keep an entity where they may bring it, or lose it. It is the former
lemma, iterated: the places that turns may reach are closed under what each turn does. -/
theorem KeepsOrLoses.lend_all {hops : Table NamePath Hop} {turns : List (NamePath × String)}
    (either : registry.KeepsOrLoses places entity directives)
    (finished : (lendAll hops registry turns).failure = none) :
    (lendAll hops registry turns).registry.KeepsOrLoses (MayReach hops turns places) entity
      directives :=
  lend_all_keeps (motive := fun reached => reached.KeepsOrLoses _ entity directives)
    (fun turn done either => either.lend (fun _ _ lends below => .lent turn lends below) done)
    finished (either.mono fun _ => .held)

/-- Recording the targets that do not exist keeps every live entity. Before the first turn targets
are looked up, and those that do not exist are recorded as relations. -/
theorem keeps_record_strays (held : registry.live.get? path = some entity)
    (given : registry.directives.get? path = some directives) :
    registry.recordStrays.Keeps path entity directives := by
  obtain ⟨f, related, recorded⟩ := registry.record_strays_eq
  rw [recorded]
  exact Keeps.map_values ⟨entity, held, .refl entity, given⟩ related

/-- The paths that may be live in the end when a lender gives its members away between the turns of
those before it and those after it. Three stretches are put together: the turns before, the turn of
the lender, after which nothing is live below it, and the turns after. -/
def MayStay (registry : Registry) (before : List (NamePath × String)) (lender : NamePath)
    (after : List (NamePath × String)) : NamePath → Prop :=
  MayReach registry.hops after
    (MayLeave registry.hops lender (MayReach registry.hops before (· ∈ registry.live.keys)))

/-- A lender that the turns before its own may not move ends up without live members when nothing
that may stay lies below a place to which the turns after its own may bring it: when lending goes
through, the lender is live in the end, with its directives, and nothing is live below it; or it was
superseded.

Proof: the turns before its own leave the lender where it was or lose it, as it may not be moved. At
its turn everything below it is moved away or superseded, and the lender itself is kept or lost. The
turns after it keep it at a place that they may bring it to, and a member below that place would
have to be a path that may stay. A lender that is lost on the way stays lost. -/
theorem lender_emptied {text : String} {before after : List (NamePath × String)}
    (finished : registry.lendMembers.failure = none)
    (turn : registry.lenders = before ++ (lender, text) :: after)
    (held : registry.live.get? lender = some entity)
    (given : registry.directives.get? lender = some directives)
    (resolved : registry.hop? text = some hop)
    (unmoved : ∀ place, MayReach registry.hops before (· = lender) place → place = lender)
    (clear : ∀ place member, MayReach registry.hops after (· = lender) place →
      registry.MayStay before lender after member → member.isBelow place = false) :
    (∃ place, registry.lendMembers.registry.Keeps place entity directives ∧
      ∀ member ∈ registry.lendMembers.registry.live.keys, member.isBelow place = false) ∨
    registry.lendMembers.registry.Loses entity := by
  have lends : registry.hops.get? lender = some hop :=
    get?_hops_iff.mpr ⟨text, by simp [turn], resolved⟩
  have start : registry.recordStrays.KeepsOrLoses (· = lender) entity directives :=
    .inl ⟨lender, rfl, keeps_record_strays held given⟩
  have keys : ∀ path ∈ registry.recordStrays.live.keys, path ∈ registry.live.keys :=
    fun _ live => registry.keys_record_strays ▸ live
  unfold lendMembers at finished ⊢
  rw [turn] at finished ⊢
  -- the turns before the lender's own
  obtain ⟨through, split⟩ := lend_all_append finished
  rw [split] at finished ⊢
  have reached := may_reach_of_lend_all keys through
  obtain ⟨place, here, kept⟩ | lost := (start.lend_all through).mono unmoved
  · rw [here] at kept
    -- the lender's own turn and those after it
    have done := lend_of_lend_all finished
    have own : (lend registry.hops (lendAll registry.hops registry.recordStrays before).registry
        lender text).registry.KeepsOrLoses (· = lender) entity directives := by
      refine KeepsOrLoses.lend (.inl ⟨lender, rfl, kept⟩) ?_ done
      rintro final old _ below rfl
      simp [NamePath.isBelow] at below
    have left := may_leave_of_lend reached lends kept.mem_keys done
    rw [lend_all_cons done] at finished ⊢
    have stay := may_reach_of_lend_all left finished
    refine (own.lend_all finished).imp_left ?_
    rintro ⟨place, reach, kept⟩
    exact ⟨place, kept, fun member live => clear place member reach (stay member live)⟩
  · exact .inr ((lend_all_steps finished).keep Step.loses lost)

/-- Four lenders: one that rebinds its own member, a documented one that is declared outside of its
container and lends a method with a local, one that lends to this one, and the container, which
comes last. In the order of the turns each of the three conditions is met by one of the lenders. -/
def emptying : Registry :=
  (assign [[
    .node { entity := { kind := .classEntity, name := "Target", order := { sequence := 0 } } } [],
    .node { entity := { kind := .classEntity, name := "Own", order := { sequence := 1 } },
            directives := { lends := some "Own.prototype" } }
      [.node { entity := { kind := .function, name := "run", order := { sequence := 2 } } } []],
    .node { entity := { kind := .classEntity, name := "Inner", order := { sequence := 3 },
                        description := "Kept." },
            directives := { lends := some "Target#" }, memberOf := some "Outer" }
      [.node { entity := { kind := .function, name := "run", order := { sequence := 4 } } }
        [.node { entity := { kind := .variableEntity, name := "x", order := { sequence := 5 } },
                 binding := .inner } []]],
    .node { entity := { kind := .classEntity, name := "Guest", order := { sequence := 6 } },
            directives := { lends := some "Outer.Inner" } }
      [.node { entity := { kind := .function, name := "go", order := { sequence := 7 } } } []],
    .node { entity := { kind := .classEntity, name := "Outer", order := { sequence := 8 } },
            directives := { lends := some "Other" } } [],
    .node { entity := { kind := .classEntity, name := "Other", order := { sequence := 9 } } } []
    ]]).toOption.getD .empty

/-- The path of the documented lender of the example. -/
def innerLender : NamePath := (topLevel "Outer").child .static "Inner"

/-- The documented lender of the example is lent itself after its turn. It is kept at its new place
without members: its own, and those that were lent to it, are in the class. The two conditions are
checked by computing lists that are closed under what the turns do. -/
theorem emptying_inner_lender :
    emptying.lendMembers.failure = none ∧
    ∃ entity directives place, emptying.live.get? innerLender = some entity ∧
      emptying.directives.get? innerLender = some directives ∧
      emptying.lendMembers.registry.Keeps place entity directives ∧
      ∀ member ∈ emptying.lendMembers.registry.live.keys, member.isBelow place = false := by
  have finished : emptying.lendMembers.failure = none :=
    Option.isNone_iff_eq_none.mp (by decide +kernel)
  have turn : emptying.lenders = [(topLevel "Own", "Own.prototype")] ++
      (innerLender, "Target#") ::
        [(topLevel "Guest", "Outer.Inner"), (topLevel "Outer", "Other")] := by
    decide +kernel
  have resolved : emptying.hop? "Target#" = some ⟨topLevel "Target", .onInstance⟩ := by
    decide +kernel
  have named : (emptying.live.get? innerLender).map Entity.name = some "Inner" := by
    decide +kernel
  have directed :
      (emptying.directives.get? innerLender).bind Directives.lends = some "Target#" := by
    decide +kernel
  have others : ∀ lost ∈ emptying.lendMembers.registry.superseded, lost.name ≠ "Inner" := by
    decide +kernel
  have apart : ∀ place ∈ [innerLender, (topLevel "Other").child .static "Inner"],
      ∀ member ∈ emptying.live.keys.filter (fun path => !path.isBelow innerLender) ++
        emptying.lendMembers.registry.live.keys, member.isBelow place = false := by
    decide +kernel
  obtain ⟨entity, held, name⟩ := Option.map_eq_some_iff.mp named
  obtain ⟨directives, given, _⟩ := Option.bind_eq_some_iff.mp directed
  refine Or.elim (lender_emptied finished turn held given resolved ?unmoved ?clear) ?kept ?lost
  case unmoved =>
    intro place reach
    exact List.mem_singleton.mp
      (mem_of_may_reach (fun _ => List.mem_singleton.mpr) (by decide +kernel) reach)
  case clear =>
    intro place member reach stay
    refine apart place ?_ member ?_
    · exact mem_of_may_reach (fun path here => here ▸ List.mem_cons_self) (by decide +kernel) reach
    · refine mem_of_may_reach ?_ (by decide +kernel) stay
      intro path leave
      refine mem_of_may_leave (emptying.live.keys ++ emptying.lendMembers.registry.live.keys) ?_
        (by decide +kernel) leave
      intro path reach
      exact mem_of_may_reach (fun _ => List.mem_append_left _) (by decide +kernel) reach
  case kept =>
    rintro ⟨place, kept⟩
    exact ⟨finished, entity, directives, place, held, given, kept⟩
  case lost =>
    rintro ⟨_, lost, _, _, _, rfl⟩
    exact (others _ lost name).elim

/-- A lender that is a member of another lender, which comes first. -/
def nestedLenders : List (Tree Draft) :=
  [.node { entity := { kind := .classEntity, name := "Target", order := { sequence := 0 } } } [],
   .node { entity := { kind := .classEntity, name := "Other", order := { sequence := 1 } } } [],
   .node { entity := { kind := .classEntity, name := "Outer", order := { sequence := 2 } },
           directives := { lends := some "Target" } }
     [.node { entity := { kind := .classEntity, name := "Inner", order := { sequence := 3 },
                          description := "Kept." },
              directives := { lends := some "Other" } }
       [.node { entity := { kind := .function, name := "run", order := { sequence := 4 } } } []]]]

/-- A lender that is moved before its turn keeps its members: in a registry whose parts
agree and whose entities stand at different places, lending goes through, and afterwards an
entity with a written target, which led to another entity before, has a live member. -/
theorem nested_lender_keeps_member :
    ∃ placed, assign [nestedLenders] = .ok placed ∧ placed.Agrees ∧
      (placed.live.values.map Entity.order).Nodup ∧ placed.lendMembers.failure = none ∧
      ∃ path text hop, path ∈ placed.lendMembers.registry.live.keys ∧
        (placed.lendMembers.registry.directives.get? path).bind Directives.lends = some text ∧
        placed.hop? text = some hop ∧
        (placed.live.get? hop.target).map Entity.order ≠
          (placed.lendMembers.registry.live.get? path).map Entity.order ∧
        ∃ member ∈ placed.lendMembers.registry.live.keys, member.isBelow path = true := by
  have checked : (assign [nestedLenders]).toOption.any (fun placed => decide
      ((placed.live.values.map Entity.order).Nodup ∧ placed.lendMembers.failure.isNone = true ∧
        ∃ path ∈ placed.lendMembers.registry.live.keys,
        (placed.lendMembers.registry.directives.get? path).bind Directives.lends = some "Other" ∧
        placed.hop? "Other" = some ⟨topLevel "Other", .static⟩ ∧
        (placed.live.get? (topLevel "Other")).map Entity.order ≠
          (placed.lendMembers.registry.live.get? path).map Entity.order ∧
        ∃ member ∈ placed.lendMembers.registry.live.keys, member.isBelow path = true)) = true := by
    decide +kernel
  obtain ⟨placed, assigned, passes⟩ := exists_ok_of_any checked
  obtain ⟨distinct, finished, path, live, written, resolved, away, member⟩ :=
    of_decide_eq_true passes
  exact ⟨placed, assigned, (coherent_of_assign assigned).agrees (directed_of_assign assigned),
    distinct, Option.isNone_iff_eq_none.mp finished, path, "Other", _, live, written, resolved,
    away, member⟩

/-- A lender with a member, and another lender whose target is that member. -/
def inwardLender : List (Tree Draft) :=
  [.node { entity := { kind := .classEntity, name := "Target", order := { sequence := 0 } } } [],
   .node { entity := { kind := .classEntity, name := "Outer", order := { sequence := 1 },
                       description := "Kept." },
           directives := { lends := some "Target" } }
     [.node { entity := { kind := .classEntity, name := "Inner", order := { sequence := 2 } } } []],
   .node { entity := { kind := .classEntity, name := "Mixin", order := { sequence := 3 } },
           directives := { lends := some "Outer.Inner" } }
     [.node { entity := { kind := .function, name := "run", order := { sequence := 4 } } } []]]

-- A lender below no other one can end up with a member too, when something is put below it
-- after its turn.
example : (assign [inwardLender]).toOption.any (fun placed => decide
    (placed.lendMembers.failure.isNone = true ∧
      topLevel "Outer" ∈ placed.lendMembers.registry.live.keys ∧
      ∃ path ∈ placed.lendMembers.registry.live.keys,
        path.isBelow (topLevel "Outer") = true)) = true := by
  decide +kernel

end Registry

end DocGraph
