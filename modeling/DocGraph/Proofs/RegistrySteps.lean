import DocGraph.Build
import DocGraph.Proofs.Table

/-!
# The elementary steps of a registry

Registering an entity has three outcomes, and redirecting members is a sequence of four kinds of
elementary steps: a member moves to its new path, a member is lost on the way, a lender gets a
relation, and a lender is dropped with what is below it.

What these steps can do is said here once, and so is what one move of a member and one turn of a
lender do. An invariant of the registry is then proved step by step or turn by turn, without looking
at the loops again. A run that stops at a fault is not described: its registry never becomes a
graph.

There are three levels, and each has its own way of being iterated: single steps for invariants that
every step keeps, moves of members for what depends on the lender, and turns for what depends on the
order of lenders.
-/

namespace DocGraph

/-- An outcome that passes a test is a value, and no fault. The test gives a truth value, so what
becomes of given inputs can be found out by computing it. -/
theorem exists_ok_of_any {ε α : Type} {outcome : Except ε α} {test : α → Bool}
    (passes : outcome.toOption.any test = true) :
    ∃ value, outcome = .ok value ∧ test value = true := by
  cases outcome with
  | error fault => cases passes
  | ok value => exact ⟨value, rfl, passes⟩

namespace Registry

/-- Registering an entity at a free path makes it live; at a path that is held by a later one it
arrives superseded; at a path that is held by an earlier one it takes the path over. It says all
that a registration can do, and it is what later proofs use instead of the definition. The places
are never equal in these cases; if they are, the registration fails. -/
theorem insert_cases {registry next : Registry} {entity : Entity} {directives : Directives}
    {live : Bool} (inserted : registry.insert entity directives = .ok (next, live)) :
    (entity.path ∉ registry.live.keys ∧ next = registry.put entity directives ∧ live = true) ∨
    (∃ existing, registry.live.get? entity.path = some existing ∧
      compare existing.order entity.order = .gt ∧
      next = registry.addSuperseded entity ∧ live = false) ∨
    (∃ existing, registry.live.get? entity.path = some existing ∧
      compare existing.order entity.order = .lt ∧
      next = (registry.supersedeSubtree entity.path).put (shadowing entity) directives ∧
      live = true) := by
  unfold insert at inserted
  split at inserted
  · next free =>
    obtain ⟨rfl, rfl⟩ := Prod.mk.inj (Except.ok.inj inserted)
    exact .inl ⟨Table.get?_eq_none_iff.mp free, rfl, rfl⟩
  · next existing held =>
    split at inserted
    · cases inserted
    · next later =>
      obtain ⟨rfl, rfl⟩ := Prod.mk.inj (Except.ok.inj inserted)
      exact .inr (.inl ⟨existing, held, later, rfl, rfl⟩)
    · next earlier =>
      obtain ⟨rfl, rfl⟩ := Prod.mk.inj (Except.ok.inj inserted)
      exact .inr (.inr ⟨existing, held, earlier, rfl, rfl⟩)

/-- After a subtree was superseded, its root is not live. So an entity that takes a path over finds
it free. -/
theorem not_mem_keys_supersede_subtree (registry : Registry) (path : NamePath) :
    path ∉ (registry.supersedeSubtree path).live.keys := by
  intro held
  have outside := (Table.mem_keys_filter_keys.mp held).2
  simp [isWithin] at outside

/-- One elementary step of lending. The paths that members get are always relocations of paths
strictly below the lender. The guards are part of each step, so that an invariant may rely on where
a member comes from and where it goes. -/
inductive Step : Registry → Registry → Prop where
  /-- A member is taken out and superseded at its new path. -/
  | displaced {registry : Registry} {old lender : NamePath} {entity : Entity} {hop : Hop}
      (found : registry.live.get? old = some entity) (below : old.isBelow lender = true) :
      Step registry
        ((registry.remove old).addSuperseded (entity.movedTo (relocate old lender hop)))
  /-- A member is taken out and registered at its new path. -/
  | reinserted {registry next : Registry} {old lender : NamePath} {entity : Entity} {hop : Hop}
      {live : Bool} (found : registry.live.get? old = some entity)
      (below : old.isBelow lender = true)
      (inserted : (registry.remove old).insert (entity.movedTo (relocate old lender hop))
        ((registry.directives.get? old).getD {}) = .ok (next, live)) :
      Step registry next
  /-- An entity gets a relation. -/
  | related (registry : Registry) (path : NamePath) (relation : Relation) :
      Step registry
        { registry with live := registry.live.modify path (·.addRelation relation) }
  /-- An entity is superseded with everything below it. -/
  | dropped (registry : Registry) (path : NamePath) :
      Step registry (registry.supersedeSubtree path)

/-- Any number of elementary steps. -/
abbrev Steps : Registry → Registry → Prop := Relation.ReflTransGen Step

/-- What every elementary step keeps holds after any number of them. The invariant must not speak of
the number of steps. -/
theorem Steps.keep {motive : Registry → Prop}
    (kept : ∀ {before after}, Step before after → motive before → motive after)
    {first last : Registry} (steps : Steps first last) (holds : motive first) : motive last := by
  induction steps with
  | refl => exact holds
  | tail _ step inductionHypothesis => exact kept step inductionHypothesis

/-- What becomes of a registry when one listed member is moved: a member that is not live any more
is passed over, and any other is taken out and either superseded at its new path or registered
there. Why a member is superseded is left out; for that, the list of lost paths would have to be
known. -/
inductive Moved (lender : NamePath) (hop : Hop) (old : NamePath) (registry : Registry) :
    Registry → Prop where
  | passed (gone : registry.live.get? old = none) : Moved lender hop old registry registry
  | displaced {entity : Entity} (found : registry.live.get? old = some entity) :
      Moved lender hop old registry
        ((registry.remove old).addSuperseded (entity.movedTo (relocate old lender hop)))
  | reinserted {entity : Entity} {next : Registry} {live : Bool}
      (found : registry.live.get? old = some entity)
      (inserted : (registry.remove old).insert (entity.movedTo (relocate old lender hop))
        ((registry.directives.get? old).getD {}) = .ok (next, live)) :
      Moved lender hop old registry next

/-- Moving listed members without a fault moves the first one and then the others. It opens the
recursion for proofs that do not look at lost paths. -/
theorem move_each_cons {lender : NamePath} {hop : Hop} {lost rest : List NamePath}
    {registry : Registry} {old : NamePath}
    (finished : (moveEach lender hop lost registry (old :: rest)).failure = none) :
    ∃ next known, Moved lender hop old registry next ∧
      moveEach lender hop lost registry (old :: rest) = moveEach lender hop known next rest := by
  rw [moveEach] at finished ⊢
  split at finished
  · next gone => exact ⟨registry, lost, .passed gone, rfl⟩
  · next entity found =>
    dsimp only at finished ⊢
    split at finished
    · next below => exact ⟨_, lost, .displaced found, by rw [if_pos below]⟩
    · next apart =>
      rw [if_neg apart]
      split at finished
      · cases finished
      · next next inserted => exact ⟨next, _, .reinserted found inserted, rfl⟩
      · next next inserted => exact ⟨next, _, .reinserted found inserted, rfl⟩

/-- Moving one member below a lender is at most one step. A member that is passed over takes
none. -/
theorem Moved.steps {lender old : NamePath} {hop : Hop} {before after : Registry}
    (moved : Moved lender hop old before after) (below : old.isBelow lender = true) :
    Steps before after := by
  cases moved with
  | passed _ => exact .refl
  | displaced found => exact .single (.displaced found below)
  | reinserted found inserted => exact .single (.reinserted found below inserted)

/-- Moving listed members below a lender is a sequence of steps, unless it stops at a
fault. -/
theorem move_each_steps {lender : NamePath} {hop : Hop} {lost listed : List NamePath}
    {registry : Registry} (below : ∀ old ∈ listed, old.isBelow lender = true)
    (finished : (moveEach lender hop lost registry listed).failure = none) :
    Steps registry (moveEach lender hop lost registry listed).registry := by
  induction listed generalizing registry lost with
  | nil => exact .refl
  | cons old rest inductionHypothesis =>
    obtain ⟨next, known, moved, same⟩ := move_each_cons finished
    rw [same] at finished ⊢
    exact (moved.steps (below old List.mem_cons_self)).trans
      (inductionHypothesis (fun later present => below later (List.mem_cons_of_mem old present))
        finished)

/-- The members that a lender lends lie strictly below it. -/
theorem is_below_of_mem_members {registry : Registry} {lender old : NamePath}
    (listed : old ∈ (registry.subtree lender).filter (· ≠ lender)) :
    old.isBelow lender = true := by
  simp only [subtree, List.mem_filter, isWithin, Bool.or_eq_true, decide_eq_true_eq] at listed
  obtain ⟨⟨_, within⟩, differs⟩ := listed
  exact within.resolve_left differs

/-- Moving everything below a lender is a sequence of steps, unless it stops at a fault. -/
theorem move_members_steps {registry : Registry} {lender : NamePath} {hop : Hop}
    (finished : (registry.moveMembers lender hop).failure = none) :
    Steps registry (registry.moveMembers lender hop).registry :=
  move_each_steps (fun _ listed => is_below_of_mem_members listed) finished

/-- What holds of a registry holds when a lender has been retired, if it holds when the lender has
recorded where its members went and is kept when the lender is superseded. Only a live lender that
does not lend to itself is superseded. The lender records where its members went if it has a
comment, and it is dropped otherwise; both cases are covered by the two premises. -/
theorem retire_keeps {motive : Registry → Prop} {registry : Registry} {lender target : NamePath}
    {text : String} (holds : motive registry)
    (recorded : motive { registry with
      live := registry.live.modify lender
        (·.addRelation { kind := .lending, target := text, resolved := some target }) })
    (dropped : ∀ before, lender ∈ registry.live.keys → target ≠ lender → motive before →
      motive (before.supersedeSubtree lender)) :
    motive (registry.retire lender target text) := by
  unfold retire
  split
  · exact holds
  · next entity found =>
    split
    · exact holds
    · next elsewhere =>
      dsimp only
      split
      · exact dropped _ (Table.mem_keys_of_get? found) elsewhere recorded
      · exact recorded

/-- Retiring a lender is a sequence of steps. -/
theorem retire_steps (registry : Registry) (lender target : NamePath) (text : String) :
    Steps registry (registry.retire lender target text) :=
  retire_keeps .refl (.single (.related registry lender _))
    fun _ _ _ steps => steps.tail (.dropped _ lender)

section Turns

variable {hops : Table NamePath Hop} {registry : Registry}

/-- A lender lends to a hop when that is where its own hop finally leads. The hop of the lender may
lead to another lender, whose members go on from there. -/
def LendsTo (hops : Table NamePath Hop) (lender : NamePath) (final : Hop) : Prop :=
  ∃ hop, hops.get? lender = some hop ∧ destination hops lender hop = .ok final

/-- The turn of a lender. Either it has no hop or is not live any more, and nothing happens; or
everything below it is moved to where it lends, and it is retired. It is the inversion of a turn. In
its second case the moves have gone through, so what is known of moving members can be used. -/
theorem lend_turn {lender : NamePath} {text : String}
    (finished : (lend hops registry lender text).failure = none) :
    ((hops.get? lender = none ∨ lender ∉ registry.live.keys) ∧
        (lend hops registry lender text).registry = registry) ∨
      ∃ final, LendsTo hops lender final ∧ lender ∈ registry.live.keys ∧
        (registry.moveMembers lender final).failure = none ∧
        (lend hops registry lender text).registry =
          (registry.moveMembers lender final).registry.retire lender final.target text := by
  unfold lend at finished ⊢
  split at finished
  · next missing => exact .inl ⟨.inl missing, rfl⟩
  · next hop held =>
    split at finished
    · cases finished
    · next final arrives =>
      simp only [held]
      split at finished
      · next live =>
        rw [if_pos live]
        split at finished
        · cases finished
        · next moved outcome =>
          exact .inr ⟨final, ⟨hop, held, arrives⟩, Table.contains_iff.mp live,
            by rw [outcome], by rw [outcome]⟩
      · next gone =>
        rw [if_neg gone]
        exact .inl ⟨.inr (mt Table.contains_iff.mpr gone), rfl⟩

/-- The turn of a lender is a sequence of steps, unless it stops at a fault. -/
theorem lend_steps {lender : NamePath} {text : String}
    (finished : (lend hops registry lender text).failure = none) :
    Steps registry (lend hops registry lender text).registry := by
  obtain ⟨_, same⟩ | ⟨final, _, _, moves, result⟩ := lend_turn finished
  · rw [same]
  · rw [result]
    exact (move_members_steps moves).trans (retire_steps _ lender final.target text)

/-- After a turn without a fault the other lenders take their turns. The premise is necessary, since
after a fault no further turn is taken. -/
theorem lend_all_cons {lender : NamePath} {text : String} {rest : List (NamePath × String)}
    (done : (lend hops registry lender text).failure = none) :
    lendAll hops registry ((lender, text) :: rest) =
      lendAll hops (lend hops registry lender text).registry rest := by
  rw [lendAll]
  split
  · next stopped error outcome => simp [outcome] at done
  · next next outcome => rw [outcome]

/-- When the turns of several lenders go through, the first one does. -/
theorem lend_of_lend_all {lender : NamePath} {text : String} {rest : List (NamePath × String)}
    (finished : (lendAll hops registry ((lender, text) :: rest)).failure = none) :
    (lend hops registry lender text).failure = none := by
  rw [lendAll] at finished
  split at finished
  · cases finished
  · next next outcome => rw [outcome]

/-- What every turn keeps holds after the turns of several lenders. The premise tells which lenders
take turns, so an invariant may depend on them. -/
theorem lend_all_keeps {motive : Registry → Prop} {listed : List (NamePath × String)}
    (kept : ∀ {before lender text}, (lender, text) ∈ listed →
      (lend hops before lender text).failure = none → motive before →
      motive (lend hops before lender text).registry)
    (finished : (lendAll hops registry listed).failure = none) (holds : motive registry) :
    motive (lendAll hops registry listed).registry := by
  induction listed generalizing registry with
  | nil => exact holds
  | cons first rest inductionHypothesis =>
    obtain ⟨lender, text⟩ := first
    have done := lend_of_lend_all finished
    rw [lend_all_cons done] at finished ⊢
    exact inductionHypothesis (fun listed => kept (List.mem_cons_of_mem _ listed)) finished
      (kept List.mem_cons_self done holds)

/-- Turns can be taken in two parts. The turns of one lender are singled out by it. -/
theorem lend_all_append {front rear : List (NamePath × String)}
    (finished : (lendAll hops registry (front ++ rear)).failure = none) :
    (lendAll hops registry front).failure = none ∧
      lendAll hops registry (front ++ rear) =
        lendAll hops (lendAll hops registry front).registry rear := by
  induction front generalizing registry with
  | nil => exact ⟨rfl, rfl⟩
  | cons first rest inductionHypothesis =>
    obtain ⟨lender, text⟩ := first
    rw [List.cons_append] at finished ⊢
    have done := lend_of_lend_all finished
    rw [lend_all_cons done] at finished ⊢
    rw [lend_all_cons done]
    exact inductionHypothesis finished

/-- The lending of several entities is a sequence of steps, unless it stops at a fault. -/
theorem lend_all_steps {listed : List (NamePath × String)}
    (finished : (lendAll hops registry listed).failure = none) :
    Steps registry (lendAll hops registry listed).registry :=
  lend_all_keeps (motive := Steps registry) (fun _ done steps => steps.trans (lend_steps done))
    finished .refl

end Turns

/-- Recording the targets that do not exist is a sequence of steps. Each target that is missing
gives one relation. -/
theorem record_strays_steps (registry : Registry) : Steps registry registry.recordStrays := by
  have recorded (strays : List (NamePath × String)) (start : Registry) :
      Steps start
        { start with
          live := strays.foldl (fun live stray =>
            live.modify stray.1 (·.addRelation { kind := .lending, target := stray.2 }))
            start.live } := by
    induction strays generalizing start with
    | nil => exact .refl
    | cons stray rest inductionHypothesis =>
      exact .head (.related start stray.1 { kind := .lending, target := stray.2 })
        (inductionHypothesis _)
  exact recorded registry.strayLenders registry

/-- A resolution without a fault settles visibility, takes elementary steps, and links the
supertypes of what is live then. Proof: recording and the turns are sequences of steps, and linking
comes last, when no fault has occurred. -/
theorem resolve_steps {registry : Registry} (finished : registry.resolve.failure = none) :
    ∃ redirected, Steps registry.settleVisibility redirected ∧
      registry.resolve.registry = redirected.linkSupertypes := by
  have moves : registry.settleVisibility.lendMembers.failure = none →
      Steps registry.settleVisibility.recordStrays
        registry.settleVisibility.lendMembers.registry := lend_all_steps
  unfold resolve at finished ⊢
  dsimp only at finished ⊢
  split at finished
  · cases finished
  · next redirected outcome =>
    rw [outcome] at moves
    exact ⟨redirected, (record_strays_steps _).trans (moves rfl), rfl⟩

end Registry

namespace Build

/-- A build without a fault places the drafts of all files, settles visibility, takes elementary
steps, links supertypes, and makes a graph of the result.

It is the starting point of most results about builds: what a graph holds is known from the registry
it is made of, and that registry is reached from the drafts by these stages. -/
theorem run_stages {files : List SourceFile} {config : Config} {output : BuildOutput}
    (built : run files config = .ok output) :
    ∃ placed redirected info,
      Registry.assign ((normalized (ordered files config) config).map NormalizedFile.drafts) =
        .ok placed ∧
      Registry.Steps placed.settleVisibility redirected ∧
      output.graph = .ofEntities redirected.linkSupertypes.live
        redirected.linkSupertypes.superseded info config.memberOrder := by
  unfold run at built
  dsimp only at built
  split at built
  · cases built
  · unfold assemble at built
    split at built
    · cases built
    · next placed assigned =>
      have stages : placed.resolve.failure = none →
          ∃ redirected, Registry.Steps placed.settleVisibility redirected ∧
            placed.resolve.registry = redirected.linkSupertypes := Registry.resolve_steps
      split at built
      · cases built
      · next resolved warnings outcome =>
        rw [outcome] at stages
        obtain ⟨redirected, steps, rfl⟩ := stages rfl
        cases built
        exact ⟨placed, redirected, _, assigned, steps, rfl⟩

end Build

end DocGraph
