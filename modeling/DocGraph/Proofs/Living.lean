import DocGraph.Proofs.Conservation

/-!
# Lending never brings an entity to life

Whatever lending does, an entity that is live afterwards was live before: members are taken out and
put back, or they are superseded for good. Counted by any lasting trait, the live entities of a
registry after a step are among those before it.

For the place in the source order this has a consequence. A registry refuses an entity only when a
live one with the same place holds its path. So as long as the live entities stand at different
places, every member can be moved, whatever was superseded earlier.

Only the live entities are counted, so the order between multisets stands where the census has an
equation. Places that differ at the start of lending therefore differ at every moment of it, which
is all that the moves need.
-/

namespace DocGraph

/-- Places that compare as equal are equal. Both parts of a place are compared, and neither can hide
a difference. -/
theorem SourceOrder.eq_of_compare_eq {left right : SourceOrder}
    (equal : Ord.compare left right = .eq) : left = right := by
  obtain ⟨files, sequences⟩ := Ordering.then_eq_eq.mp equal
  cases left
  cases right
  simp only [Std.compare_eq_iff_eq] at files sequences
  rw [files, sequences]

namespace Registry

variable {α : Type} {trait : Entity → α}

/-- The live entities are some of those that a registry holds. So what is distinct in the census is
distinct among the live entities. -/
theorem living_le_census (registry : Registry) : registry.living trait ≤ registry.census trait :=
  Multiset.le_add_right _ _

/-- The trait of a live entity is counted. -/
theorem mem_living {registry : Registry} {path : NamePath} {entity : Entity}
    (found : registry.live.get? path = some entity) : trait entity ∈ registry.living trait :=
  Multiset.mem_coe.mpr (List.mem_map_of_mem (Table.mem_values_of_get? found))

/-- What is left after a subtree was superseded was live before. -/
theorem living_supersede_subtree_le (registry : Registry) (path : NamePath) :
    (registry.supersedeSubtree path).living trait ≤ registry.living trait := by
  refine Multiset.coe_le.mpr (List.Sublist.subperm ?_)
  exact (List.filter_sublist.map Prod.snd).map trait

/-- Registering an entity adds at most that entity to the live ones. If the entity arrives
superseded, or if it supersedes others, there are fewer. -/
theorem living_insert_le (lasting : Entity.Lasting trait) {registry next : Registry}
    {entity : Entity} {directives : Directives} {live : Bool}
    (inserted : registry.insert entity directives = .ok (next, live)) :
    next.living trait ≤ trait entity ::ₘ registry.living trait := by
  obtain ⟨free, rfl, _⟩ | ⟨_, _, _, rfl, _⟩ | ⟨_, _, _, rfl, _⟩ := insert_cases inserted
  · exact (living_put directives free).le
  · exact Multiset.le_cons_self _ _
  · have free : (shadowing entity).path ∉ (registry.supersedeSubtree entity.path).live.keys :=
      not_mem_keys_supersede_subtree registry entity.path
    have same : trait (shadowing entity) = trait entity := lasting.related entity _
    rw [living_put directives free, same]
    exact Multiset.cons_le_cons _ (living_supersede_subtree_le registry entity.path)

/-- The live entities after an elementary step of lending are among those before it. A member that
is put back was taken out just before, so it is not one more. -/
theorem Step.living_le (lasting : Entity.Lasting trait) {before after : Registry}
    (step : Step before after) : after.living trait ≤ before.living trait := by
  cases step with
  | @displaced old _ entity _ found below =>
    rw [← cons_living_remove found]
    exact Multiset.le_cons_self _ _
  | @reinserted _ old _ entity _ _ found below inserted =>
    rw [← cons_living_remove found, ← lasting.moved entity]
    exact living_insert_le lasting inserted
  | related path relation =>
    refine le_of_eq (congrArg Multiset.ofList (Table.map_values_map_values ?_ before.live))
    intro held entity
    split
    · exact lasting.related entity _
    · rfl
  | dropped path => exact living_supersede_subtree_le before path

/-- The live entities after any number of elementary steps are among those before them. -/
theorem Steps.living_le (lasting : Entity.Lasting trait) {first last : Registry}
    (steps : Steps first last) : last.living trait ≤ first.living trait :=
  steps.keep (motive := fun registry => registry.living trait ≤ first.living trait)
    (fun step holds => (step.living_le lasting).trans holds) le_rfl

/-- The place of an entity is lasting. It is the trait for which the count is used here. -/
theorem order_lasting : Entity.Lasting Entity.order :=
  ⟨fun _ _ => rfl, fun _ _ => rfl, fun _ _ => rfl⟩

/-- An entity can be registered when no live entity stands at its place. Registering is refused only
over an entity with the same place at the same path. -/
theorem insert_succeeds {registry : Registry} {entity : Entity} (directives : Directives)
    (fresh : entity.order ∉ registry.living Entity.order) :
    ∃ next live, registry.insert entity directives = .ok (next, live) := by
  unfold insert
  split
  · exact ⟨_, _, rfl⟩
  · next existing held =>
    split
    · next equal =>
      have same : existing.order = entity.order := SourceOrder.eq_of_compare_eq equal
      exact absurd (same ▸ mem_living held) fresh
    · exact ⟨_, _, rfl⟩
    · exact ⟨_, _, rfl⟩

/-- Members at places of their own can all be moved.

Proof: induction on the listed members. A member is taken out before it is registered again, so its
place is not among those of the others, and afterwards the live entities are among those before. -/
theorem move_each_succeeds {lender : NamePath} {hop : Hop} {listed lost : List NamePath}
    {registry : Registry} (distinct : (registry.living Entity.order).Nodup) :
    (moveEach lender hop lost registry listed).failure = none := by
  induction listed generalizing registry lost with
  | nil => rfl
  | cons old rest inductionHypothesis =>
    unfold moveEach
    split
    · exact inductionHypothesis distinct
    · next entity found =>
      have apart := distinct
      rw [← cons_living_remove found, Multiset.nodup_cons] at apart
      dsimp only
      split
      · exact inductionHypothesis apart.2
      · have free : (entity.movedTo (relocate old lender hop)).order ∉
            (registry.remove old).living Entity.order := apart.1
        obtain ⟨next, live, inserted⟩ :=
          insert_succeeds ((registry.directives.get? old).getD {}) free
        have kept : (next.living Entity.order).Nodup := by
          refine Multiset.nodup_of_le (living_insert_le order_lasting inserted) ?_
          exact Multiset.nodup_cons.mpr apart
        rw [inserted]
        cases live with
        | true => exact inductionHypothesis kept
        | false => exact inductionHypothesis kept

end Registry

end DocGraph
