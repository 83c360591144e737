import DocGraph.Proofs.Collision
import DocGraph.Proofs.Directives
import DocGraph.Proofs.PathOrder

/-!
# What is shadowed together

A declaration that loses its path is superseded, and with it goes what was declared inside of it:
everything that is nested in its draft and has its path from there, not from a named container or an
assignment. This is so when the declaration arrives too late, and when its path is taken over after
all that is nested in it was placed.

There is one exception. A declaration that is nested in another one may take over the path of that
one, by assignment or by naming a container. What is nested there and comes later is placed below
that path all the same, when the declaration it belongs to is gone. The main statement says that
nothing else is left behind: a plain descendant of a superseded declaration is superseded, or comes
after a draft of the same declaration that took over its path or a path above it.

The proof follows one owner. As long as it lives, what is plainly declared in it stands below its
path, so a takeover that removes the owner removes these as well. Being bound to the owner is kept
by every step of placing, and the only way not to become bound is a path that was taken over earlier
in the same tree.
-/

namespace DocGraph

/-- A tree stands somewhere in a forest, at the top or at any depth. The main statement is about
trees at any depth, and a proof by induction on a forest needs to say where one stands. -/
inductive Tree.Occurs {α : Type} (tree : Tree α) : List (Tree α) → Prop where
  | head {rest : List (Tree α)} : Occurs tree (tree :: rest)
  | inside {value : α} {children rest : List (Tree α)} (deeper : Occurs tree children) :
      Occurs tree (.node value children :: rest)
  | later {first : Tree α} {rest : List (Tree α)} (further : Occurs tree rest) :
      Occurs tree (first :: rest)

/-- The trees of a forest stand in it. -/
theorem Tree.occurs_of_mem {α : Type} {tree : Tree α} {forest : List (Tree α)}
    (listed : tree ∈ forest) : tree.Occurs forest := by
  induction listed with
  | head _ => exact .head
  | tail _ _ inductionHypothesis => exact .later inductionHypothesis

/-- What stands directly below a tree of a forest stands in the forest. -/
theorem Tree.Occurs.child {α : Type} {tree inner : Tree α} {forest : List (Tree α)}
    (occurs : tree.Occurs forest) (listed : inner ∈ tree.children) : inner.Occurs forest := by
  induction occurs with
  | head =>
    cases tree
    exact .inside (occurs_of_mem listed)
  | inside _ inductionHypothesis => exact .inside inductionHypothesis
  | later _ inductionHypothesis => exact .later inductionHypothesis

/-- What stands below a tree of a forest stands in the forest. -/
theorem Tree.Occurs.forest_preorder_subset {α : Type} {tree : Tree α} {forest : List (Tree α)}
    (occurs : tree.Occurs forest) : tree.preorder ⊆ Tree.forestPreorder forest := by
  induction occurs with
  | head => exact List.subset_append_left _ _
  | inside _ inductionHypothesis =>
    refine List.subset_append_of_subset_left _ ?_
    exact List.subset_cons_of_subset _ inductionHypothesis
  | later _ inductionHypothesis => exact List.subset_append_of_subset_right _ inductionHypothesis

namespace Draft

/-- A draft takes its path from the place where it was declared: its documentation names no
container, and it is no assignment. Only such a draft is certain to be placed below the draft that
it is nested in. -/
def Plain (draft : Draft) : Prop := draft.memberOf = none ∧ draft.target = none

instance (draft : Draft) : Decidable draft.Plain :=
  inferInstanceAs (Decidable (_ ∧ _))

/-- A draft is in a forest at the top, or nested in plain drafts only, and plain itself. Each
constructor is a step of the order in which the drafts are placed. -/
inductive PlainlyIn (inner : Draft) : List (Tree Draft) → Prop where
  | head {nested rest : List (Tree Draft)} (plain : inner.Plain) :
      PlainlyIn inner (.node inner nested :: rest)
  | inside {outer : Draft} {nested rest : List (Tree Draft)} (plain : outer.Plain)
      (deeper : PlainlyIn inner nested) : PlainlyIn inner (.node outer nested :: rest)
  | later {first : Tree Draft} {rest : List (Tree Draft)} (further : PlainlyIn inner rest) :
      PlainlyIn inner (first :: rest)

/-- The plain drafts at the top of a forest are plainly in it. -/
theorem plainly_in_of_mem {tree : Tree Draft} {forest : List (Tree Draft)}
    (listed : tree ∈ forest) (plain : tree.value.Plain) : tree.value.PlainlyIn forest := by
  induction listed with
  | head _ =>
    cases tree
    exact .head plain
  | tail _ _ inductionHypothesis => exact .later inductionHypothesis

/-- What is plainly nested in a plain draft at the top of a forest is plainly in it. -/
theorem PlainlyIn.of_children {inner : Draft} {tree : Tree Draft} {forest : List (Tree Draft)}
    (deeper : inner.PlainlyIn tree.children) (listed : tree ∈ forest)
    (plain : tree.value.Plain) : inner.PlainlyIn forest := by
  induction listed with
  | head _ =>
    cases tree
    exact .inside plain deeper
  | tail _ _ inductionHypothesis => exact .later inductionHypothesis

/-- What is plainly in a forest is one of its drafts. -/
theorem PlainlyIn.mem_forest_preorder {inner : Draft} {forest : List (Tree Draft)}
    (plainly : inner.PlainlyIn forest) : inner ∈ Tree.forestPreorder forest := by
  induction plainly with
  | head _ => exact List.mem_append_left _ List.mem_cons_self
  | inside _ _ inductionHypothesis =>
    exact List.mem_append_left _ (List.mem_cons_of_mem _ inductionHypothesis)
  | later _ inductionHypothesis => exact List.mem_append_right _ inductionHypothesis

end Draft

namespace Registry

variable {registry next : Registry} {path : NamePath} {entity : Entity}
  {directives : Directives} {live : Bool} {owner order : SourceOrder}

/-- A registry holds an entity, live or superseded. An entity that was registered once is held ever
after. -/
def Holds (registry : Registry) (entity : Entity) : Prop :=
  entity ∈ registry.live.values ∨ entity ∈ registry.superseded

/-- The entity at a place of the source order is superseded, and no live one stands there. Entities
are told by their places here, since the mark of a takeover changes the entity itself. -/
def Supersedes (registry : Registry) (order : SourceOrder) : Prop :=
  order ∈ registry.superseded.map Entity.order ∧ order ∉ registry.live.values.map Entity.order

instance (registry : Registry) (owner : SourceOrder) : Decidable (registry.Supersedes owner) :=
  inferInstanceAs (Decidable (_ ∧ _))

/-- A draft took over a path at or above a given one: its entity, live or superseded now, is marked
as the one that shadowed what stood there. The mark is kept for good, so this can be read off the
registry at the end. -/
def TakesOver (registry : Registry) (draft : Draft) (path : NamePath) : Prop :=
  ∃ taken, isWithin taken path = true ∧
    registry.Holds (shadowing (draft.entity.movedTo taken))

/-- A draft of a forest comes after one that took over a path at or above a given one. It is the
exception of the main statement, and the order matters: what comes before the one that takes over
goes along with the rest. -/
def OvertakenBefore (registry : Registry) (path : NamePath) (forest : List (Tree Draft))
    (inner : Draft) : Prop :=
  ∃ before after taker, Tree.forestPreorder forest = before ++ inner :: after ∧
    taker ∈ before ∧ registry.TakesOver taker path

/-- The entity at a place of the source order is live at a path. -/
def LiveAt (registry : Registry) (path : NamePath) (owner : SourceOrder) : Prop :=
  ∃ entity, registry.live.get? path = some entity ∧ entity.order = owner

instance (registry : Registry) (path : NamePath) (owner : SourceOrder) :
    Decidable (registry.LiveAt path owner) :=
  decidable_of_iff ((registry.live.get? path).map Entity.order = some owner)
    Option.map_eq_some_iff

/-- An entity is bound to the owner of a path when it is superseded, or lives below the path while
the owner lives at it. When the owner is superseded later, so is what is bound to it. -/
def BoundTo (registry : Registry) (path : NamePath) (owner order : SourceOrder) : Prop :=
  order ∈ registry.superseded.map Entity.order ∨
    registry.LiveAt path owner ∧ ∃ below, below.isBelow path = true ∧ registry.LiveAt below order

/-- Registering an entity leaves all live entities where they are; or the entity takes a path over,
and then those within that path are superseded and the others stay. A late entity and one on a free
path are alike here: neither removes anything. -/
theorem insert_keeps_or_sweeps
    (inserted : registry.insert entity directives = .ok (next, live)) :
    (∀ path other, registry.live.get? path = some other → next.live.get? path = some other) ∨
      next.Holds (shadowing entity) ∧ ∀ path other, registry.live.get? path = some other →
        if isWithin entity.path path = true then other ∈ next.superseded
        else next.live.get? path = some other := by
  obtain ⟨free, rfl, _⟩ | ⟨_, _, _, rfl, _⟩ | ⟨_, _, _, rfl, _⟩ := insert_cases inserted
  · refine .inl fun path other found => ?_
    have apart : path ≠ entity.path := fun equal => free (equal ▸ Table.mem_keys_of_get? found)
    simp [apart, found]
  · exact .inl fun _ _ found => found
  · have written : ((registry.supersedeSubtree entity.path).put (shadowing entity)
        directives).live.get? (shadowing entity).path = some (shadowing entity) := by
      simp
    refine .inr ⟨.inl (Table.mem_values_of_get? written), fun path other found => ?_⟩
    split
    · next within =>
      have entry : (path, other) ∈ (registry.live.filterKeys (isWithin entity.path)).entries :=
        List.mem_filter.mpr ⟨Table.get?_eq_some_iff.mp found, within⟩
      exact List.mem_append_right _ (Table.mem_values_iff.mpr ⟨path, entry⟩)
    · next outside =>
      have apart : path ≠ entity.path := by
        rintro rfl
        exact outside (is_within_self _)
      simp [apart, outside, found]

/-- Superseded entities stay superseded when another one is registered. -/
theorem superseded_subset_insert
    (inserted : registry.insert entity directives = .ok (next, live)) :
    registry.superseded ⊆ next.superseded := by
  obtain ⟨_, rfl, _⟩ | ⟨_, _, _, rfl, _⟩ | ⟨_, _, _, rfl, _⟩ := insert_cases inserted
  · exact List.Subset.refl _
  · exact List.subset_append_left _ _
  · exact List.subset_append_left _ _

/-- An entity stays live where it is when another one is registered, unless that one takes over a
path at or above it. It is the step of the statements on placing below. -/
theorem LiveAt.insert (held : registry.LiveAt path owner)
    (inserted : registry.insert entity directives = .ok (next, live)) :
    next.LiveAt path owner ∨
      (isWithin entity.path path = true ∧ next.Holds (shadowing entity)) := by
  obtain ⟨other, found, same⟩ := held
  obtain stay | ⟨taken, sweeps⟩ := insert_keeps_or_sweeps inserted
  · exact .inl ⟨other, stay path other found, same⟩
  · have swept := sweeps path other found
    split at swept
    · next within => exact .inr ⟨within, taken⟩
    · exact .inl ⟨other, swept, same⟩

/-- Placing drafts keeps what a registry holds. -/
theorem holds_kept_by_placing (entity : Entity) : KeptByPlacing (·.Holds entity) := by
  refine ⟨?_, fun holds _ => holds.imp_right (List.mem_append_left _)⟩
  intro registry next added directives live holds _ inserted
  obtain held | lost := holds
  · obtain ⟨path, entry⟩ := Table.mem_values_iff.mp held
    have found := Table.get?_eq_some_iff.mpr entry
    obtain stay | ⟨_, sweeps⟩ := insert_keeps_or_sweeps inserted
    · exact .inl (Table.mem_values_of_get? (stay path entity found))
    · have swept := sweeps path entity found
      split at swept
      · exact .inr swept
      · exact .inl (Table.mem_values_of_get? swept)
  · exact .inr (superseded_subset_insert inserted lost)

/-- Placing drafts keeps an entity bound to the owner of a path: what takes the path over takes over
everything below it. The paths below the owner are all within what is taken over, so the owner never
goes alone. -/
theorem bound_to_kept_by_placing (path : NamePath) (owner order : SourceOrder) :
    KeptByPlacing (·.BoundTo path owner order) := by
  refine ⟨?_, ?_⟩
  · intro registry next added directives live bound _ inserted
    obtain lost | ⟨⟨above, top, owns⟩, below, deeper, other, found, same⟩ := bound
    · exact .inl (List.map_subset _ (superseded_subset_insert inserted) lost)
    · obtain stay | ⟨_, sweeps⟩ := insert_keeps_or_sweeps inserted
      · exact .inr ⟨⟨above, stay path above top, owns⟩, below, deeper, other,
          stay below other found, same⟩
      · have sweptTop := sweeps path above top
        have swept := sweeps below other found
        split at swept
        · exact .inl (List.mem_map.mpr ⟨other, swept, same⟩)
        · next outside =>
          have apart : ¬isWithin added.path path = true := fun within => outside
            (is_within_of_is_below within deeper)
          rw [if_neg apart] at sweptTop
          exact .inr ⟨⟨above, sweptTop, owns⟩, below, deeper, other, swept, same⟩
  · intro registry lost bound _
    refine bound.imp_left fun earlier => ?_
    rw [List.map_append]
    exact List.mem_append_left _ earlier

/-- A path that was taken over counts as taken over ever after. The mark is on an entity, and
entities are kept. -/
theorem takes_over_kept_by_placing (draft : Draft) (path : NamePath) :
    KeptByPlacing (·.TakesOver draft path) := by
  refine ⟨?_, ?_⟩
  · rintro registry next added directives live ⟨taken, within, holds⟩ stands inserted
    exact ⟨taken, within, (holds_kept_by_placing _).inserted holds stands inserted⟩
  · rintro registry lost ⟨taken, within, holds⟩ stand
    exact ⟨taken, within, (holds_kept_by_placing _).superseded holds stand⟩

/-- A draft that comes later is preceded by the same drafts and more. -/
theorem OvertakenBefore.extend {forest larger : List (Tree Draft)} {inner : Draft}
    (overtaken : registry.OvertakenBefore path forest inner) (front rear : List Draft)
    (listed : Tree.forestPreorder larger = front ++ Tree.forestPreorder forest ++ rear) :
    registry.OvertakenBefore path larger inner := by
  obtain ⟨before, after, taker, split, earlier, takes⟩ := overtaken
  refine ⟨front ++ before, after ++ rear, taker, ?_, List.mem_append_right _ earlier, takes⟩
  rw [listed, split]
  simp

/-- What was overtaken counts as overtaken ever after. The order of the drafts does not depend on
the registry. -/
theorem overtaken_before_kept_by_placing (path : NamePath) (forest : List (Tree Draft))
    (inner : Draft) : KeptByPlacing (·.OvertakenBefore path forest inner) := by
  refine ⟨?_, ?_⟩
  · rintro registry next added directives live ⟨before, after, taker, split, earlier, takes⟩
      stands inserted
    exact ⟨before, after, taker, split, earlier,
      (takes_over_kept_by_placing taker path).inserted takes stands inserted⟩
  · rintro registry lost ⟨before, after, taker, split, earlier, takes⟩ stand
    exact ⟨before, after, taker, split, earlier,
      (takes_over_kept_by_placing taker path).superseded takes stand⟩

/-- Placing several drafts without a fault places the first one and then the others. -/
theorem place_all_cons {first : Tree Draft} {rest : List (Tree Draft)} {container : NamePath}
    {scopes : List NamePath}
    (placed : placeAll registry container scopes (first :: rest) = .ok next) :
    ∃ middle, place registry container scopes first = .ok middle ∧
      placeAll middle container scopes rest = .ok next := by
  unfold placeAll at placed
  split at placed
  · cases placed
  · next middle placedFirst => exact ⟨middle, placedFirst, placed⟩

/-- A draft that is placed without a fault becomes live, and what is nested in it is placed next; or
it arrives superseded, and so does everything nested in it. It says everything that placing one tree
can do, and later proofs use it in place of the definition. -/
theorem place_node {draft : Draft} {nested : List (Tree Draft)} {container : NamePath}
    {scopes : List NamePath}
    (placed : place registry container scopes (.node draft nested) = .ok next) :
    ∃ path arrived, path = registry.pathFor draft container scopes ∧
      ((registry.insert (draft.entity.movedTo path) draft.directives = .ok (arrived, true) ∧
          placeAll arrived path (path :: scopes) nested = .ok next) ∨
        registry.insert (draft.entity.movedTo path) draft.directives = .ok (arrived, false) ∧
          next =
            { arrived with superseded := arrived.superseded ++ displacedAll path nested }) := by
  unfold place at placed
  dsimp only at placed
  split at placed
  · cases placed
  · next arrived inserted => exact ⟨_, arrived, rfl, .inl ⟨inserted, placed⟩⟩
  · next arrived inserted => exact ⟨_, arrived, rfl, .inr ⟨inserted, (Except.ok.inj placed).symm⟩⟩

section Placing

mutual

/-- While a draft is placed, an entity stays live where it is, unless the draft or one nested in it
takes over a path at or above it. The draft itself is tried first, then what is nested in it. -/
theorem LiveAt.place :
    ∀ (tree : Tree Draft) {registry next : Registry} {container : NamePath}
      {scopes : List NamePath}, registry.LiveAt path owner →
      place registry container scopes tree = .ok next →
      next.LiveAt path owner ∨ ∃ taker ∈ tree.preorder, next.TakesOver taker path
  | .node draft nested, registry, next, container, scopes, held, placed => by
    obtain ⟨taken, arrived, _, ⟨inserted, placed⟩ | ⟨inserted, rfl⟩⟩ := place_node placed
    · obtain stays | ⟨within, marked⟩ := held.insert inserted
      · obtain kept | ⟨taker, listed, takes⟩ := LiveAt.place_all nested stays placed
        · exact .inl kept
        · exact .inr ⟨taker, List.mem_cons_of_mem draft listed, takes⟩
      · have takes : arrived.TakesOver draft path := ⟨taken, within, marked⟩
        exact .inr ⟨draft, List.mem_cons_self,
          (takes_over_kept_by_placing draft path).place_all nested takes placed⟩
    · obtain stays | ⟨within, marked⟩ := held.insert inserted
      · exact .inl stays
      · have takes : arrived.TakesOver draft path := ⟨taken, within, marked⟩
        exact .inr ⟨draft, List.mem_cons_self,
          (takes_over_kept_by_placing draft path).superseded takes
            (displaced_all_stands_at _ nested)⟩

/-- While drafts are placed, an entity stays live where it is, unless one of them takes
over a path at or above it. -/
theorem LiveAt.place_all :
    ∀ (forest : List (Tree Draft)) {registry next : Registry} {container : NamePath}
      {scopes : List NamePath}, registry.LiveAt path owner →
      placeAll registry container scopes forest = .ok next →
      next.LiveAt path owner ∨ ∃ taker ∈ Tree.forestPreorder forest, next.TakesOver taker path
  | [], registry, next, container, scopes, held, placed => by
    cases placed
    exact .inl held
  | first :: rest, registry, next, container, scopes, held, placed => by
    obtain ⟨middle, placedFirst, placed⟩ := place_all_cons placed
    obtain stays | ⟨taker, listed, takes⟩ := LiveAt.place first held placedFirst
    · obtain kept | ⟨taker, listed, takes⟩ := LiveAt.place_all rest stays placed
      · exact .inl kept
      · exact .inr ⟨taker, List.mem_append_right _ listed, takes⟩
    · exact .inr ⟨taker, List.mem_append_left _ listed,
        (takes_over_kept_by_placing taker path).place_all rest takes placed⟩

end

/-- The places of displaced drafts are superseded with them. -/
theorem order_mem_displaced_all {container : NamePath} {forest : List (Tree Draft)} {inner : Draft}
    (listed : inner ∈ Tree.forestPreorder forest) :
    inner.entity.order ∈ (displacedAll container forest).map Entity.order := by
  rw [map_displaced_all order_lasting]
  exact List.mem_map_of_mem (f := fun draft : Draft => draft.entity.order) listed

/-- A plain draft is put below its container. This is the place where the draft has to be plain. -/
theorem is_below_path_for {draft : Draft} (plain : draft.Plain) (registry : Registry)
    {container : NamePath} (inside : isWithin path container = true) (scopes : List NamePath) :
    (registry.pathFor draft container scopes).isBelow path = true := by
  have start := is_within_iff.mp inside
  rw [pathFor, plain.1, plain.2, NamePath.is_below_iff]
  simp only [NamePath.child, List.length_append, List.length_singleton]
  exact ⟨Nat.lt_succ_of_le start.length_le, start.trans (List.prefix_append _ _)⟩

/-- A path below another one has the other one not within it. So the owner is not removed by what
takes a path below it. -/
theorem not_is_within_of_is_below {above : NamePath} (below : path.isBelow above = true) :
    ¬isWithin path above = true := by
  intro within
  exact Nat.not_lt.mpr (is_within_iff.mp within).length_le (NamePath.is_below_iff.mp below).1

/-- A registered entity that became live is live at its path. -/
theorem get?_of_insert (inserted : registry.insert entity directives = .ok (next, true)) :
    ∃ other, next.live.get? entity.path = some other ∧ other.order = entity.order ∧
      other.path = entity.path := by
  obtain ⟨_, rfl, _⟩ | ⟨_, _, _, _, dead⟩ | ⟨_, _, _, rfl, _⟩ := insert_cases inserted
  · exact ⟨entity, by simp, rfl, rfl⟩
  · cases dead
  · exact ⟨shadowing entity, by simp,
      rfl, rfl⟩

/-- A registered entity that did not become live is superseded. -/
theorem mem_superseded_of_insert
    (inserted : registry.insert entity directives = .ok (next, false)) :
    entity ∈ next.superseded := by
  obtain ⟨_, _, alive⟩ | ⟨_, _, _, rfl, _⟩ | ⟨_, _, _, _, alive⟩ := insert_cases inserted
  · cases alive
  · simp [addSuperseded]
  · cases alive

/-- While the owner of a path lives, what is plainly placed below the path becomes bound to the
owner, unless a draft before it takes over a path at or above that path.

Proof by induction on where the draft is. At the head of the forest, it is put below the container
and becomes live there, or is superseded at once. Inside of a plain draft, that draft is below the
path itself, so the container is within the path again; or it is displaced with everything in it.
Further on, the owner outlives the trees before, or one of them took its path over. -/
theorem bound_to_of_place_all {inner : Draft} {forest : List (Tree Draft)}
    (plainly : inner.PlainlyIn forest) {registry next : Registry} {container : NamePath}
    {scopes : List NamePath} (held : registry.LiveAt path owner)
    (inside : isWithin path container = true)
    (placed : placeAll registry container scopes forest = .ok next) :
    next.BoundTo path owner inner.entity.order ∨ next.OvertakenBefore path forest inner := by
  induction plainly generalizing registry next container scopes with
  | @head nested rest plain =>
    obtain ⟨middle, placedFirst, placed⟩ := place_all_cons placed
    refine .inl ((bound_to_kept_by_placing path owner _).place_all rest ?_ placed)
    have below := is_below_path_for plain registry inside scopes
    obtain ⟨taken, arrived, rfl, ⟨inserted, placedFirst⟩ | ⟨inserted, rfl⟩⟩ :=
      place_node placedFirst
    · refine (bound_to_kept_by_placing path owner _).place_all nested ?_ placedFirst
      obtain stays | ⟨within, _⟩ := held.insert inserted
      · obtain ⟨other, found, same, _⟩ := get?_of_insert inserted
        exact .inr ⟨stays, _, below, other, found, same⟩
      · exact absurd within (not_is_within_of_is_below below)
    · exact .inl (List.mem_map.mpr
        ⟨_, List.mem_append_left _ (mem_superseded_of_insert inserted), rfl⟩)
  | @inside outer nested rest plain deeper inductionHypothesis =>
    obtain ⟨middle, placedFirst, placed⟩ := place_all_cons placed
    have below := is_below_path_for plain registry inside scopes
    obtain ⟨taken, arrived, rfl, ⟨inserted, placedFirst⟩ | ⟨inserted, rfl⟩⟩ :=
      place_node placedFirst
    · obtain stays | ⟨within, _⟩ := held.insert inserted
      · have start := is_within_iff.mpr (NamePath.is_below_iff.mp below).2
        obtain bound | overtaken := inductionHypothesis stays start placedFirst
        · exact .inl ((bound_to_kept_by_placing path owner _).place_all rest bound placed)
        · have before := (overtaken_before_kept_by_placing path nested inner).place_all rest
            overtaken placed
          exact .inr (before.extend [outer] (Tree.forestPreorder rest) rfl)
      · exact absurd within (not_is_within_of_is_below below)
    · refine .inl ((bound_to_kept_by_placing path owner _).place_all rest (.inl ?_) placed)
      rw [List.map_append]
      exact List.mem_append_right _ (order_mem_displaced_all deeper.mem_forest_preorder)
  | @later first rest further inductionHypothesis =>
    obtain ⟨middle, placedFirst, placed⟩ := place_all_cons placed
    obtain stays | ⟨taker, listed, takes⟩ := LiveAt.place first held placedFirst
    · refine (inductionHypothesis stays inside placed).imp_right fun overtaken => ?_
      exact overtaken.extend first.preorder [] (by simp [Tree.forestPreorder])
    · obtain ⟨before, after, split⟩ := List.append_of_mem further.mem_forest_preorder
      refine .inr ⟨first.preorder ++ before, after, taker, ?_, List.mem_append_left _ listed,
        (takes_over_kept_by_placing taker path).place_all rest takes placed⟩
      rw [Tree.forestPreorder, split, List.append_assoc]

end Placing

/-- A placed tree of drafts takes along what is plainly nested in it: these drafts are bound to the
entity of the tree, apart from those that come after one that took over its path or a path above it.
An owner that was superseded on arrival is held as well, and has its drafts superseded with it. -/
def TakesAlong (registry : Registry) (tree : Tree Draft) : Prop :=
  ∃ entity, registry.Holds entity ∧ entity.order = tree.value.entity.order ∧
    ∀ inner : Draft, inner.PlainlyIn tree.children →
      registry.BoundTo entity.path entity.order inner.entity.order ∨
        registry.OvertakenBefore entity.path tree.children inner

/-- Placing further drafts does not change what a tree takes along. -/
theorem takes_along_kept_by_placing (tree : Tree Draft) : KeptByPlacing (·.TakesAlong tree) := by
  refine ⟨?_, ?_⟩
  · rintro registry next added directives live ⟨entity, holds, same, along⟩ stands inserted
    refine ⟨entity, (holds_kept_by_placing _).inserted holds stands inserted, same, ?_⟩
    intro inner plainly
    exact (along inner plainly).imp
      (fun bound => (bound_to_kept_by_placing _ _ _).inserted bound stands inserted)
      (fun before => (overtaken_before_kept_by_placing _ _ _).inserted before stands inserted)
  · rintro registry lost ⟨entity, holds, same, along⟩ stand
    refine ⟨entity, (holds_kept_by_placing _).superseded holds stand, same, ?_⟩
    intro inner plainly
    exact (along inner plainly).imp
      (fun bound => (bound_to_kept_by_placing _ _ _).superseded bound stand)
      (fun before => (overtaken_before_kept_by_placing _ _ _).superseded before stand)

/-- When displaced drafts are superseded, each tree among them takes along what it has. All of them
are superseded, whether they are plain or not. -/
theorem takes_along_of_displaced {tree : Tree Draft} {forest : List (Tree Draft)}
    (occurs : tree.Occurs forest) (registry : Registry) (container : NamePath) :
    { registry with superseded := registry.superseded ++ displacedAll container forest }.TakesAlong
      tree := by
  have listed := occurs.forest_preorder_subset
  have superseded : ∀ draft ∈ tree.preorder, draft.entity.order ∈
      (registry.superseded ++ displacedAll container forest).map Entity.order := by
    intro draft present
    rw [List.map_append]
    exact List.mem_append_right _ (order_mem_displaced_all (listed present))
  obtain ⟨draft, nested⟩ := tree
  obtain ⟨entity, present, same⟩ := List.mem_map.mp (superseded draft List.mem_cons_self)
  refine ⟨entity, .inr present, same, fun inner plainly => .inl (.inl ?_)⟩
  exact superseded inner (List.mem_cons_of_mem draft plainly.mem_forest_preorder)

/-- A tree takes along what it has as soon as it was placed. The owner is live at the path that was
just given to it, and that is where its drafts are placed. -/
theorem takes_along_of_place {tree : Tree Draft} {container : NamePath} {scopes : List NamePath}
    (placed : place registry container scopes tree = .ok next) : next.TakesAlong tree := by
  obtain ⟨draft, nested⟩ := tree
  obtain ⟨taken, arrived, _, ⟨inserted, placed⟩ | ⟨inserted, rfl⟩⟩ := place_node placed
  · obtain ⟨entity, found, same, here⟩ := get?_of_insert inserted
    have holds : arrived.Holds entity := .inl (Table.mem_values_of_get? found)
    refine ⟨entity, (holds_kept_by_placing entity).place_all nested holds placed, same, ?_⟩
    intro inner plainly
    rw [here]
    exact bound_to_of_place_all plainly ⟨entity, found, rfl⟩
      (is_within_self _) placed
  · refine ⟨_, .inr (List.mem_append_left _ (mem_superseded_of_insert inserted)), rfl, ?_⟩
    intro inner plainly
    refine .inl (.inl ?_)
    rw [List.map_append]
    exact List.mem_append_right _ (order_mem_displaced_all plainly.mem_forest_preorder)

/-- Wherever a tree stands among the placed drafts, it takes along what it has. The induction is on
where the tree stands. Once it was placed, the others do not change the matter. -/
theorem takes_along_of_place_all {tree : Tree Draft} {forest : List (Tree Draft)}
    (occurs : tree.Occurs forest) {registry next : Registry} {container : NamePath}
    {scopes : List NamePath} (placed : placeAll registry container scopes forest = .ok next) :
    next.TakesAlong tree := by
  induction occurs generalizing registry next container scopes with
  | @head rest =>
    obtain ⟨middle, placedFirst, placed⟩ := place_all_cons placed
    exact (takes_along_kept_by_placing tree).place_all rest (takes_along_of_place placedFirst)
      placed
  | @inside draft nested rest deeper inductionHypothesis =>
    obtain ⟨middle, placedFirst, placed⟩ := place_all_cons placed
    refine (takes_along_kept_by_placing tree).place_all rest ?_ placed
    obtain ⟨taken, arrived, _, ⟨_, placedFirst⟩ | ⟨_, rfl⟩⟩ := place_node placedFirst
    · exact inductionHypothesis placedFirst
    · exact takes_along_of_displaced deeper arrived taken
  | @later first rest further inductionHypothesis =>
    obtain ⟨middle, _, placed⟩ := place_all_cons placed
    exact inductionHypothesis placed

/-- Where all entities of a registry stand at different places of the source order, those at
places of superseded ones are not live. -/
theorem supersedes_of_mem (distinct : (registry.census Entity.order).Nodup)
    (lost : order ∈ registry.superseded.map Entity.order) : registry.Supersedes order :=
  ⟨lost, fun alive => Multiset.disjoint_left.mp (Multiset.nodup_add.mp distinct).2.2
    (Multiset.mem_coe.mpr alive) (Multiset.mem_coe.mpr lost)⟩

/-- Where all entities of a registry stand at different places of the source order, it holds one
entity at most for each place. So the superseded entity is the one that the tree takes along its
drafts with. -/
theorem Holds.eq_of_order (distinct : (registry.census Entity.order).Nodup) {other : Entity}
    (first : registry.Holds entity) (second : registry.Holds other)
    (same : entity.order = other.order) : entity = other := by
  have apart : ((registry.live.values ++ registry.superseded).map Entity.order).Nodup := by
    rw [List.map_append, ← Multiset.coe_nodup, ← Multiset.coe_add]
    exact distinct
  exact List.inj_on_of_nodup_map apart (List.mem_append.mpr first) (List.mem_append.mpr second) same

/-- What a superseded tree takes along is superseded. The owner is not live any more, so of the two
ways to be bound only one is left. -/
theorem TakesAlong.supersedes {tree : Tree Draft} (along : registry.TakesAlong tree)
    (distinct : (registry.census Entity.order).Nodup) (lost : entity ∈ registry.superseded)
    (its : entity.order = tree.value.entity.order) {inner : Draft}
    (plainly : inner.PlainlyIn tree.children) :
    registry.Supersedes inner.entity.order ∨
      registry.OvertakenBefore entity.path tree.children inner := by
  obtain ⟨held, holds, same, bound⟩ := along
  obtain rfl : held = entity := holds.eq_of_order distinct (.inr lost) (same.trans its.symm)
  refine (bound inner plainly).imp_left ?_
  rintro (gone | ⟨⟨top, found, owns⟩, _⟩)
  · exact supersedes_of_mem distinct gone
  · have dead := (supersedes_of_mem distinct (List.mem_map_of_mem lost)).2
    exact absurd (List.mem_map.mpr ⟨top, Table.mem_values_of_get? found, owns⟩) dead

end Registry

namespace Build

/-- When the entity of a draft is superseded, so is the entity of every draft that is nested in it
through plain drafts only, and no live entity is left of it; unless that draft comes after another
one of the same tree that took over the path of the superseded entity or a path above it.

The places in the source order have to be told apart, and this is what the premise on the number of
drafts is for.

Proof: wherever the tree stands, it takes along what is plainly nested in it. Its entity is
superseded, and since all places are distinct, nothing that is bound to it can be live. -/
theorem superseded_with_plain_drafts {files : List SourceFile} {config : Config}
    {placed : Registry} (counted : Counted files config)
    (assigned : Registry.assign ((normalized files config).map NormalizedFile.drafts) = .ok placed)
    {tree : Tree Draft}
    (occurs : tree.Occurs ((normalized files config).map NormalizedFile.drafts).flatten)
    {entity : Entity} (lost : entity ∈ placed.superseded)
    (its : entity.order = tree.value.entity.order) {inner : Draft}
    (plainly : inner.PlainlyIn tree.children) :
    placed.Supersedes inner.entity.order ∨
      placed.OvertakenBefore entity.path tree.children inner := by
  have distinct : (placed.census Entity.order).Nodup := by
    rw [Registry.census_assign Registry.order_lasting assigned]
    exact census_order_nodup counted
  exact (Registry.takes_along_of_place_all occurs assigned).supersedes distinct lost its plainly

/-- One file with a function that is declared twice. The first one has a function with a
local of its own, and gets a property between the two. -/
def redeclared : List SourceFile :=
  [{ path := "a.js"
     declarations :=
      [.node { kind := .function, name := some "f", span := { startLine := 1, endLine := 6 } }
        [.node { kind := .function, name := some "g", span := { startLine := 2, endLine := 4 } }
          [.node
            { kind := .variableDecl, name := some "x", span := { startLine := 3, endLine := 3 } }
            []]],
       .node { kind := .assignment, target := some "f.extra",
               span := { startLine := 7, endLine := 7 } } [],
       .node { kind := .function, name := some "f", span := { startLine := 8, endLine := 8 } }
        []] }]

/-- The first function is superseded with its function and the local of that one. Nothing took over
the path inside of the function, so the main statement leaves no choice. -/
theorem redeclared_supersedes_locals :
    Counted redeclared {} ∧ ∃ placed,
      Registry.assign ((normalized redeclared {}).map NormalizedFile.drafts) = .ok placed ∧
      ∃ (tree : Tree Draft) (inner : Draft),
        tree.Occurs ((normalized redeclared {}).map NormalizedFile.drafts).flatten ∧
        (∃ entity ∈ placed.superseded, entity.order = tree.value.entity.order) ∧
        inner.PlainlyIn tree.children ∧ inner.entity.name = "x" ∧
        placed.Supersedes inner.entity.order := by
  have counted : Counted redeclared {} := counted_of_few (by decide) (by decide)
  have checked : (Registry.assign
      ((normalized redeclared {}).map NormalizedFile.drafts)).toOption.any (fun placed => decide
        (∃ f ∈ ((normalized redeclared {}).map NormalizedFile.drafts).flatten,
          f.value.entity.order ∈ placed.superseded.map Entity.order ∧
          (∃ g ∈ f.children, g.value.Plain ∧ ∃ x ∈ g.children, x.value.Plain ∧
            x.value.entity.name = "x") ∧
          ∀ draft ∈ Tree.forestPreorder f.children,
            ∀ entity ∈ placed.live.values ++ placed.superseded,
              entity.order = draft.entity.order → entity.relations = [])) = true := by
    decide +kernel
  obtain ⟨placed, assigned, passes⟩ := exists_ok_of_any checked
  obtain ⟨f, listed, gone, ⟨g, nested, plainG, x, deeper, plainX, named⟩, unmarked⟩ :=
    of_decide_eq_true passes
  obtain ⟨entity, lost, its⟩ := List.mem_map.mp gone
  have occurs := Tree.occurs_of_mem listed
  have plainly : x.value.PlainlyIn f.children :=
    (Draft.plainly_in_of_mem deeper plainX).of_children nested plainG
  refine ⟨counted, placed, assigned, f, x.value, occurs, ⟨entity, lost, its⟩, plainly, named, ?_⟩
  refine (superseded_with_plain_drafts counted assigned occurs lost its plainly).resolve_right ?_
  rintro ⟨before, after, taker, split, earlier, taken, _, holds⟩
  have among : taker ∈ Tree.forestPreorder f.children :=
    split ▸ List.mem_append_left _ earlier
  have bare := unmarked taker among _ (List.mem_append.mpr holds) rfl
  simp [Registry.shadowing, Entity.addRelation] at bare

/-- A namespace with a function that assigns to its own name, between two local functions. -/
def reassigned : List SourceFile :=
  [{ path := "a.js"
     declarations :=
      [.node { kind := .namespaceDecl, name := some "ns", span := { startLine := 1, endLine := 7 } }
        [.node { kind := .function, name := some "f", span := { startLine := 2, endLine := 6 } }
          [.node { kind := .function, name := some "x", span := { startLine := 3, endLine := 3 } }
            [],
           .node { kind := .assignment, target := some "ns.f",
                   span := { startLine := 4, endLine := 4 } } [],
           .node { kind := .function, name := some "y", span := { startLine := 5, endLine := 5 } }
            []]]] }]

/-- A local function that is declared after its own container was assigned to stays live, though the
container is superseded. The assignment stands between the two local functions, and only the first
of them is superseded with the container. -/
theorem reassigned_keeps_local :
    Counted reassigned {} ∧ ∃ placed,
      Registry.assign ((normalized reassigned {}).map NormalizedFile.drafts) = .ok placed ∧
      ∃ (tree : Tree Draft) (inner : Draft),
        tree.Occurs ((normalized reassigned {}).map NormalizedFile.drafts).flatten ∧
        (∃ entity ∈ placed.superseded, entity.order = tree.value.entity.order) ∧
        inner.PlainlyIn tree.children ∧ ¬placed.Supersedes inner.entity.order := by
  have counted : Counted reassigned {} := counted_of_few (by decide) (by decide)
  have checked : (Registry.assign
      ((normalized reassigned {}).map NormalizedFile.drafts)).toOption.any (fun placed => decide
        (∃ ns ∈ ((normalized reassigned {}).map NormalizedFile.drafts).flatten,
          ∃ f ∈ ns.children, f.value.entity.order ∈ placed.superseded.map Entity.order ∧
            ∃ y ∈ f.children, y.value.Plain ∧
              y.value.entity.order ∈ placed.live.values.map Entity.order)) = true := by
    decide +kernel
  obtain ⟨placed, assigned, passes⟩ := exists_ok_of_any checked
  obtain ⟨ns, listed, f, nested, gone, y, deeper, plain, alive⟩ := of_decide_eq_true passes
  obtain ⟨entity, lost, its⟩ := List.mem_map.mp gone
  exact ⟨counted, placed, assigned, f, y.value, (Tree.occurs_of_mem listed).child nested,
    ⟨entity, lost, its⟩, Draft.plainly_in_of_mem deeper plain,
    fun supersedes => supersedes.2 alive⟩

end Build

end DocGraph
