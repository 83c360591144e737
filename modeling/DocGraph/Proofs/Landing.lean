import DocGraph.Proofs.Circle

/-!
# Where lending puts members

The turn of a lender is described here by the live paths before and after it. When the lender has no
hop or is not live any more they are the same. Otherwise those afterwards are some of those that
were not below the lender, and relocations of paths that were: a path below the lender is live after
its turn only when the turn put a member there.

What a whole sequence of turns can bring about is read off the hops: a path that may come to be
live, moved along with any lender above it, may come to be live at its relocation. The order of
these turns and the outcome of single moves are left out of this, so it may count a path that is
never taken; it never misses one. A turn that ends with a fault is not described.

The two descriptions are used together: what may be left by one turn says that the part below a
lender is empty afterwards, and what may be reached by many turns says whether it can be filled
again. For a given registry both can be checked on lists of paths.
-/

namespace DocGraph.Registry

variable {hops : Table NamePath Hop} {registry : Registry}

/-- Taking a path out leaves the other live paths. -/
@[simp]
theorem mem_keys_remove {old path : NamePath} :
    path ∈ (registry.remove old).live.keys ↔ path ∈ registry.live.keys ∧ path ≠ old := by
  simp [remove]

/-- Superseding a subtree leaves the live paths outside. -/
@[simp]
theorem mem_keys_supersede_subtree {root path : NamePath} :
    path ∈ (registry.supersedeSubtree root).live.keys ↔
      path ∈ registry.live.keys ∧ isWithin root path = false := by
  simp [supersedeSubtree]

/-- Registering an entity adds at most its own path to the live ones. A registration that is refused
or comes too late adds none, and one that takes a path over may remove some. -/
theorem mem_keys_of_insert {next : Registry} {entity : Entity} {directives : Directives}
    {live : Bool} (inserted : registry.insert entity directives = .ok (next, live))
    {path : NamePath} (present : path ∈ next.live.keys) :
    path = entity.path ∨ path ∈ registry.live.keys := by
  obtain ⟨_, rfl, _⟩ | ⟨_, _, _, rfl, _⟩ | ⟨_, _, _, rfl, _⟩ := insert_cases inserted
  · exact Table.mem_keys_insert.mp present
  · exact .inr present
  · refine (Table.mem_keys_insert.mp present).imp_right ?_
    exact fun outside => (mem_keys_supersede_subtree.mp outside).1

/-- What is live after one listed member was moved was live before and is not that member, or is its
new path. A member that is passed over because it is gone is not live in any case. -/
theorem Moved.mem_keys {lender old path : NamePath} {hop : Hop} {next : Registry}
    (moved : Moved lender hop old registry next) (present : path ∈ next.live.keys) :
    (path ∈ registry.live.keys ∧ path ≠ old) ∨ path = relocate old lender hop := by
  cases moved with
  | passed gone =>
    refine .inl ⟨present, ?_⟩
    rintro rfl
    exact Table.get?_eq_none_iff.mp gone present
  | displaced found => exact .inl (mem_keys_remove.mp present)
  | reinserted found inserted =>
    obtain here | left := mem_keys_of_insert inserted present
    · exact .inr here
    · exact .inl (mem_keys_remove.mp left)

/-- What is live after listed members were moved was live before and is not one of them, or is the
new path of one of them. The relocation of one listed member may be another listed member, so both
parts are needed. -/
theorem mem_keys_of_move_each {lender : NamePath} {hop : Hop} {lost listed : List NamePath}
    {path : NamePath}
    (present : path ∈ (moveEach lender hop lost registry listed).registry.live.keys)
    (finished : (moveEach lender hop lost registry listed).failure = none) :
    (path ∈ registry.live.keys ∧ path ∉ listed) ∨
      ∃ old ∈ listed, path = relocate old lender hop := by
  induction listed generalizing registry lost with
  | nil => exact .inl ⟨present, List.not_mem_nil⟩
  | cons old rest inductionHypothesis =>
    obtain ⟨next, known, moved, same⟩ := move_each_cons finished
    rw [same] at present finished
    obtain ⟨held, unlisted⟩ | ⟨other, listed, here⟩ := inductionHypothesis present finished
    · obtain ⟨earlier, differs⟩ | here := moved.mem_keys held
      · exact .inl ⟨earlier, List.not_mem_cons_of_ne_of_not_mem differs unlisted⟩
      · exact .inr ⟨old, List.mem_cons_self, here⟩
    · exact .inr ⟨other, List.mem_cons_of_mem old listed, here⟩

/-- What is live after everything below a lender was moved was live before outside of the lender's
part, or is the new path of something that was live in it. All live paths below the lender are
listed, so the first part lies outside. -/
theorem mem_keys_of_move_members {lender : NamePath} {hop : Hop} {path : NamePath}
    (present : path ∈ (registry.moveMembers lender hop).registry.live.keys)
    (finished : (registry.moveMembers lender hop).failure = none) :
    (path ∈ registry.live.keys ∧ path.isBelow lender = false) ∨
      ∃ old ∈ registry.live.keys, old.isBelow lender = true ∧
        path = relocate old lender hop := by
  obtain ⟨held, unlisted⟩ | ⟨old, listed, same⟩ := mem_keys_of_move_each present finished
  · refine .inl ⟨held, ?_⟩
    by_contra below
    rw [Bool.not_eq_false] at below
    refine unlisted (List.mem_filter.mpr ⟨List.mem_filter.mpr ⟨held, ?_⟩, ?_⟩)
    · simp [isWithin, below]
    · rw [decide_eq_true_eq]
      rintro rfl
      simp [NamePath.isBelow] at below
  · have below := is_below_of_mem_members listed
    exact .inr ⟨old, (List.mem_filter.mp (List.mem_filter.mp listed).1).1, below, same⟩

/-- Retiring a lender makes no path live. At most it takes some away, when the lender is dropped. -/
theorem mem_keys_of_retire {lender target path : NamePath} {text : String}
    (present : path ∈ (registry.retire lender target text).live.keys) :
    path ∈ registry.live.keys := by
  refine retire_keeps (motive := fun after => path ∈ after.live.keys → path ∈ registry.live.keys)
    id ?recorded ?dropped present
  case recorded =>
    intro present
    rwa [Table.keys_modify] at present
  case dropped =>
    exact fun before _ _ earlier present => earlier (mem_keys_supersede_subtree.mp present).1

/-- The paths that may be live after the turn of a lender that is live and has a hop, when given
ones may be live before: those that do not lie below the lender, and the relocations of those that
do. The final hop is the one that following hops from the lender comes to. -/
def MayLeave (hops : Table NamePath Hop) (lender : NamePath) (given : NamePath → Prop)
    (path : NamePath) : Prop :=
  (given path ∧ path.isBelow lender = false) ∨
    ∃ final old, LendsTo hops lender final ∧ given old ∧ old.isBelow lender = true ∧
      path = relocate old lender final

/-- The paths to which the turns of some lenders may bring what stands at given paths: the given
ones, and what becomes of such a path when one of these lenders, above it, lends. It is the least
set of paths that contains the given ones and is closed under the turns, in whatever order and as
often as one likes. -/
inductive MayReach (hops : Table NamePath Hop) (turns : List (NamePath × String))
    (given : NamePath → Prop) : NamePath → Prop where
  | held {path : NamePath} (start : given path) : MayReach hops turns given path
  | lent {lender old : NamePath} {text : String} {final : Hop} (turn : (lender, text) ∈ turns)
      (lends : LendsTo hops lender final) (below : old.isBelow lender = true)
      (origin : MayReach hops turns given old) :
      MayReach hops turns given (relocate old lender final)

/-- What may be reached can be checked on a list of paths that holds every given path and, with a
path, all of its relocations. The premise can be evaluated, since tables and lists are finite. A
lender in a circle has no destination and adds nothing. -/
theorem mem_of_may_reach {turns : List (NamePath × String)} {given : NamePath → Prop}
    {listed : List NamePath} (start : ∀ path, given path → path ∈ listed)
    (closed : ∀ row ∈ hops.entries, row.1 ∈ turns.map Prod.fst → ∀ old ∈ listed,
      old.isBelow row.1 = true → (destination hops row.1 row.2).toOption.all
        (fun final => listed.contains (relocate old row.1 final)) = true)
    {path : NamePath} (reach : MayReach hops turns given path) : path ∈ listed := by
  induction reach with
  | held given => exact start _ given
  | lent turn lends below _ inductionHypothesis =>
    obtain ⟨hop, held, arrives⟩ := lends
    have checked := closed (_, hop) (Table.get?_eq_some_iff.mp held)
      (List.mem_map_of_mem turn) _ inductionHypothesis below
    simpa [arrives, Except.toOption] using checked

/-- What a turn may leave can be checked on a list, too. -/
theorem mem_of_may_leave {lender path : NamePath} {given : NamePath → Prop}
    (few : List NamePath) {many : List NamePath} (start : ∀ path, given path → path ∈ few)
    (checked : ∀ old ∈ few, if old.isBelow lender = true then
      ((hops.get? lender).bind fun hop => (destination hops lender hop).toOption).all
        (fun final => many.contains (relocate old lender final)) = true
      else old ∈ many)
    (leave : MayLeave hops lender given path) : path ∈ many := by
  obtain ⟨held, outside⟩ | ⟨final, old, ⟨hop, found, arrives⟩, held, below, rfl⟩ := leave
  · simpa [outside] using checked path (start path held)
  · simpa [below, found, arrives, Except.toOption] using checked old (start old held)

/-- What is live after the turn of a live lender with a hop may be left by it. The premises exclude
a turn that is passed over; such a turn would leave the part below the lender as it is. -/
theorem may_leave_of_lend {lender : NamePath} {text : String} {hop : Hop}
    {given : NamePath → Prop} (start : ∀ path ∈ registry.live.keys, given path)
    (resolved : hops.get? lender = some hop) (live : lender ∈ registry.live.keys)
    (finished : (lend hops registry lender text).failure = none) :
    ∀ path ∈ (lend hops registry lender text).registry.live.keys,
      MayLeave hops lender given path := by
  intro path present
  obtain ⟨missing | gone, _⟩ | ⟨final, lends, _, moves, result⟩ := lend_turn finished
  · rw [missing] at resolved
    cases resolved
  · exact absurd live gone
  · rw [result] at present
    obtain ⟨held, outside⟩ | ⟨old, held, below, here⟩ :=
      mem_keys_of_move_members (mem_keys_of_retire present) moves
    · exact .inl ⟨start path held, outside⟩
    · exact .inr ⟨final, old, lends, start old held, below, here⟩

/-- What is live after the turns of some lenders may be reached by them. The invariant is that what
is live may be reached, and each turn keeps it by the closure rule. -/
theorem may_reach_of_lend_all {turns : List (NamePath × String)} {given : NamePath → Prop}
    (start : ∀ path ∈ registry.live.keys, given path)
    (finished : (lendAll hops registry turns).failure = none) :
    ∀ path ∈ (lendAll hops registry turns).registry.live.keys,
      MayReach hops turns given path := by
  refine lend_all_keeps (motive := fun reached => ∀ path ∈ reached.live.keys,
    MayReach hops turns given path) ?_ finished (fun path live => .held (start path live))
  intro reached lender text turn done held path present
  obtain ⟨_, same⟩ | ⟨final, lends, _, moves, result⟩ := lend_turn done
  · rw [same] at present
    exact held path present
  · rw [result] at present
    obtain ⟨earlier, _⟩ | ⟨old, live, below, here⟩ :=
      mem_keys_of_move_members (mem_keys_of_retire present) moves
    · exact held path earlier
    · rw [here]
      exact .lent turn lends below (held old live)

/-- Recording the targets that do not exist changes nothing but relations. It is stated with some
function, because only the form of the change matters: a relation may be added to each live
entity. -/
theorem record_strays_eq (registry : Registry) :
    ∃ f : NamePath → Entity → Entity,
      (∀ path entity, ∃ relations, f path entity = { entity with relations := relations }) ∧
      registry.recordStrays = { registry with live := registry.live.mapValues f } := by
  have recorded (strays : List (NamePath × String)) (table : Table NamePath Entity) :
      ∃ f : NamePath → Entity → Entity,
        (∀ path entity, ∃ relations, f path entity = { entity with relations := relations }) ∧
        strays.foldl (fun live stray =>
          live.modify stray.1 (·.addRelation { kind := .lending, target := stray.2 })) table =
          table.mapValues f := by
    induction strays generalizing table with
    | nil => exact ⟨fun _ entity => entity, fun _ entity => ⟨entity.relations, rfl⟩,
        Table.ext (by simp [Table.mapValues])⟩
    | cons stray rest inductionHypothesis =>
      obtain ⟨f, related, same⟩ := inductionHypothesis
        (table.modify stray.1 (·.addRelation { kind := .lending, target := stray.2 }))
      refine ⟨fun path entity => f path (if path = stray.1 then
        entity.addRelation { kind := .lending, target := stray.2 } else entity), ?_, ?_⟩
      · intro path entity
        obtain ⟨relations, changed⟩ := related path (if path = stray.1 then
          entity.addRelation { kind := .lending, target := stray.2 } else entity)
        refine ⟨relations, changed.trans ?_⟩
        split <;> rfl
      · rw [List.foldl_cons, same]
        exact Table.ext (by simp [Table.mapValues, Table.modify])
  obtain ⟨f, related, same⟩ := recorded registry.strayLenders registry.live
  exact ⟨f, related, by rw [recordStrays, ← same]⟩

/-- Recording the targets that do not exist leaves the live paths alone. -/
theorem keys_record_strays (registry : Registry) :
    registry.recordStrays.live.keys = registry.live.keys := by
  obtain ⟨f, _, recorded⟩ := registry.record_strays_eq
  rw [recorded, Table.keys_map_values]

end DocGraph.Registry
