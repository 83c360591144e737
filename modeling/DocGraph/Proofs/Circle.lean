import DocGraph.Proofs.HopWalk
import DocGraph.Proofs.Living

/-!
# Lending in a circle

Hops are resolved before anything moves, and lenders are taken in registry order. For each of them
it is decided by the hops alone whether it lends in a circle, so what was moved for earlier lenders
cannot change the answer for later ones, and lending stops at a circle exactly when there is one. It
is the first lender of a circle in registry order that is reported.

The statements ask of a registry only that its live entities stand at different places of the source
order, because otherwise a move can fail for another reason. Whether the registry is coherent does
not matter to them.
-/

namespace DocGraph.Registry

variable {hops : Table NamePath Hop} {registry : Registry}

/-- The lenders are live paths, in registry order. So no path lends twice, and the table of hops has
one entry for each lender with a target. -/
theorem lenders_sublist (registry : Registry) :
    (registry.lenders.map Prod.fst).Sublist registry.live.keys := by
  have keyed : ∀ path row, (((registry.directives.get? path).bind Directives.lends).map
      fun text => (path, text)) = some row → row.1 = id path := by
    intro path row made
    obtain ⟨text, _, rfl⟩ := Option.map_eq_some_iff.mp made
    rfl
  have rows := Table.fst_filter_map_sublist keyed registry.live.keys
  rwa [List.map_id] at rows

/-- A lender has a hop exactly when its written target leads to an entity. The target is looked up
in the registry as it is before any member is moved. -/
theorem get?_hops_iff {path : NamePath} {hop : Hop} :
    registry.hops.get? path = some hop ↔
      ∃ text, (path, text) ∈ registry.lenders ∧ registry.hop? text = some hop := by
  have keyed : ∀ (entry : NamePath × String) row,
      ((registry.hop? entry.2).map fun hop => (entry.1, hop)) = some row → row.1 = entry.1 := by
    intro entry row made
    obtain ⟨hop, _, rfl⟩ := Option.map_eq_some_iff.mp made
    rfl
  have distinct := ((Table.fst_filter_map_sublist keyed registry.lenders).trans
    registry.lenders_sublist).nodup registry.live.distinct
  rw [Table.get?_eq_some_iff, hops, Table.entries_of_list distinct, List.mem_filterMap]
  constructor
  · rintro ⟨⟨lender, text⟩, listed, made⟩
    obtain ⟨found, resolved, same⟩ := Option.map_eq_some_iff.mp made
    cases same
    exact ⟨text, listed, resolved⟩
  · rintro ⟨text, listed, resolved⟩
    exact ⟨(path, text), listed, by simp [resolved]⟩

/-- The lending of one entity fails exactly when the entity lends in a circle, and then the fault
shows the circle. That the places are different keeps the moves of the turn from failing, so a
circle is the only reason for a fault. Whether the lender is still live does not matter: the circle
is looked for first. -/
theorem lend_cases (hops : Table NamePath Hop) (lender : NamePath) (text : String)
    (distinct : (registry.living Entity.order).Nodup) :
    (InCircle hops lender ∧ ∃ chain, IsCircle hops lender chain ∧
        (lend hops registry lender text).failure = some (.lendsCycle chain)) ∨
      ¬InCircle hops lender ∧ (lend hops registry lender text).failure = none := by
  unfold lend
  split
  · next missing =>
    refine .inr ⟨?_, rfl⟩
    rintro ⟨hop, found, _⟩
    rw [missing] at found
    cases found
  · next hop held =>
    obtain ⟨circle, chain, shown, fault⟩ | ⟨straight, final, _, arrives, _⟩ :=
      destination_cases held
    · exact .inl ⟨circle, chain, shown, by rw [fault]⟩
    · refine .inr ⟨straight, ?_⟩
      have moves : (registry.moveMembers lender final).failure = none := move_each_succeeds distinct
      rw [arrives]
      dsimp only
      split
      · split
        · next moved error outcome =>
          rw [outcome] at moves
          exact moves
        · rfl
      · rfl

/-- The lending of several entities goes through when none of them lends in a circle, and otherwise
fails at the first one that does. The induction is on the lenders. After a turn that goes through
the live entities still stand at different places, and the hops are those of the beginning, so the
rest is judged as the whole was. -/
theorem lend_all_cases (hops : Table NamePath Hop) (listed : List (NamePath × String))
    (distinct : (registry.living Entity.order).Nodup) :
    ((∀ entry ∈ listed, ¬InCircle hops entry.1) ∧
        (lendAll hops registry listed).failure = none) ∨
      ∃ before lender text after chain, listed = before ++ (lender, text) :: after ∧
        (∀ entry ∈ before, ¬InCircle hops entry.1) ∧ InCircle hops lender ∧
        IsCircle hops lender chain ∧
        (lendAll hops registry listed).failure = some (.lendsCycle chain) := by
  induction listed generalizing registry with
  | nil => exact .inl ⟨fun _ present => absurd present List.not_mem_nil, rfl⟩
  | cons first rest inductionHypothesis =>
    obtain ⟨lender, text⟩ := first
    have turn := lend_cases hops lender text distinct
    have moves : (lend hops registry lender text).failure = none →
        Steps registry (lend hops registry lender text).registry := lend_steps
    unfold lendAll
    split
    · next stopped error outcome =>
      rw [outcome] at turn
      obtain ⟨circle, chain, shown, fault⟩ | ⟨_, fault⟩ := turn
      · exact .inr ⟨[], lender, text, rest, chain, rfl,
          fun _ present => absurd present List.not_mem_nil, circle, shown, fault⟩
      · cases fault
    · next next outcome =>
      rw [outcome] at turn moves
      obtain ⟨_, _, _, fault⟩ | ⟨straight, _⟩ := turn
      · cases fault
      have kept : (next.living Entity.order).Nodup :=
        Multiset.nodup_of_le ((moves rfl).living_le order_lasting) distinct
      obtain ⟨others, done⟩ | ⟨before, other, written, after, chain, split, earlier, result⟩ :=
        inductionHypothesis kept
      · refine .inl ⟨?_, done⟩
        exact List.forall_mem_cons.mpr ⟨straight, others⟩
      · refine .inr ⟨(lender, text) :: before, other, written, after, chain, ?_, ?_, result⟩
        · rw [split, List.cons_append]
        · exact List.forall_mem_cons.mpr ⟨straight, earlier⟩

/-- The lending of a registry goes through when no lender lends in a circle, and otherwise fails at
the first one that does. Recording the targets that do not exist comes before the first turn; it
moves nothing and cannot fail. -/
theorem lend_members_cases (distinct : (registry.living Entity.order).Nodup) :
    ((¬∃ lender, InCircle registry.hops lender) ∧ registry.lendMembers.failure = none) ∨
      ∃ before lender text after chain, registry.lenders = before ++ (lender, text) :: after ∧
        (∀ entry ∈ before, ¬InCircle registry.hops entry.1) ∧
        InCircle registry.hops lender ∧ IsCircle registry.hops lender chain ∧
        registry.lendMembers.failure = some (.lendsCycle chain) := by
  have start : (registry.recordStrays.living Entity.order).Nodup :=
    Multiset.nodup_of_le ((record_strays_steps registry).living_le order_lasting) distinct
  refine (lend_all_cases registry.hops registry.lenders start).imp_left ?_
  rintro ⟨straight, done⟩
  refine ⟨?_, done⟩
  rintro ⟨lender, hop, held, closing⟩
  obtain ⟨text, listed, _⟩ := get?_hops_iff.mp held
  exact straight (lender, text) listed ⟨hop, held, closing⟩

/-- When the live entities of a registry stand at different places, lending always ends, and it ends
with a circle exactly when some lender lends in a circle. The fault then shows the circle of the
first such lender in registry order, and there is no other fault. When no lender lends in a circle,
every lender with a hop has a destination: the first rest of its walk.

Proof: the turns are taken one after the other, and whether one of them fails is read off the hops
alone. A lender in a circle has a hop and so takes a turn, at which the fault is found if not
before. The walk from a lender that is in no circle rests after at most as many steps as there are
hops, since it cannot pass a path twice. -/
theorem lending_stops_iff_in_circle (distinct : (registry.live.values.map Entity.order).Nodup) :
    ((∃ chain, registry.lendMembers.failure = some (.lendsCycle chain)) ↔
      ∃ lender, InCircle registry.hops lender) ∧
    (∀ fault, registry.lendMembers.failure = some fault →
      ∃ before lender text after chain, registry.lenders = before ++ (lender, text) :: after ∧
        (∀ entry ∈ before, ¬InCircle registry.hops entry.1) ∧
        InCircle registry.hops lender ∧ IsCircle registry.hops lender chain ∧
        fault = .lendsCycle chain) ∧
    ((¬∃ lender, InCircle registry.hops lender) →
      ∀ lender hop, registry.hops.get? lender = some hop →
        ∃ final last, destination registry.hops lender hop = .ok final ∧
          0 < last ∧ last ≤ registry.hops.size ∧ UnderWay registry.hops lender last ∧
          final.target = walk registry.hops lender last ∧
          Rests registry.hops final.target) := by
  refine ⟨?_, ?_, ?_⟩
  · obtain ⟨straight, done⟩ | ⟨_, lender, _, _, chain, _, _, circle, _, fails⟩ :=
      lend_members_cases (Multiset.coe_nodup.mpr distinct)
    · simp [done, straight]
    · exact iff_of_true ⟨chain, fails⟩ ⟨lender, circle⟩
  · intro fault failed
    obtain ⟨_, done⟩ | ⟨before, lender, text, after, chain, split, earlier, circle, shown, fails⟩ :=
      lend_members_cases (Multiset.coe_nodup.mpr distinct)
    · rw [done] at failed
      cases failed
    · rw [fails] at failed
      exact ⟨before, lender, text, after, chain, split, earlier, circle, shown,
        (Option.some.inj failed).symm⟩
  · intro straight lender hop held
    obtain ⟨circle, _⟩ | ⟨_, found⟩ := destination_cases held
    · exact absurd ⟨lender, circle⟩ straight
    · exact found

/-- A top-level path. -/
def topLevel (name : String) : NamePath := ⟨[⟨.static, name⟩]⟩

/-- Five lenders: one lends to itself, one to that one, and the third lends to two others that lend
to each other. The circle of the last two is found by a lender outside of it. -/
def circling : Registry :=
  let lender (name target : String) (sequence : UInt32) : Tree Draft :=
    .node { entity := { kind := .classEntity, name := name, order := { sequence := sequence } },
            directives := { lends := some target } } []
  (assign [[lender "Home" "Home.prototype" 0, lender "Guest" "Home" 1, lender "Lost" "Left" 2,
    lender "Left" "Right" 3, lender "Right" "Left#" 4]]).toOption.getD .empty

/-- The third lender of the example lends in a circle that does not lead back to it, and so lending
stops. Its walk runs into the circle and never rests, although it does not come back to where it
began. -/
theorem circling_stops :
    (circling.live.values.map Entity.order).Nodup ∧ InCircle circling.hops (topLevel "Lost") ∧
      ∃ chain, circling.lendMembers.failure = some (.lendsCycle chain) := by
  have distinct : (circling.live.values.map Entity.order).Nodup := by decide +kernel
  have outward : circling.hops.get? (topLevel "Lost") = some ⟨topLevel "Left", .static⟩ := by
    decide +kernel
  have forth : circling.hops.get? (topLevel "Left") = some ⟨topLevel "Right", .static⟩ := by
    decide +kernel
  have back : circling.hops.get? (topLevel "Right") = some ⟨topLevel "Left", .onInstance⟩ := by
    decide +kernel
  have first : walk circling.hops (topLevel "Lost") 1 = topLevel "Left" := onward_of_get? outward
  have second : walk circling.hops (topLevel "Lost") 2 = topLevel "Right" := by
    rw [walk_succ, first, onward_of_get? forth]
  have third : walk circling.hops (topLevel "Lost") 3 = topLevel "Left" := by
    rw [walk_succ, second, onward_of_get? back]
  have under : UnderWay circling.hops (topLevel "Lost") 3 := by
    intro passed positive before
    interval_cases passed
    · rw [first]
      exact fun rests => absurd (rests _ forth) (by decide)
    · rw [second]
      exact fun rests => absurd (rests _ back) (by decide)
  have circle : InCircle circling.hops (topLevel "Lost") :=
    ⟨_, outward, by decide, 3, by decide, under, .inl ⟨1, by decide, first.trans third.symm⟩⟩
  exact ⟨distinct, circle, (lending_stops_iff_in_circle distinct).1.mpr ⟨_, circle⟩⟩

end DocGraph.Registry
