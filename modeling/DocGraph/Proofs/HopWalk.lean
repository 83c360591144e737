import DocGraph.Proofs.Table
import DocGraph.Registry.Lends

/-!
# Walks along hops

From a lender one hop leads to its target, from there perhaps another hop to the next one. A walk
rests at a path without a hop, and at a path whose hop leads back to itself. It is under way as long
as it has not rested, the start apart: a lender always leaves home first.

A walk closes when it comes back to any path that it has passed, not only to its start, or when it
enters the part of the tree below its start. A lender whose walk closes at or before its first rest
lends in a circle. Following hops finds that out: the search ends either with the walk as far as it
closed, or at the path where it rests. It passes no path twice before that, so it takes no more hops
than there are lenders.

Nothing is said here about what is moved along a walk.

The search keeps the chain of paths that it has passed. The one invariant is that this chain is the
walk up to the present hop, that the walk is under way, and that it has not closed yet; from it each
of the two ways to end is described.
-/

namespace DocGraph.Registry

/-- Where a path leads in one hop. A path without a hop leads to itself. It is total, so that a walk
can be iterated without asking whether there is a hop. -/
def onward (hops : Table NamePath Hop) (path : NamePath) : NamePath :=
  ((hops.get? path).map Hop.target).getD path

/-- The path that a walk has come to after some hops. -/
def walk (hops : Table NamePath Hop) (start : NamePath) (count : Nat) : NamePath :=
  (onward hops)^[count] start

/-- A path where walks rest: it has no hop, or only one to itself. -/
def Rests (hops : Table NamePath Hop) (path : NamePath) : Prop :=
  ∀ hop, hops.get? path = some hop → hop.target = path

/-- A walk is under way up to a hop when it rests nowhere between its start and there. The start is
left out because the search does not look at it before the first hop, and the end because the walk
may rest there. -/
def UnderWay (hops : Table NamePath Hop) (start : NamePath) (count : Nat) : Prop :=
  ∀ passed, 0 < passed → passed < count → ¬Rests hops (walk hops start passed)

/-- A walk closes when it comes to a path that it has passed or to one below its start. A member of
the lender would be moved below itself, so entering the subtree of the start counts, too. -/
def Closes (hops : Table NamePath Hop) (start : NamePath) (count : Nat) : Prop :=
  (∃ passed < count, walk hops start passed = walk hops start count) ∨
    (walk hops start count).isBelow start = true

/-- A lender lends in a circle when it does not lend to itself and its walk closes before it rests
or where it rests. A lender that lends to itself is excluded. Its hop only changes how its members
are bound. -/
def InCircle (hops : Table NamePath Hop) (lender : NamePath) : Prop :=
  ∃ hop, hops.get? lender = some hop ∧ hop.target ≠ lender ∧
    ∃ count, 0 < count ∧ UnderWay hops lender count ∧ Closes hops lender count

/-- One path leads to another when its hop has the other as target. -/
def LeadsTo (hops : Table NamePath Hop) (origin target : NamePath) : Prop :=
  ∃ hop, hops.get? origin = some hop ∧ hop.target = target

/-- A chain that shows that a lender lends in a circle: it starts at the lender, each path leads to
the next one, the last path is a repetition or lies below the lender, and there is at most one path
more than there are hops. It is a certificate: whoever is shown such a chain can check it against
the hops. -/
structure IsCircle (hops : Table NamePath Hop) (lender : NamePath) (chain : List NamePath) :
    Prop where
  starts : chain.head? = some lender
  linked : chain.IsChain (LeadsTo hops)
  closes : ∃ passed last, chain = passed ++ [last] ∧
    (last ∈ passed ∨ last.isBelow lender = true)
  short : chain.length ≤ hops.size + 1

/-- The paths that a walk has passed before a hop. -/
def passedBefore (hops : Table NamePath Hop) (start : NamePath) (count : Nat) : List NamePath :=
  (List.range count).map (walk hops start)

variable {hops : Table NamePath Hop} {start : NamePath} {count : Nat}

/-- A walk goes on by one hop. -/
theorem walk_succ : walk hops start (count + 1) = onward hops (walk hops start count) :=
  Function.iterate_succ_apply' _ _ _

/-- A hop leads onward to its target. -/
theorem onward_of_get? {path : NamePath} {hop : Hop} (held : hops.get? path = some hop) :
    onward hops path = hop.target := by
  simp [onward, held]

/-- A path where walks do not rest leads onward by a hop. -/
theorem leads_to_onward {path : NamePath} (moves : ¬Rests hops path) :
    LeadsTo hops path (onward hops path) := by
  simp only [Rests, not_forall] at moves
  obtain ⟨hop, held, _⟩ := moves
  exact ⟨hop, held, (onward_of_get? held).symm⟩

/-- The passed paths are listed one by one. -/
theorem passed_before_succ :
    passedBefore hops start (count + 1) =
      passedBefore hops start count ++ [walk hops start count] := by
  simp [passedBefore, List.range_succ]

/-- The passed paths are those of fewer hops. -/
theorem mem_passed_before {path : NamePath} :
    path ∈ passedBefore hops start count ↔ ∃ passed < count, walk hops start passed = path := by
  simp [passedBefore]

/-- A walk that leaves home and is under way has a hop at every path that it has passed. At the
start it has the hop of the lender, and later it does not rest. -/
theorem leads_to_of_under_way (leaves : ∃ target, LeadsTo hops start target)
    (under : UnderWay hops start count) {passed : Nat} (before : passed < count) :
    LeadsTo hops (walk hops start passed) (walk hops start (passed + 1)) := by
  rw [walk_succ]
  cases passed with
  | zero =>
    obtain ⟨target, hop, held, _⟩ := leaves
    exact ⟨hop, held, (onward_of_get? held).symm⟩
  | succ earlier => exact leads_to_onward (under (earlier + 1) (Nat.succ_pos earlier) before)

/-- Before it closes, a walk that leaves home and is under way takes no more hops than there are: it
passes different paths, and each of them has a hop. The passed paths are distinct because the walk
has not closed, and there are no more keys than hops. -/
theorem count_le_size (leaves : ∃ target, LeadsTo hops start target)
    (under : UnderWay hops start count)
    (opens : ∀ earlier, 0 < earlier → earlier < count → ¬Closes hops start earlier) :
    count ≤ hops.size := by
  have held : passedBefore hops start count ⊆ hops.keys := by
    intro path listed
    obtain ⟨passed, before, rfl⟩ := mem_passed_before.mp listed
    obtain ⟨hop, found, _⟩ := leads_to_of_under_way leaves under before
    exact Table.mem_keys_of_get? found
  have differ : ∀ first second, first < second → second < count →
      walk hops start first ≠ walk hops start second := by
    intro first second before bounded same
    exact opens second (Nat.zero_lt_of_lt before) bounded (.inl ⟨first, before, same⟩)
  have distinct : (passedBefore hops start count).Nodup := by
    refine List.Nodup.map_on ?_ List.nodup_range
    intro first inFirst second inSecond same
    rcases Nat.lt_trichotomy first second with before | equal | after
    · exact absurd same (differ first second before (List.mem_range.mp inSecond))
    · exact equal
    · exact absurd same.symm (differ second first after (List.mem_range.mp inFirst))
  have fits := (List.subperm_of_subset distinct held).length_le
  rwa [passedBefore, List.length_map, List.length_range, Table.length_keys] at fits

/-- A walk that leaves home is a circle when it closes while it is under way, and has not closed
earlier. The repetition or the path below the start is the last of the chain. -/
theorem is_circle_passed_before (leaves : ∃ target, LeadsTo hops start target)
    (under : UnderWay hops start count)
    (opens : ∀ earlier, 0 < earlier → earlier < count → ¬Closes hops start earlier)
    (closes : Closes hops start count) :
    IsCircle hops start (passedBefore hops start (count + 1)) := by
  refine ⟨?_, ?_, ?_, ?_⟩
  · simp [passedBefore, List.range_succ_eq_map, walk]
  · rw [passedBefore, List.isChain_map, List.isChain_range_succ]
    intro passed before
    exact leads_to_of_under_way leaves under before
  · refine ⟨passedBefore hops start count, walk hops start count, passed_before_succ, ?_⟩
    rw [mem_passed_before]
    exact closes
  · have fits := count_le_size leaves under opens
    simpa [passedBefore] using fits

/-- What following hops from a path of a walk comes to, when the walk is under way there and has not
closed before: either the walk closes at some later hop, and the fault lists it as far as that; or
it comes to rest without having closed.

Proof: induction along the search. If the target is in the chain or below the start, the walk closes
here. If it has no further hop, or one to itself, it rests here. Otherwise the chain is extended by
the target, and the invariant holds for one hop more. -/
theorem follow_cases {chain : List NamePath} {hop : Hop}
    (listed : chain = passedBefore hops start count) (here : hop.target = walk hops start count)
    (under : UnderWay hops start count)
    (opens : ∀ earlier, 0 < earlier → earlier < count → ¬Closes hops start earlier) :
    ∃ last, count ≤ last ∧ UnderWay hops start last ∧
      (∀ earlier, 0 < earlier → earlier < last → ¬Closes hops start earlier) ∧
      (Closes hops start last ∧
          follow hops start chain hop =
            .error (.lendsCycle (passedBefore hops start (last + 1))) ∨
        ¬Closes hops start last ∧
          ∃ final, follow hops start chain hop = .ok final ∧
            final.target = walk hops start last ∧ Rests hops final.target) := by
  have closesHere : (hop.target ∈ chain ∨ hop.target.isBelow start = true) ↔
      Closes hops start count := by
    rw [listed, here, mem_passed_before, Closes]
  fun_induction follow hops start chain hop generalizing count with
  | case1 chain hop closed =>
    refine ⟨count, le_rfl, under, opens, .inl ⟨closesHere.mp closed, ?_⟩⟩
    rw [passed_before_succ, ← listed, ← here]
  | case2 chain hop opened missing =>
    refine ⟨count, le_rfl, under, opens, .inr ⟨mt closesHere.mpr opened, hop, rfl, here, ?_⟩⟩
    intro next found
    rw [missing] at found
    cases found
  | case3 chain hop opened next found same =>
    refine ⟨count, le_rfl, under, opens, .inr ⟨mt closesHere.mpr opened, next, rfl, ?_, ?_⟩⟩
    · rw [same, here]
    · intro again foundAgain
      rw [same, found] at foundAgain
      cases foundAgain
      rfl
  | case4 chain hop opened next found differs shorter inductionHypothesis =>
    have moves : ¬Rests hops (walk hops start count) := by
      intro rests
      rw [here] at found differs
      exact differs (rests next found)
    have arrives : next.target = walk hops start (count + 1) := by
      rw [walk_succ, ← here, onward_of_get? found]
    have goesOn : UnderWay hops start (count + 1) := by
      intro passed positive before
      rcases Nat.lt_succ_iff_lt_or_eq.mp before with earlier | rfl
      · exact under passed positive earlier
      · exact moves
    have stillOpen : ∀ earlier, 0 < earlier → earlier < count + 1 →
        ¬Closes hops start earlier := by
      intro earlier positive before
      rcases Nat.lt_succ_iff_lt_or_eq.mp before with older | rfl
      · exact opens earlier positive older
      · exact mt closesHere.mpr opened
    have extended : chain ++ [hop.target] = passedBefore hops start (count + 1) := by
      rw [passed_before_succ, listed, here]
    have closesNext : (next.target ∈ chain ++ [hop.target] ∨ next.target.isBelow start = true) ↔
        Closes hops start (count + 1) := by
      rw [extended, arrives, mem_passed_before, Closes]
    obtain ⟨last, further, result⟩ :=
      inductionHypothesis extended arrives goesOn stillOpen closesNext
    exact ⟨last, Nat.le_of_succ_le further, result⟩

/-- A walk rests only once: what it passes under way lies before any rest. It tells apart a circle
and a rest: a walk that closes while it is under way does so at its first rest or before. -/
theorem le_of_under_way {last : Nat} (positive : 0 < last)
    (rests : Rests hops (walk hops start last)) (under : UnderWay hops start count) :
    count ≤ last := by
  by_contra later
  exact under last positive (Nat.lt_of_not_le later) rests

/-- Every lender either lends in a circle, and then its destination is a fault that shows the
circle; or it does not, and then its destination is the first rest of its walk, at most as many hops
away as there are lenders.

Proof: a lender that lends to itself rests at once and is in no circle. Every other one starts the
search with the invariant at the first hop. If the walk closes, the chain is a circle; if it rests
without having closed, any circle would have to close at or before that rest, and it has not. -/
theorem destination_cases {lender : NamePath} {hop : Hop}
    (held : hops.get? lender = some hop) :
    (InCircle hops lender ∧ ∃ chain, IsCircle hops lender chain ∧
        destination hops lender hop = .error (.lendsCycle chain)) ∨
      ¬InCircle hops lender ∧ ∃ final last, destination hops lender hop = .ok final ∧
        0 < last ∧ last ≤ hops.size ∧ UnderWay hops lender last ∧
        final.target = walk hops lender last ∧ Rests hops final.target := by
  have leaves : ∃ target, LeadsTo hops lender target := ⟨hop.target, hop, held, rfl⟩
  have first : hop.target = walk hops lender 1 := (onward_of_get? held).symm
  have underFirst : UnderWay hops lender 1 := by
    intro passed positive before
    omega
  have opensFirst : ∀ earlier, 0 < earlier → earlier < 1 → ¬Closes hops lender earlier := by
    intro earlier positive before
    omega
  by_cases home : hop.target = lender
  · have stays : Rests hops hop.target := by
      intro again found
      rw [home, held] at found
      cases found
      rfl
    refine .inr ⟨?_, hop, 1, by rw [destination, if_pos home], Nat.one_pos,
      count_le_size leaves underFirst opensFirst, underFirst, first, stays⟩
    rintro ⟨other, found, away, _⟩
    rw [held] at found
    cases found
    exact away home
  · have started : [lender] = passedBefore hops lender 1 := rfl
    obtain ⟨last, further, under, opens, closed | rested⟩ :=
      follow_cases started first underFirst opensFirst
    · obtain ⟨closes, fault⟩ := closed
      refine .inl ⟨⟨hop, held, home, last, further, under, closes⟩,
        passedBefore hops lender (last + 1), is_circle_passed_before leaves under opens closes, ?_⟩
      rw [destination, if_neg home, fault]
    · obtain ⟨stillOpen, final, found, arrives, rests⟩ := rested
      refine .inr ⟨?_, final, last, by rw [destination, if_neg home, found], further,
        count_le_size leaves under opens, under, arrives, rests⟩
      rintro ⟨_, _, _, count, positive, goes, closes⟩
      rw [arrives] at rests
      rcases Nat.lt_or_eq_of_le (le_of_under_way further rests goes) with before | rfl
      · exact opens count positive before closes
      · exact stillOpen closes

end DocGraph.Registry
