import DocGraph.Proofs.Landing
import DocGraph.Proofs.Living
import DocGraph.Proofs.Naming
import DocGraph.Proofs.PathOrder

/-!
# The turns of a lending

Lenders take their turns one after the other, and what a turn does depends on what the turns before
it have left. A condition on turns is therefore a condition on a registry, a lender and the place to
which it lends, and it is asked of every turn in the registry that this turn finds. This is said
here once for any condition; it can be decided when the condition can, by taking the turns.

Where a lender lends is known before the first turn, since the hops are not changed by turns. It is
a target that is live then, it does not lie below the lender, and no member has to move on from it.

What a turn keeps when it meets a condition is kept by the whole lending when every turn meets it.
Two further facts are there for free: while members are lent no two live entities get the same place
in the source, and a turn is a sequence of elementary steps.
-/

namespace DocGraph.Registry

variable {registry : Registry} {hops : Table NamePath Hop} {lender : NamePath} {hop : Hop}
  {holds : Registry → NamePath → Hop → Prop}

/-- Where a lender finally lends, if it has a hop and does not lend in a circle. It can be computed,
and the relation `LendsTo` is what it computes. -/
def finalHop? (hops : Table NamePath Hop) (lender : NamePath) : Option Hop :=
  (hops.get? lender).bind fun hop => (destination hops lender hop).toOption

/-- Something holds of every one of some turns, each in the registry that the turns before it
leave. The turns of lenders that are not live any more do not count. -/
def EveryTurn (holds : Registry → NamePath → Hop → Prop) (hops : Table NamePath Hop) :
    Registry → List (NamePath × String) → Prop
  | _, [] => True
  | registry, (lender, text) :: rest =>
    (∀ final ∈ finalHop? hops lender, lender ∈ registry.live.keys → holds registry lender final) ∧
    EveryTurn holds hops (lend hops registry lender text).registry rest

/-- What can be decided of one turn is decided of several by taking them. The registry changes from
turn to turn, so the decision is made along the way. -/
def decideEveryTurn [∀ registry lender hop, Decidable (holds registry lender hop)]
    (hops : Table NamePath Hop) : ∀ (registry : Registry) (turns : List (NamePath × String)),
    Decidable (EveryTurn holds hops registry turns)
  | _, [] => .isTrue trivial
  | registry, (lender, text) :: rest =>
    haveI := decideEveryTurn hops (lend hops registry lender text).registry rest
    inferInstanceAs (Decidable (_ ∧ _))

instance [∀ registry lender hop, Decidable (holds registry lender hop)] (registry : Registry)
    (turns : List (NamePath × String)) : Decidable (EveryTurn holds hops registry turns) :=
  decideEveryTurn hops registry turns

/-! ## Where lenders lend -/

/-- A lender lends to its final hop. So what is proved of lendings holds of the turns that are
decided. -/
theorem mem_final_hop?_iff {final : Hop} :
    final ∈ finalHop? hops lender ↔ LendsTo hops lender final := by
  rw [Option.mem_def, finalHop?, Option.bind_eq_some_iff]
  refine exists_congr fun hop => and_congr_right fun _ => ?_
  cases destination hops lender hop <;> simp [Except.toOption]

/-- Hops that are followed do not lead below the lender. A hop below the lender is a fault where it
is followed, and this is checked at every hop. -/
theorem target_of_follow {chain : List NamePath} {final : Hop}
    (arrives : follow hops lender chain hop = .ok final) :
    final.target.isBelow lender = false := by
  fun_induction follow hops lender chain hop with
  | case1 chain hop closed => cases arrives
  | case2 chain hop opened missing =>
    cases arrives
    exact Bool.not_eq_true _ ▸ fun below => opened (.inr below)
  | case3 chain hop opened next found same =>
    cases arrives
    rw [same]
    exact Bool.not_eq_true _ ▸ fun below => opened (.inr below)
  | case4 chain hop opened next found differs shorter inductionHypothesis =>
    exact inductionHypothesis arrives

/-- No lender lends below itself. -/
theorem LendsTo.target {final : Hop} (lends : LendsTo hops lender final) :
    final.target.isBelow lender = false := by
  obtain ⟨hop, _, arrives⟩ := lends
  unfold destination at arrives
  split at arrives
  · next home =>
    cases arrives
    rw [home, NamePath.is_below_self]
  · exact target_of_follow arrives

/-- Where a lender finally lends is the hop of some lender.

Proof by induction on the hops that are followed: the last one is returned as it was looked up. -/
theorem LendsTo.exists_hop {final : Hop} (lends : LendsTo hops lender final) :
    ∃ path, hops.get? path = some final := by
  have followed (chain : List NamePath) (hop : Hop) (listed : ∃ path, hops.get? path = some hop)
      (arrives : follow hops lender chain hop = .ok final) :
      ∃ path, hops.get? path = some final := by
    fun_induction follow hops lender chain hop with
    | case1 chain hop closed => cases arrives
    | case2 chain hop opened missing =>
      cases arrives
      exact listed
    | case3 chain hop opened next found same =>
      cases arrives
      exact ⟨_, found⟩
    | case4 chain hop opened next found differs shorter inductionHypothesis =>
      exact inductionHypothesis ⟨_, found⟩ arrives
  obtain ⟨hop, held, arrives⟩ := lends
  unfold destination at arrives
  split at arrives
  · cases arrives
    exact ⟨lender, held⟩
  · exact followed _ _ ⟨lender, held⟩ arrives

/-- What lenders lend to is live when the hops are resolved. Targets that do not exist have no
hop. -/
theorem LendsTo.mem_keys {final : Hop} (lends : LendsTo registry.hops lender final) :
    final.target ∈ registry.live.keys := by
  obtain ⟨path, held⟩ := lends.exists_hop
  obtain ⟨text, _, resolved⟩ := get?_hops_iff.mp held
  unfold hop? at resolved
  dsimp only at resolved
  obtain ⟨target, means, rfl⟩ := Option.map_eq_some_iff.mp resolved
  exact ((Reference.resolve?_eq_some_iff (Table.keys_nodup _)).mp means).mem

/-- The members of a lender come to rest where it lends. -/
theorem LendsTo.rests {final : Hop} (lends : LendsTo hops lender final) :
    Rests hops final.target := by
  obtain ⟨hop, held, arrives⟩ := lends
  obtain ⟨_, _, _, stopped⟩ | ⟨_, _, _, arrived, _, _, _, _, rests⟩ := destination_cases held
  · rw [arrives] at stopped
    cases stopped
  · rw [arrives] at arrived
    cases arrived
    exact rests

/-! ## What every turn keeps -/

section Keeping

variable {motive : Registry → Prop}

/-- What a turn keeps when a condition holds of it is kept by all turns when the condition holds of
every one. The proof of the step may use that the turn is a sequence of elementary steps, which is
how invariants of the registry are carried along, and that the live entities stand at different
places before it.

Proof: induction on the turns. Both further facts hold for the rest because live entities are never
added. A turn in which nothing happens leaves the registry as it is and is not asked about. -/
theorem EveryTurn.keeps
    (kept : ∀ {before lender final text}, LendsTo hops lender final → holds before lender final →
      (before.living Entity.order).Nodup →
      Steps before ((before.moveMembers lender final).registry.retire lender final.target text) →
      motive before →
      motive ((before.moveMembers lender final).registry.retire lender final.target text))
    {turns : List (NamePath × String)} (every : EveryTurn holds hops registry turns)
    (distinct : (registry.living Entity.order).Nodup)
    (finished : (lendAll hops registry turns).failure = none) (begins : motive registry) :
    motive (lendAll hops registry turns).registry := by
  induction turns generalizing registry with
  | nil => exact begins
  | cons turn rest inductionHypothesis =>
    obtain ⟨lender, text⟩ := turn
    obtain ⟨first, others⟩ := every
    have done := lend_of_lend_all finished
    have fewer := Multiset.nodup_of_le ((lend_steps done).living_le order_lasting) distinct
    rw [lend_all_cons done] at finished ⊢
    refine inductionHypothesis others fewer finished ?_
    obtain ⟨_, same⟩ | ⟨final, lends, live, moves, result⟩ := lend_turn done
    · rwa [same]
    · rw [result]
      have steps := (move_members_steps moves).trans (retire_steps _ lender final.target text)
      exact kept lends (first final (mem_final_hop?_iff.mpr lends) live) distinct steps begins

/-- What every turn keeps is kept by the whole lending of a registry, which begins when the targets
that do not exist have been recorded. Recording strays only adds relations, so the entities are
still at different places. -/
theorem EveryTurn.keeps_in_lending
    (kept : ∀ {before lender final text}, LendsTo registry.hops lender final →
      holds before lender final → (before.living Entity.order).Nodup →
      Steps before ((before.moveMembers lender final).registry.retire lender final.target text) →
      motive before →
      motive ((before.moveMembers lender final).registry.retire lender final.target text))
    (every : EveryTurn holds registry.hops registry.recordStrays registry.lenders)
    (distinct : (registry.living Entity.order).Nodup)
    (finished : registry.lendMembers.failure = none) (begins : motive registry.recordStrays) :
    motive registry.lendMembers.registry :=
  have fewer := Multiset.nodup_of_le (registry.record_strays_steps.living_le order_lasting) distinct
  every.keeps kept fewer finished begins

end Keeping

end DocGraph.Registry
