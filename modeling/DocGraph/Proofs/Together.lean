import DocGraph.Proofs.Moving

/-!
# When a move keeps subtrees together

A member that is lent should arrive where its container arrives, and be superseded when its
container is. The moves do not see to this directly. They go by paths: which paths are lost, which
are taken over, which are still to come. As long as every path stands for one entity the outcome is
the same. It is not when two members are sent to one path, when a member is moved before its
container, or when a member is sent to a path that lies in the lender's own part.

The ways in which a member can be separated from its containers are listed here. All of them involve
a contested member, one that may find its new path held, or a member that is moved twice. The main
statement says that there are no others: a member that is not lost alone arrives when all members
above it do, and a member that is not left behind is superseded when one above it is.

Each half of the main statement follows one member through the moves, by an invariant with one case
for each state of affairs: the member and the one above it may wait, have arrived, or be gone. A
step of the moves leads from case to case, and the few steps that would break the invariant are the
listed ways.
-/

namespace DocGraph.Registry

variable {registry : Registry} {lender member above : NamePath} {hop : Hop}
  {owner chief : SourceOrder}

/-- No other entity is live at the path to which a member is sent, or is sent there. It rules out
that the member itself is contested, not that others are. -/
def AloneAt (registry : Registry) (lender : NamePath) (hop : Hop) (member : NamePath) : Prop :=
  ∀ other ∈ registry.live.keys, other = relocate member lender hop ∨
    (other.isBelow lender = true ∧ relocate other lender hop = relocate member lender hop) →
    other = member

instance (registry : Registry) (lender : NamePath) (hop : Hop) (member : NamePath) :
    Decidable (registry.AloneAt lender hop member) :=
  inferInstanceAs (Decidable (∀ other ∈ registry.live.keys, _ → _))

/-- Every member above a given one is live at its own new path when the members of the lender were
moved. It is a premise on the outcome, since what is above may be refused for reasons of its own. -/
def ArriveAbove (registry : Registry) (lender : NamePath) (hop : Hop) (member : NamePath) : Prop :=
  ∀ above chief, registry.LiveAt above chief → above.isBelow lender = true →
    member.isBelow above = true →
    (registry.moveMembers lender hop).registry.LiveAt (relocate above lender hop) chief

instance (registry : Registry) (lender : NamePath) (hop : Hop) (member : NamePath) :
    Decidable (registry.ArriveAbove lender hop member) :=
  decidable_of_iff (∀ row ∈ registry.live.entries, row.1.isBelow lender = true →
      member.isBelow row.1 = true → (registry.moveMembers lender hop).registry.LiveAt
        (relocate row.1 lender hop) row.2.order) <| by
    constructor
    · rintro arrive above _ ⟨entity, found, rfl⟩
      exact arrive (above, entity) (Table.get?_eq_some_iff.mp found)
    · rintro arrive ⟨above, entity⟩ entry
      exact arrive above entity.order ⟨entity, Table.get?_eq_some_iff.mpr entry, rfl⟩

/-- A member is moved on from its new path, because that is listed among the old ones, too. In a
lending this takes a target above the lender, so that the new path of one member can be the old path
of another. -/
def MovedTwice (registry : Registry) (lender : NamePath) (hop : Hop) (member : NamePath) : Prop :=
  relocate member lender hop ∈ registry.membersBelow lender ∧
    registry.MovesBefore lender member (relocate member lender hop) ∧
    relocate (relocate member lender hop) lender hop ≠ relocate member lender hop

instance (registry : Registry) (lender : NamePath) (hop : Hop) (member : NamePath) :
    Decidable (registry.MovedTwice lender hop member) :=
  inferInstanceAs (Decidable (_ ∧ _ ∧ _))

/-- The ways in which a member can be lost though all members above it arrive. A contested member
that is moved before, and is not above it, may be refused, and then what belongs below the refused
path is superseded. One that is moved later may take a path over in which the member stands by then.
And one that is moved before may take over a path in which the member still waits. Each way needs a
contested member besides the given one. -/
inductive LostAlone (registry : Registry) (lender : NamePath) (hop : Hop) (member : NamePath) :
    Prop where
  | misjudged {other : NamePath} (contested : registry.Contested lender hop other)
      (earlier : registry.MovesBefore lender other member)
      (apart : member.isBelow other = false)
      (below : (relocate member lender hop).isBelow (relocate other lender hop) = true)
  | overrun {other : NamePath} (contested : registry.Contested lender hop other)
      (later : registry.MovesBefore lender member other)
      (below : (relocate member lender hop).isBelow (relocate other lender hop) = true)
  | overtaken {other : NamePath} (contested : registry.Contested lender hop other)
      (earlier : registry.MovesBefore lender other member)
      (within : isWithin (relocate other lender hop) member = true)

/-- The ways in which a member can end up live though nothing is live above it. The member may be
moved before the one above, which is then superseded at its old path or below a lost one. It may be
moved after another one took over a path in which the one above had arrived. And one of the two may
be moved on from its new path, or be superseded because its new path is listed. The first two ways
differ in which of the two is moved first. -/
inductive Bereft (registry : Registry) (lender : NamePath) (hop : Hop)
    (above member : NamePath) : Prop where
  | ahead {other : NamePath} (contested : registry.Contested lender hop other)
      (first : registry.MovesBefore lender member above)
      (earlier : registry.MovesBefore lender other above)
      (within : isWithin (relocate other lender hop) above = true ∨
        (relocate above lender hop).isBelow (relocate other lender hop) = true)
  | behind {other : NamePath} (contested : registry.Contested lender hop other)
      (later : registry.MovesBefore lender above other)
      (earlier : registry.MovesBefore lender other member)
      (below : (relocate above lender hop).isBelow (relocate other lender hop) = true)
  | again {moved : NamePath} (either : moved = above ∨ moved = member)
      (twice : registry.MovedTwice lender hop moved)
  | revisited {other : NamePath} (contested : registry.Contested lender hop other)
      (listed : relocate above lender hop ∈ registry.membersBelow lender)
      (later : registry.MovesBefore lender member (relocate above lender hop))
      (below : (relocate above lender hop).isBelow (relocate other lender hop) = true)

/-- The ways in which a member can end up below another entity than the one above it. That one may
be refused at its new path after the member arrived below. Or another member may take its new path
over before the member arrives. The member is then placed below an entity that it was never declared
in. -/
inductive Usurped (registry : Registry) (lender : NamePath) (hop : Hop)
    (above member : NamePath) : Prop where
  | refused (contested : registry.Contested lender hop above)
      (first : registry.MovesBefore lender member above)
  | replaced {other : NamePath} (contested : registry.Contested lender hop other)
      (later : registry.MovesBefore lender above other)
      (earlier : registry.MovesBefore lender other member)
      (same : relocate other lender hop = relocate above lender hop)

/-- The ways in which a member can stay live though one above it is superseded. The two are kept
apart because in the one case nothing is left above, and in the other case something else is. -/
def LeftBehind (registry : Registry) (lender : NamePath) (hop : Hop)
    (above member : NamePath) : Prop :=
  registry.Bereft lender hop above member ∨ registry.Usurped lender hop above member

/-- Whether a member can be lost alone is found out by going through the members. The contested
member is one of those below the lender, so there are finitely many to try. -/
theorem lost_alone_iff : registry.LostAlone lender hop member ↔
    ∃ other ∈ registry.membersBelow lender, registry.Contested lender hop other ∧
      (registry.MovesBefore lender other member ∧ member.isBelow other = false ∧
          (relocate member lender hop).isBelow (relocate other lender hop) = true ∨
        registry.MovesBefore lender member other ∧
          (relocate member lender hop).isBelow (relocate other lender hop) = true ∨
        registry.MovesBefore lender other member ∧
          isWithin (relocate other lender hop) member = true) := by
  constructor
  · rintro (⟨contested, earlier, apart, below⟩ | ⟨contested, later, below⟩ |
      ⟨contested, earlier, within⟩)
    · exact ⟨_, contested.1, contested, .inl ⟨earlier, apart, below⟩⟩
    · exact ⟨_, contested.1, contested, .inr (.inl ⟨later, below⟩)⟩
    · exact ⟨_, contested.1, contested, .inr (.inr ⟨earlier, within⟩)⟩
  · rintro ⟨_, _, contested, ⟨earlier, apart, below⟩ | ⟨later, below⟩ | ⟨earlier, within⟩⟩
    · exact .misjudged contested earlier apart below
    · exact .overrun contested later below
    · exact .overtaken contested earlier within

instance (registry : Registry) (lender : NamePath) (hop : Hop) (member : NamePath) :
    Decidable (registry.LostAlone lender hop member) :=
  decidable_of_iff _ lost_alone_iff.symm

/-- Whether a member can be left with nothing above it is found out in the same way. -/
theorem bereft_iff : registry.Bereft lender hop above member ↔
    (registry.MovedTwice lender hop above ∨ registry.MovedTwice lender hop member) ∨
    ∃ other ∈ registry.membersBelow lender, registry.Contested lender hop other ∧
      (registry.MovesBefore lender member above ∧ registry.MovesBefore lender other above ∧
          (isWithin (relocate other lender hop) above = true ∨
            (relocate above lender hop).isBelow (relocate other lender hop) = true) ∨
        registry.MovesBefore lender above other ∧ registry.MovesBefore lender other member ∧
          (relocate above lender hop).isBelow (relocate other lender hop) = true ∨
        relocate above lender hop ∈ registry.membersBelow lender ∧
          registry.MovesBefore lender member (relocate above lender hop) ∧
          (relocate above lender hop).isBelow (relocate other lender hop) = true) := by
  constructor
  · rintro (⟨contested, first, earlier, within⟩ | ⟨contested, later, earlier, below⟩ |
      ⟨rfl | rfl, twice⟩ | ⟨contested, listed, later, below⟩)
    · exact .inr ⟨_, contested.1, contested, .inl ⟨first, earlier, within⟩⟩
    · exact .inr ⟨_, contested.1, contested, .inr (.inl ⟨later, earlier, below⟩)⟩
    · exact .inl (.inl twice)
    · exact .inl (.inr twice)
    · exact .inr ⟨_, contested.1, contested, .inr (.inr ⟨listed, later, below⟩)⟩
  · rintro ((twice | twice) | ⟨_, _, contested, ⟨first, earlier, within⟩ |
      ⟨later, earlier, below⟩ | ⟨listed, later, below⟩⟩)
    · exact .again (.inl rfl) twice
    · exact .again (.inr rfl) twice
    · exact .ahead contested first earlier within
    · exact .behind contested later earlier below
    · exact .revisited contested listed later below

instance (registry : Registry) (lender : NamePath) (hop : Hop) (above member : NamePath) :
    Decidable (registry.Bereft lender hop above member) :=
  decidable_of_iff _ bereft_iff.symm

/-- Whether a member can be left with another entity above it is found out so, too. -/
theorem usurped_iff : registry.Usurped lender hop above member ↔
    registry.Contested lender hop above ∧ registry.MovesBefore lender member above ∨
    ∃ other ∈ registry.membersBelow lender, registry.Contested lender hop other ∧
      registry.MovesBefore lender above other ∧ registry.MovesBefore lender other member ∧
      relocate other lender hop = relocate above lender hop := by
  constructor
  · rintro (⟨contested, first⟩ | ⟨contested, later, earlier, same⟩)
    · exact .inl ⟨contested, first⟩
    · exact .inr ⟨_, contested.1, contested, later, earlier, same⟩
  · rintro (⟨contested, first⟩ | ⟨_, _, contested, later, earlier, same⟩)
    · exact .refused contested first
    · exact .replaced contested later earlier same

instance (registry : Registry) (lender : NamePath) (hop : Hop) (above member : NamePath) :
    Decidable (registry.Usurped lender hop above member) :=
  decidable_of_iff _ usurped_iff.symm

instance (registry : Registry) (lender : NamePath) (hop : Hop) (above member : NamePath) :
    Decidable (registry.LeftBehind lender hop above member) :=
  inferInstanceAs (Decidable (_ ∨ _))

/-- A member that is alone at its new path is not contested. -/
theorem AloneAt.not_contested (alone : registry.AloneAt lender hop member) :
    ¬registry.Contested lender hop member := by
  rintro ⟨_, ⟨live, apart, _⟩ | ⟨other, listed, earlier, same⟩⟩
  · exact apart (alone _ live (.inl rfl))
  · obtain ⟨live, below⟩ := mem_members_below.mp listed
    obtain rfl := alone other live (.inr ⟨below, same⟩)
    exact Nat.lt_irrefl _ earlier

section Moves

variable {start current next : Registry} {old : NamePath}
  {front rest lost known : List NamePath}

/-- Something that stands above a member and is superseded. What stands above is told by its place,
since it may have been moved. -/
def ChiefGone (start : Registry) (lender member : NamePath) (current : Registry) : Prop :=
  ∃ above chief, start.LiveAt above chief ∧ above.isBelow lender = true ∧
    member.isBelow above = true ∧ chief ∉ current.living Entity.order

/-- How a member that is not lost alone fares while the members are moved. It waits, or it has
arrived, or one above it is not live any more. The third case is final, and it is excluded at the
end by the premise on those above. -/
inductive Fares (start : Registry) (lender : NamePath) (hop : Hop) (member : NamePath)
    (owner : SourceOrder) (front rest : List NamePath) (current : Registry) : Prop where
  | waits (listed : member ∈ rest) (stands : current.LiveAt member owner)
  | arrived (passed : member ∈ front)
      (stands : current.LiveAt (relocate member lender hop) owner)
  | orphaned (gone : ChiefGone start lender member current)

/-- A member that waits and is not lost alone waits on, arrives, or loses one above it. Only another
path that is taken over can keep the member from waiting on; when its own turn comes it is moved
unless its new path lies below a lost one. -/
theorem fares_of_waits (kept : ¬start.LostAlone lender hop member)
    (alone : start.AloneAt lender hop member)
    (underway : Underway start lender hop front (old :: rest) lost current)
    (carried : Carried lender hop lost old current next known)
    (listed : member ∈ old :: rest) (stands : current.LiveAt member owner) :
    Fares start lender hop member owner (front ++ [old]) rest next := by
  cases carried.fate underway.distinct stands with
  | stays apart stands => exact .waits ((List.mem_cons.mp listed).resolve_left apart) stands
  | arrives here _ stands =>
    exact .arrived (List.mem_append_right _ (List.mem_singleton.mpr here)) (here ▸ stands)
  | displaced here below _ =>
    subst here
    obtain ⟨path, lostPath, deeper⟩ := List.any_eq_true.mp below
    obtain ⟨other, moved, rfl, contested, gone⟩ := underway.judged path lostPath
    have earlier := underway.comes_after moved
    cases apart : member.isBelow other with
    | false => exact absurd (.misjudged contested earlier apart deeper) kept
    | true =>
      obtain ⟨live, inside⟩ := mem_members_below.mp earlier.mem
      obtain ⟨chief, stood⟩ := live_at_of_mem_keys live
      exact .orphaned ⟨other, chief, stood, inside, apart,
        underway.gone carried (gone chief stood)⟩
  | refused here _ held _ _ =>
    subst here
    exact absurd (underway.contested held) alone.not_contested
  | swept apart within sweeps _ =>
    have waiting := (List.mem_cons.mp listed).resolve_left apart
    have earlier := underway.comes_before waiting
    exact absurd (.overtaken (underway.contested sweeps.held) earlier within) kept

/-- A member that has arrived alone and is not lost alone stays. It could be swept by a later member
only, and this is one of the listed ways. -/
theorem fares_of_arrived (kept : ¬start.LostAlone lender hop member)
    (alone : start.AloneAt lender hop member)
    (underway : Underway start lender hop front (old :: rest) lost current)
    (carried : Carried lender hop lost old current next known)
    (passed : member ∈ front) (stands : current.LiveAt (relocate member lender hop) owner) :
    Fares start lender hop member owner (front ++ [old]) rest next := by
  have later := underway.comes_after passed
  obtain ⟨live, below⟩ := mem_members_below.mp underway.listed
  have apart (same : old = member) : False := by
    subst same
    exact Nat.lt_irrefl _ later
  have elsewhere (here : relocate member lender hop = old) : False :=
    apart (alone old live (.inl here.symm))
  cases carried.fate underway.distinct stands with
  | stays _ stands => exact .arrived (List.mem_append_left _ passed) stands
  | arrives here _ _ => exact (elsewhere here).elim
  | displaced here _ _ => exact (elsewhere here).elim
  | refused here _ _ _ _ => exact (elsewhere here).elim
  | swept _ within sweeps _ =>
    rw [isWithin, Bool.or_eq_true, decide_eq_true_eq] at within
    obtain same | deeper := within
    · exact (apart (alone old live (.inr ⟨below, same.symm⟩))).elim
    · exact absurd (.overrun (underway.contested sweeps.held) later deeper) kept

/-- A member that is alone at its new path and not lost alone arrives there when all members above
it arrive.

Proof by the invariant of the moves: at first the member waits, every step leads to one of the cases
again, and in the end it does not wait any more. -/
theorem arrives_of_not_lost_alone (distinct : (start.living Entity.order).Nodup)
    (below : member.isBelow lender = true) (stood : start.LiveAt member owner)
    (kept : ¬start.LostAlone lender hop member) (alone : start.AloneAt lender hop member)
    (arrive : start.ArriveAbove lender hop member) :
    (start.moveMembers lender hop).registry.LiveAt (relocate member lender hop) owner := by
  have step {front rest lost known : List NamePath} {old : NamePath} {current next : Registry}
      (underway : Underway start lender hop front (old :: rest) lost current)
      (carried : Carried lender hop lost old current next known)
      (fares : Fares start lender hop member owner front (old :: rest) current) :
      Fares start lender hop member owner (front ++ [old]) rest next := by
    cases fares with
    | waits listed stands => exact fares_of_waits kept alone underway carried listed stands
    | arrived passed stands => exact fares_of_arrived kept alone underway carried passed stands
    | orphaned gone =>
      obtain ⟨above, chief, stood, inside, deeper, gone⟩ := gone
      exact .orphaned ⟨above, chief, stood, inside, deeper, underway.gone carried gone⟩
  obtain ⟨_, fares⟩ := move_members_keeps
    (motive := fun front rest _ current => Fares start lender hop member owner front rest current)
    distinct step (.waits (mem_members_below.mpr ⟨stood.mem_keys, below⟩) stood)
  cases fares with
  | waits listed _ => exact absurd listed List.not_mem_nil
  | arrived _ stands => exact stands
  | orphaned gone =>
    obtain ⟨above, chief, stood, inside, deeper, gone⟩ := gone
    exact absurd (arrive above chief stood inside deeper).mem_living gone

/-- When the turn comes to the new path of a member that is not moved twice, that path is the new
path of itself. Otherwise the member would be moved on in this turn. -/
theorem relocate_of_not_moved_twice (once : ¬start.MovedTwice lender hop member)
    (underway : Underway start lender hop front (old :: rest) lost current)
    (passed : member ∈ front) (here : relocate member lender hop = old) :
    relocate old lender hop = old := by
  by_contra moves
  subst here
  exact once ⟨underway.listed, underway.comes_after passed, moves⟩

/-- What becomes of a member that stands at its new path and is not moved twice: it stays, or its
new path is listed and lies below a lost one, or it is swept. The three outcomes are those of any
entity in one step of the moves. -/
theorem stays_of_passed (once : ¬start.MovedTwice lender hop member)
    (underway : Underway start lender hop front (old :: rest) lost current)
    (carried : Carried lender hop lost old current next known)
    (passed : member ∈ front) (stands : current.LiveAt (relocate member lender hop) owner) :
    next.LiveAt (relocate member lender hop) owner ∨
      (owner ∉ next.living Entity.order ∧
        (relocate member lender hop = old ∧
          lost.any (relocate member lender hop).isBelow = true ∨
        relocate member lender hop ≠ old ∧ Sweeps lender hop old current next ∧
          isWithin (relocate old lender hop) (relocate member lender hop) = true)) := by
  have settled := relocate_of_not_moved_twice once underway passed
  cases carried.fate underway.distinct stands with
  | stays _ stands => exact .inl stands
  | arrives here _ stands =>
    rw [settled here] at stands
    exact .inl (here ▸ stands)
  | displaced here below gone =>
    rw [settled here] at below
    exact .inr ⟨gone, .inl ⟨here, here ▸ below⟩⟩
  | refused here _ held _ _ => exact absurd (settled here) (mem_keys_remove.mp held).2
  | swept apart within sweeps gone => exact .inr ⟨gone, .inr ⟨apart, sweeps, within⟩⟩

/-- How a member and one above it fare while the members are moved, unless the member is bereft. It
is not live any more; or both wait; or the member waits and belongs below a lost path; or one of
them has arrived and the other waits; or both have arrived. When the one above has arrived,
something is live at its new path: itself, unless it is usurped. The cases are what can be known of
the two at once. The place of what is live above is kept apart from the place of the member that was
there first, because another one may have taken its path. -/
inductive Paired (start : Registry) (lender : NamePath) (hop : Hop) (above member : NamePath)
    (chief owner : SourceOrder) (front rest lost : List NamePath) (current : Registry) :
    Prop where
  | gone (gone : owner ∉ current.living Entity.order)
  | waiting (chiefWaits : above ∈ rest) (waits : member ∈ rest)
      (chiefStands : current.LiveAt above chief) (stands : current.LiveAt member owner)
  | doomed (waits : member ∈ rest) (stands : current.LiveAt member owner)
      (below : lost.any (relocate member lender hop).isBelow = true)
  | early (chiefWaits : above ∈ rest) (passed : member ∈ front)
      (chiefStands : current.LiveAt above chief)
      (stands : current.LiveAt (relocate member lender hop) owner)
  | late {holder : SourceOrder} (chiefPassed : above ∈ front) (waits : member ∈ rest)
      (holds : current.LiveAt (relocate above lender hop) holder)
      (stands : current.LiveAt member owner)
      (either : holder = chief ∨ start.Usurped lender hop above member)
  | arrived {holder : SourceOrder} (chiefPassed : above ∈ front) (passed : member ∈ front)
      (holds : current.LiveAt (relocate above lender hop) holder)
      (stands : current.LiveAt (relocate member lender hop) owner)
      (either : holder = chief ∨ start.Usurped lender hop above member)

/-- What belongs below something that belongs below a lost path belongs below that path. So nothing
that belongs below a lost path is saved by what stands between. -/
theorem any_is_below_trans {paths : List NamePath} {path upper : NamePath}
    (deeper : path.isBelow upper = true) (below : paths.any upper.isBelow = true) :
    paths.any path.isBelow = true := by
  obtain ⟨listed, present, further⟩ := List.any_eq_true.mp below
  exact List.any_eq_true.mpr ⟨listed, present, NamePath.is_below_trans deeper further⟩

/-- A member that waits and belongs below a lost path stays so or is superseded. It is superseded
when its own turn comes, if not before. -/
theorem paired_of_doomed
    (underway : Underway start lender hop front (old :: rest) lost current)
    (carried : Carried lender hop lost old current next known)
    (waits : member ∈ old :: rest) (stands : current.LiveAt member owner)
    (below : lost.any (relocate member lender hop).isBelow = true) :
    Paired start lender hop above member chief owner (front ++ [old]) rest known next := by
  cases carried.fate underway.distinct stands with
  | stays apart stands =>
    obtain ⟨path, listed, deeper⟩ := List.any_eq_true.mp below
    exact .doomed ((List.mem_cons.mp waits).resolve_left apart) stands
      (List.any_eq_true.mpr ⟨path, carried.lost_subset listed, deeper⟩)
  | arrives here clear _ =>
    rw [here, clear] at below
    cases below
  | displaced _ _ gone => exact .gone gone
  | refused _ _ _ _ gone => exact .gone gone
  | swept _ _ _ gone => exact .gone gone

/-- When the member and the one above it wait, the turn of the member comes. The member is moved
before the one above it here, which is the way of `forerunner`. -/
theorem paired_of_turn (kept : ¬start.Bereft lender hop above member)
    (underway : Underway start lender hop front (member :: rest) lost current)
    (carried : Carried lender hop lost member current next known)
    (chiefWaits : above ∈ rest) (chiefStands : current.LiveAt above chief)
    (stands : current.LiveAt member owner) :
    Paired start lender hop above member chief owner (front ++ [member]) rest known next := by
  have first := underway.comes_before chiefWaits
  obtain chiefStands | ⟨within, sweeps, _⟩ :=
    (carried.fate underway.distinct chiefStands).elsewhere (underway.apart chiefWaits)
  · obtain ⟨apart, _⟩ | ⟨_, stands⟩ | gone := (carried.fate underway.distinct stands).outcome
    · exact absurd rfl apart
    · exact .early chiefWaits (List.mem_append_right _ List.mem_cons_self) chiefStands stands
    · exact .gone gone
  · exact absurd (.ahead (underway.contested sweeps.held) first first (.inl within)) kept

/-- When the member and the one above it wait, the turn of another member comes. If the one above is
moved or swept, the member follows by its path. -/
theorem paired_of_waiting (deeper : member.isBelow above = true)
    (above_isBelow : above.isBelow lender = true)
    (underway : Underway start lender hop front (old :: rest) lost current)
    (carried : Carried lender hop lost old current next known)
    (chiefWaits : above ∈ old :: rest) (waits : member ∈ rest)
    (chiefStands : current.LiveAt above chief) (stands : current.LiveAt member owner) :
    Paired start lender hop above member chief owner (front ++ [old]) rest known next := by
  have further := relocate_is_below above_isBelow deeper hop
  have apart := underway.apart waits
  obtain staying | ⟨_, _, gone⟩ := (carried.fate underway.distinct stands).elsewhere apart
  · cases carried.fate underway.distinct chiefStands with
    | stays other chiefStands =>
      exact .waiting ((List.mem_cons.mp chiefWaits).resolve_left other) waits chiefStands staying
    | arrives here _ chiefStands =>
      exact .late (List.mem_append_right _ (List.mem_singleton.mpr here)) waits
        (here ▸ chiefStands) staying (.inl rfl)
    | displaced here below _ =>
      subst here
      obtain ⟨path, listed, lower⟩ := List.any_eq_true.mp (any_is_below_trans further below)
      exact .doomed waits staying
        (List.any_eq_true.mpr ⟨path, carried.lost_subset listed, lower⟩)
    | refused here listed _ _ _ =>
      subst here
      exact .doomed waits staying (List.any_eq_true.mpr ⟨_, listed, further⟩)
    | swept _ within sweeps _ =>
      exact .gone (sweeps.gone stands apart (is_within_of_is_below within deeper))
  · exact .gone gone

/-- When the member has arrived first, the one above it arrives, too, or something is live at its
new path anyway, or the member is superseded. The member is at its new path already, and the one
above comes to a path above that. -/
theorem paired_of_early (kept : ¬start.Bereft lender hop above member)
    (underway : Underway start lender hop front (old :: rest) lost current)
    (carried : Carried lender hop lost old current next known)
    (chiefWaits : above ∈ old :: rest) (passed : member ∈ front)
    (chiefStands : current.LiveAt above chief)
    (stands : current.LiveAt (relocate member lender hop) owner) :
    Paired start lender hop above member chief owner (front ++ [old]) rest known next := by
  have first := moves_before_of_mem underway.split passed chiefWaits
  have once : ¬start.MovedTwice lender hop member := fun twice => kept (.again (.inr rfl) twice)
  have passed' := List.mem_append_left [old] passed
  obtain staying | ⟨gone, _⟩ := stays_of_passed once underway carried passed stands
  · cases carried.fate underway.distinct chiefStands with
    | stays apart chiefStands =>
      exact .early ((List.mem_cons.mp chiefWaits).resolve_left apart) passed' chiefStands staying
    | arrives here _ chiefStands =>
      exact .arrived (List.mem_append_right _ (List.mem_singleton.mpr here)) passed'
        (here ▸ chiefStands) staying (.inl rfl)
    | displaced here below _ =>
      subst here
      obtain ⟨path, listed, lower⟩ := List.any_eq_true.mp below
      obtain ⟨other, moved, rfl, contested, _⟩ := underway.judged path listed
      have earlier := underway.comes_after moved
      exact absurd (.ahead contested first earlier (.inr lower)) kept
    | refused here _ held taken _ =>
      subst here
      obtain ⟨_, holds⟩ := live_at_of_mem_keys taken
      exact .arrived (List.mem_append_right _ List.mem_cons_self) passed' holds staying
        (.inr (.refused (underway.contested held) first))
    | swept apart within sweeps _ =>
      have waiting := (List.mem_cons.mp chiefWaits).resolve_left apart
      have earlier := underway.comes_before waiting
      exact absurd (.ahead (underway.contested sweeps.held) first earlier (.inl within)) kept
  · exact .gone gone

/-- When something is live at the new path of the one above, the member waits on, arrives, or is to
be superseded. This is the usual order: first the one above, then the member. -/
theorem paired_of_late {holder : SourceOrder} (kept : ¬start.Bereft lender hop above member)
    (deeper : member.isBelow above = true) (above_isBelow : above.isBelow lender = true)
    (underway : Underway start lender hop front (old :: rest) lost current)
    (carried : Carried lender hop lost old current next known)
    (chiefPassed : above ∈ front) (waits : member ∈ old :: rest)
    (holds : current.LiveAt (relocate above lender hop) holder)
    (stands : current.LiveAt member owner)
    (either : holder = chief ∨ start.Usurped lender hop above member) :
    Paired start lender hop above member chief owner (front ++ [old]) rest known next := by
  have further := relocate_is_below above_isBelow deeper hop
  have once : ¬start.MovedTwice lender hop above := fun twice => kept (.again (.inl rfl) twice)
  have chiefPassed' := List.mem_append_left [old] chiefPassed
  obtain staying | ⟨_, ⟨_, below⟩ | ⟨_, sweeps, within⟩⟩ :=
    stays_of_passed once underway carried chiefPassed holds
  · obtain ⟨apart, stands⟩ | ⟨here, stands⟩ | gone :=
      (carried.fate underway.distinct stands).outcome
    · exact .late chiefPassed' ((List.mem_cons.mp waits).resolve_left apart) staying stands either
    · exact .arrived chiefPassed' (List.mem_append_right _ (List.mem_singleton.mpr here)) staying
        stands either
    · exact .gone gone
  · exact paired_of_doomed underway carried waits stands (any_is_below_trans further below)
  · obtain rfl | waiting := List.mem_cons.mp waits
    · exact absurd within (not_is_within_of_is_below further)
    · have later := underway.comes_after chiefPassed
      have earlier := underway.comes_before waiting
      have contested := underway.contested sweeps.held
      rw [isWithin, Bool.or_eq_true, decide_eq_true_eq] at within
      obtain same | below := within
      · -- what took the path over is live there instead of the one above
        obtain ⟨_, takes⟩ := live_at_of_mem_keys sweeps.taken
        obtain stands | ⟨_, _, gone⟩ :=
          (carried.fate underway.distinct stands).elsewhere (underway.apart waiting)
        · exact .late chiefPassed' waiting (same ▸ takes) stands
            (.inr (.replaced contested later earlier same.symm))
        · exact .gone gone
      · exact absurd (.behind contested later earlier below) kept

/-- When both have arrived, both paths stay live or the member is superseded. From here on only
sweeps matter, and a sweep of the upper path sweeps the lower one. -/
theorem paired_of_arrived {holder : SourceOrder} (kept : ¬start.Bereft lender hop above member)
    (deeper : member.isBelow above = true) (above_isBelow : above.isBelow lender = true)
    (underway : Underway start lender hop front (old :: rest) lost current)
    (carried : Carried lender hop lost old current next known)
    (chiefPassed : above ∈ front) (passed : member ∈ front)
    (holds : current.LiveAt (relocate above lender hop) holder)
    (stands : current.LiveAt (relocate member lender hop) owner)
    (either : holder = chief ∨ start.Usurped lender hop above member) :
    Paired start lender hop above member chief owner (front ++ [old]) rest known next := by
  have further := relocate_is_below above_isBelow deeper hop
  have once {moved : NamePath} (either : moved = above ∨ moved = member) :
      ¬start.MovedTwice lender hop moved := fun twice => kept (.again either twice)
  obtain staying | ⟨gone, _⟩ := stays_of_passed (once (.inr rfl)) underway carried passed stands
  · obtain holding | ⟨_, ⟨here, below⟩ | ⟨_, sweeps, within⟩⟩ :=
      stays_of_passed (once (.inl rfl)) underway carried chiefPassed holds
    · exact .arrived (List.mem_append_left _ chiefPassed) (List.mem_append_left _ passed)
        holding staying either
    · obtain ⟨path, lostPath, lower⟩ := List.any_eq_true.mp below
      obtain ⟨other, moved, rfl, contested, _⟩ := underway.judged path lostPath
      have later : start.MovesBefore lender member (relocate above lender hop) :=
        here ▸ underway.comes_after passed
      exact absurd (.revisited contested (here ▸ underway.listed) later lower) kept
    · by_cases here : relocate member lender hop = old
      · rw [relocate_of_not_moved_twice (once (.inr rfl)) underway passed here, ← here] at within
        exact absurd within (not_is_within_of_is_below further)
      · exact .gone (sweeps.gone stands here (is_within_of_is_below within further))
  · exact .gone gone

/-- A member that is not bereft of one above it is superseded, or it arrives, and something is live
above it at the new path of that one: that one itself, unless it is usurped.

Proof by the invariant `Paired`. It starts with both waiting. There is one lemma for each case, and
in the end neither waits, so that only the cases of the conclusion are left. -/
theorem arrive_together (distinct : (start.living Entity.order).Nodup)
    (above_isBelow : above.isBelow lender = true) (deeper : member.isBelow above = true)
    (chiefStood : start.LiveAt above chief) (stood : start.LiveAt member owner)
    (kept : ¬start.Bereft lender hop above member) :
    owner ∉ (start.moveMembers lender hop).registry.living Entity.order ∨
      ((start.moveMembers lender hop).registry.LiveAt (relocate member lender hop) owner ∧
        ∃ holder, (start.moveMembers lender hop).registry.LiveAt (relocate above lender hop)
          holder ∧ (holder = chief ∨ start.Usurped lender hop above member)) := by
  have step {front rest lost known : List NamePath} {old : NamePath} {current next : Registry}
      (underway : Underway start lender hop front (old :: rest) lost current)
      (carried : Carried lender hop lost old current next known)
      (paired : Paired start lender hop above member chief owner front (old :: rest) lost
        current) :
      Paired start lender hop above member chief owner (front ++ [old]) rest known next := by
    cases paired with
    | gone gone => exact .gone (underway.gone carried gone)
    | waiting chiefWaits waits chiefStands stands =>
      obtain rfl | waiting := List.mem_cons.mp waits
      · obtain rfl | chiefWaiting := List.mem_cons.mp chiefWaits
        · simp at deeper
        · exact paired_of_turn kept underway carried chiefWaiting chiefStands stands
      · exact paired_of_waiting deeper above_isBelow underway carried chiefWaits waiting
          chiefStands stands
    | doomed waits stands below => exact paired_of_doomed underway carried waits stands below
    | early chiefWaits passed chiefStands stands =>
      exact paired_of_early kept underway carried chiefWaits passed chiefStands stands
    | late chiefPassed waits holds stands either =>
      exact paired_of_late kept deeper above_isBelow underway carried chiefPassed waits holds
        stands either
    | arrived chiefPassed passed holds stands either =>
      exact paired_of_arrived kept deeper above_isBelow underway carried chiefPassed passed holds
        stands either
  have listed {path : NamePath} {order : SourceOrder} (stood : start.LiveAt path order)
      (below : path.isBelow lender = true) : path ∈ start.membersBelow lender :=
    mem_members_below.mpr ⟨stood.mem_keys, below⟩
  obtain ⟨_, paired⟩ := move_members_keeps
    (motive := Paired start lender hop above member chief owner) distinct step
    (.waiting (listed chiefStood above_isBelow)
      (listed stood (NamePath.is_below_trans deeper above_isBelow)) chiefStood stood)
  cases paired with
  | gone gone => exact .inl gone
  | waiting _ waits _ _ => exact absurd waits List.not_mem_nil
  | doomed waits _ _ => exact absurd waits List.not_mem_nil
  | early waits _ _ _ => exact absurd waits List.not_mem_nil
  | late _ waits _ _ _ => exact absurd waits List.not_mem_nil
  | arrived _ _ holds stands either => exact .inr ⟨stands, _, holds, either⟩

end Moves

/-- Moving the members of a lender keeps subtrees together, but for the ways in which a member can
be lost alone or left behind. When the live entities of a registry stand at different places of the
source order, the move goes through. A member that is alone at its new path is live there afterwards
when every member above it is live at its own new path, unless it is lost alone; and it is
superseded when one above it is, unless that one leaves it behind.

Proof: the first half follows from the fate of the member alone. For the second one, a member that
is not superseded has arrived together with what is above it; that one is live, or it was usurped,
and both are against the premises. -/
theorem move_members_together (distinct : (registry.live.values.map Entity.order).Nodup)
    (below : member.isBelow lender = true) (stood : registry.LiveAt member owner) :
    (registry.moveMembers lender hop).failure = none ∧
    (registry.AloneAt lender hop member → ¬registry.LostAlone lender hop member →
      registry.ArriveAbove lender hop member →
      (registry.moveMembers lender hop).registry.LiveAt (relocate member lender hop) owner) ∧
    ∀ above chief, registry.LiveAt above chief → above.isBelow lender = true →
      member.isBelow above = true → ¬registry.LeftBehind lender hop above member →
      (registry.moveMembers lender hop).registry.Supersedes chief →
      (registry.moveMembers lender hop).registry.Supersedes owner := by
  have apart : (registry.living Entity.order).Nodup := Multiset.coe_nodup.mpr distinct
  have finished : (registry.moveMembers lender hop).failure = none := move_each_succeeds apart
  refine ⟨finished, ?arrives, ?superseded⟩
  case arrives =>
    intro alone kept arrive
    exact arrives_of_not_lost_alone apart below stood kept alone arrive
  case superseded =>
    intro above chief chiefStood inside deeper kept superseded
    have bereft : ¬registry.Bereft lender hop above member := fun bereft => kept (.inl bereft)
    obtain gone | ⟨_, holder, holds, either⟩ :=
      arrive_together apart inside deeper chiefStood stood bereft
    · exact supersedes_of_steps (move_members_steps finished) stood gone
    · obtain rfl | usurped := either
      · exact absurd holds.mem_living superseded.2
      · exact absurd (.inr usurped) kept

/-- A lender with two members that have members of their own. The path to which the first of
them is sent is held by a later declaration. -/
def parted : List (Tree Draft) :=
  [.node { entity := { kind := .namespaceEntity, name := "S", order := { sequence := 0 } } }
     [.node { entity := { kind := .namespaceEntity, name := "p", order := { sequence := 1 } } }
       [.node { entity := { kind := .function, name := "d", order := { sequence := 2 } } } []],
      .node { entity := { kind := .namespaceEntity, name := "q", order := { sequence := 3 } } }
       [.node { entity := { kind := .function, name := "e", order := { sequence := 4 } } } []]],
   .node { entity := { kind := .namespaceEntity, name := "T", order := { sequence := 5 } } }
     [.node { entity := { kind := .namespaceEntity, name := "p", order := { sequence := 6 } } } []]]

/-- In the example the function below the refused member is superseded with it, and the other
function arrives with the member above it. The two members are sent to the same lender, and only the
first of them meets a later declaration. -/
theorem parted_together :
    ∃ placed, assign [parted] = .ok placed ∧ (placed.live.values.map Entity.order).Nodup ∧
      (placed.moveMembers (.ofNames ["S"]) ⟨.ofNames ["T"], .static⟩).registry.Supersedes
        { sequence := 2 } ∧
      (placed.moveMembers (.ofNames ["S"]) ⟨.ofNames ["T"], .static⟩).registry.LiveAt
        (.ofNames ["T", "q", "e"]) { sequence := 4 } := by
  have checked : (assign [parted]).toOption.any (fun placed => decide
      ((placed.live.values.map Entity.order).Nodup ∧
        placed.LiveAt (.ofNames ["S", "p"]) { sequence := 1 } ∧
        placed.LiveAt (.ofNames ["S", "p", "d"]) { sequence := 2 } ∧
        ¬placed.LeftBehind (.ofNames ["S"]) ⟨.ofNames ["T"], .static⟩
          (.ofNames ["S", "p"]) (.ofNames ["S", "p", "d"]) ∧
        (placed.moveMembers (.ofNames ["S"]) ⟨.ofNames ["T"], .static⟩).registry.Supersedes
          { sequence := 1 } ∧
        placed.LiveAt (.ofNames ["S", "q", "e"]) { sequence := 4 } ∧
        placed.AloneAt (.ofNames ["S"]) ⟨.ofNames ["T"], .static⟩
          (.ofNames ["S", "q", "e"]) ∧
        ¬placed.LostAlone (.ofNames ["S"]) ⟨.ofNames ["T"], .static⟩
          (.ofNames ["S", "q", "e"]) ∧
        placed.ArriveAbove (.ofNames ["S"]) ⟨.ofNames ["T"], .static⟩
          (.ofNames ["S", "q", "e"]))) = true := by
    decide +kernel
  obtain ⟨placed, assigned, passes⟩ := exists_ok_of_any checked
  obtain ⟨distinct, first, second, kept, superseded, third, alone, spared, arrive⟩ :=
    of_decide_eq_true passes
  obtain ⟨_, _, together⟩ := @move_members_together placed (.ofNames ["S"]) _
    ⟨.ofNames ["T"], .static⟩ _ distinct (by decide) second
  obtain ⟨_, arrives, _⟩ := @move_members_together placed (.ofNames ["S"]) _
    ⟨.ofNames ["T"], .static⟩ _ distinct (by decide) third
  refine ⟨placed, assigned, distinct, ?_, ?_⟩
  · exact together _ _ first (by decide) (by decide) kept superseded
  · exact arrives alone spared arrive

/-- A class that rebinds its members to its instances. It has two methods of one name, and the
one that is bound to the instances already has a local function. -/
def doubled : List (Tree Draft) :=
  [.node { entity := { kind := .classEntity, name := "Person", order := { sequence := 0 } },
           directives := { lends := some "Person.prototype" } }
     [.node { entity := { kind := .function, name := "a", order := { sequence := 1 } } } [],
      .node { entity := { kind := .function, name := "a", order := { sequence := 2 } },
              binding := .onInstance }
       [.node { entity := { kind := .function, name := "y", order := { sequence := 3 } },
                binding := .inner } []]]]

/-- The local function of the method is lost: in a registry whose parts agree and whose entities
stand at different places, the members are moved, every member above the function is live at its new
path, and no other entity was at the function's new path or is sent there; but it is superseded. The
other method is sent to the path of this one and refused there, and then whatever belongs below that
path is superseded, although the function belongs to the method that stayed. -/
theorem doubled_loses_local :
    ∃ placed, assign [doubled] = .ok placed ∧ placed.Agrees ∧
      (placed.census Entity.order).Nodup ∧
      ∃ lender hop member owner, (placed.moveMembers lender hop).failure = none ∧
        member.isBelow lender = true ∧ placed.LiveAt member owner ∧
        placed.AloneAt lender hop member ∧ placed.ArriveAbove lender hop member ∧
        ¬(placed.moveMembers lender hop).registry.LiveAt (relocate member lender hop) owner ∧
        (placed.moveMembers lender hop).registry.Supersedes owner := by
  have checked : (assign [doubled]).toOption.any (fun placed => decide
      (((placed.live.values ++ placed.superseded).map Entity.order).Nodup ∧
        (placed.moveMembers (topLevel "Person") ⟨topLevel "Person", .onInstance⟩).failure.isNone =
          true ∧
        placed.LiveAt (((topLevel "Person").child .onInstance "a").child .inner "y")
          { sequence := 3 } ∧
        placed.AloneAt (topLevel "Person") ⟨topLevel "Person", .onInstance⟩
          (((topLevel "Person").child .onInstance "a").child .inner "y") ∧
        placed.ArriveAbove (topLevel "Person") ⟨topLevel "Person", .onInstance⟩
          (((topLevel "Person").child .onInstance "a").child .inner "y") ∧
        (placed.moveMembers (topLevel "Person")
          ⟨topLevel "Person", .onInstance⟩).registry.Supersedes { sequence := 3 })) = true := by
    decide +kernel
  obtain ⟨placed, assigned, passes⟩ := exists_ok_of_any checked
  obtain ⟨distinct, finished, stood, alone, arrive, superseded⟩ := of_decide_eq_true passes
  refine ⟨placed, assigned, (coherent_of_assign assigned).agrees (directed_of_assign assigned), ?_,
    topLevel "Person", ⟨topLevel "Person", .onInstance⟩, _, { sequence := 3 },
    Option.isNone_iff_eq_none.mp finished, by decide, stood, alone, arrive, ?_, superseded⟩
  · rwa [census, Multiset.coe_add, ← List.map_append]
  · exact fun stands => superseded.2 (Multiset.mem_coe.mp stands.mem_living)

/-- A function that is declared before the namespace of a lender in which it belongs. The target
has a namespace of the same name, which comes later. -/
def forerunner : List (Tree Draft) :=
  [.node { entity := { kind := .function, name := "d", order := { sequence := 0 } },
           memberOf := some "S.p" } [],
   .node { entity := { kind := .namespaceEntity, name := "S", order := { sequence := 1 } } }
     [.node { entity := { kind := .namespaceEntity, name := "p", order := { sequence := 2 } } } []],
   .node { entity := { kind := .namespaceEntity, name := "T", order := { sequence := 3 } } }
     [.node { entity := { kind := .namespaceEntity, name := "p", order := { sequence := 4 } } } []]]

-- A member can stay live, too, when the one above it is superseded: it is moved before.
example : (assign [forerunner]).toOption.any (fun placed =>
    let moved := (placed.moveMembers (.ofNames ["S"]) ⟨.ofNames ["T"], .static⟩).registry
    decide (moved.Supersedes { sequence := 2 } ∧
      moved.LiveAt (.ofNames ["T", "p", "d"]) { sequence := 0 })) = true := by
  decide +kernel

end DocGraph.Registry
