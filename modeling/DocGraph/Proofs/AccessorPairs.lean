import DocGraph.Proofs.DraftOrder
import DocGraph.Proofs.OverloadRuns
import DocGraph.Proofs.Rebuilding

/-!
# Accessors and the order of their halves

Drafts are taken into a list of siblings one by one, and an accessor joins its other half wherever
that stands. Seen as a whole, the first accessor of a name and binding keeps its place, all later
ones of this name and binding are joined to it in their order, and the other siblings are treated as
if these were not there.

So a getter and a setter may change places. The pair stands where the first of them stood, it is
made of the same halves in the same roles, and neither of them breaks up or completes an overload
set, since they are no functions. Only the places in the source tell which half is the earlier one,
and they must not be the same.

The exchange is proved for the pairing of accessors first, where the list of siblings is taken apart
sibling by sibling, each with all of its halves. That the overload sets around the halves collapse
on their own is a separate fact, and the two are put together at the end.
-/

namespace DocGraph.Draft

variable {held draft getter setter first second : Tree Draft}
  {siblings rest front between behind drafts : List (Tree Draft)}

section Keys

/-- Being halves of one accessor is symmetric. The comparison asks both drafts for the same key, so
it does not matter which of them asks. -/
theorem same_pair_comm (first second : Tree Draft) :
    samePair first.value second.value = samePair second.value first.value := by
  rw [Bool.eq_iff_iff, same_pair_iff, same_pair_iff]
  simp only [and_comm]

/-- Halves of one accessor have the same other halves. This is what makes the halves of one accessor
a class: whether a further draft belongs to them may be asked of any one of them. -/
theorem same_pair_congr (same : samePair first.value second.value = true) (other : Tree Draft) :
    samePair first.value other.value = samePair second.value other.value := by
  obtain ⟨key, firstKey, secondKey⟩ := same_pair_iff.mp same
  rw [Bool.eq_iff_iff, same_pair_iff, same_pair_iff, firstKey, secondKey]

/-- A pair has the same other halves as either half. The key of the pair is that of its halves. So a
pair keeps collecting the halves that a single half would have collected, however many came
before. -/
theorem same_pair_combine_accessor (same : samePair held.value draft.value = true)
    (other : Tree Draft) :
    samePair (combineAccessor held draft).value other.value =
      samePair held.value other.value := by
  rw [Bool.eq_iff_iff, same_pair_iff, same_pair_iff, pair_key?_combine_accessor same]

/-- Both halves of an accessor are accessors. Nothing else is ever paired, and in particular no
function: pairing accessors and collapsing overload sets do not interfere. -/
theorem kind_of_same_pair (same : samePair first.value second.value = true) :
    first.value.entity.kind = .accessor ∧ second.value.entity.kind = .accessor := by
  simp only [samePair, Bool.and_eq_true, decide_eq_true_eq] at same
  exact same.1.1

/-- No function is the other half of a draft. It is used for the drafts that stand for collapsed
overload sets, which are functions whatever was merged into them. -/
theorem same_pair_of_function (first : Tree Draft) {draft : Tree Draft}
    (function : draft.value.entity.kind = .function) :
    samePair first.value draft.value = false := by
  simp [samePair, function]

end Keys

section Siblings

/-- A draft is joined to the other half that stands in front of the siblings. The premise about the
other siblings is needed because the draft would be joined to every half it finds; there is only one
to find. -/
theorem add_member_cons_of_same (same : samePair held.value draft.value = true)
    (alone : ∀ other ∈ siblings, samePair held.value other.value = false) :
    addMember (held :: siblings) draft = combineAccessor held draft :: siblings := by
  unfold addMember
  rw [List.any_cons, same, Bool.true_or, if_pos rfl, List.map_cons, same, if_pos rfl]
  congr 1
  refine (List.map_congr_left fun other listed => ?_).trans (List.map_id siblings)
  rw [same_pair_comm other draft, ← same_pair_congr same other, alone other listed]
  rfl

/-- A draft that is no other half of the first sibling is taken in behind it. -/
theorem add_member_cons_of_other (other : samePair held.value draft.value = false) :
    addMember (held :: siblings) draft = held :: addMember siblings draft := by
  unfold addMember
  rw [List.any_cons, other, Bool.false_or, List.map_cons, other]
  split <;> rfl

/-- No sibling becomes the other half of a draft by taking in another one. A pair has the key of its
halves, so taking a draft in changes no key that is already there. -/
theorem alone_add_member (alone : ∀ other ∈ siblings, samePair held.value other.value = false)
    (other : samePair held.value draft.value = false) :
    ∀ member ∈ addMember siblings draft, samePair held.value member.value = false := by
  intro member listed
  unfold addMember at listed
  split at listed
  · obtain ⟨sibling, present, rfl⟩ := List.mem_map.mp listed
    split
    · next same =>
      rw [same_pair_comm, same_pair_combine_accessor same, same_pair_comm, alone sibling present]
    · exact alone sibling present
  · rcases List.mem_append.mp listed with present | own
    · exact alone member present
    · exact List.mem_singleton.mp own ▸ other

/-- The first sibling collects its other halves, and the other drafts are taken in as if it was not
there.

Proof: induction on the drafts that are taken in, with the first sibling and the others left open. A
half of the first sibling changes that sibling only and keeps its key; any other draft goes past it.
That no sibling behind has the key of the first one is kept in both cases. -/
theorem foldl_add_member_cons (rest : List (Tree Draft)) (held : Tree Draft)
    (siblings : List (Tree Draft))
    (alone : ∀ other ∈ siblings, samePair held.value other.value = false) :
    rest.foldl addMember (held :: siblings) =
      (rest.filter fun other => samePair held.value other.value).foldl combineAccessor held ::
        (rest.filter fun other => !samePair held.value other.value).foldl addMember siblings := by
  induction rest generalizing held siblings with
  | nil => rfl
  | cons draft rest inductionHypothesis =>
    rw [List.foldl_cons]
    by_cases same : samePair held.value draft.value = true
    · have others : ∀ other ∈ siblings,
          samePair (combineAccessor held draft).value other.value = false := by
        intro other listed
        rw [same_pair_combine_accessor same, alone other listed]
      rw [add_member_cons_of_same same alone, inductionHypothesis _ _ others]
      simp only [same_pair_combine_accessor same, List.filter_cons, same, if_true,
        Bool.not_true, Bool.false_eq_true, if_false, List.foldl_cons]
    · rw [Bool.not_eq_true] at same
      rw [add_member_cons_of_other same, inductionHypothesis _ _ (alone_add_member alone same)]
      simp only [List.filter_cons, same, Bool.false_eq_true, if_false, Bool.not_false, if_true,
        List.foldl_cons]

/-- Induction over siblings that takes them one after the other, each without the halves of those
before it. This is how the merging itself proceeds, so that a list is taken apart as the merged list
is put together. The rest without the halves is shorter than the list, though it need not be a tail
of it. -/
@[elab_as_elim]
theorem halves_induct {motive : List (Tree Draft) → Prop} (nil : motive [])
    (cons : ∀ first rest,
      motive (rest.filter fun other => !samePair first.value other.value) →
        motive (first :: rest))
    (drafts : List (Tree Draft)) : motive drafts := by
  cases drafts with
  | nil => exact nil
  | cons first rest => exact cons first rest (halves_induct nil cons _)
termination_by drafts.length
decreasing_by exact Nat.lt_succ_of_le (List.length_filter_le _ _)

/-- The first draft of a container collects its other halves, and the other drafts are merged as if
these were not there. It is the recursion that the pairing of accessors satisfies and by which all
statements about it are proved; the loop that takes the drafts in is not looked at again. -/
theorem merge_accessors_cons (first : Tree Draft) (rest : List (Tree Draft)) :
    mergeAccessors (first :: rest) =
      (rest.filter fun other => samePair first.value other.value).foldl combineAccessor first ::
        mergeAccessors (rest.filter fun other => !samePair first.value other.value) := by
  unfold mergeAccessors
  rw [List.foldl_cons]
  exact foldl_add_member_cons rest first [] (by simp)

end Siblings

section Exchange

/-- A getter and a setter make the same pair whichever stands first in the list. The getter is told
by its role and the earlier half by its place, so the order of the arguments is asked for in one
case only: when both stand at the same place. This is excluded here. -/
theorem combine_accessor_comm (reads : isGetter getter.value = true)
    (writes : isGetter setter.value = false)
    (apart : getter.value.entity.order ≠ setter.value.entity.order) :
    combineAccessor getter setter = combineAccessor setter getter := by
  have earlier : (if getter.value.entity.order.upTo setter.value.entity.order then
        getter.value.entity else setter.value.entity) =
      if setter.value.entity.order.upTo getter.value.entity.order then setter.value.entity
        else getter.value.entity := by
    have total := SourceOrder.up_to_total getter.value.entity.order setter.value.entity.order
    by_cases forth : getter.value.entity.order.upTo setter.value.entity.order = true
    · have back : setter.value.entity.order.upTo getter.value.entity.order = false :=
        Bool.eq_false_iff.mpr fun back => apart (SourceOrder.up_to_antisymm forth back)
      rw [if_pos forth, back, if_neg Bool.false_ne_true]
    · have back : setter.value.entity.order.upTo getter.value.entity.order = true := by
        rwa [Bool.eq_false_iff.mpr forth, Bool.false_or] at total
      rw [if_neg forth, if_pos back]
  unfold combineAccessor
  dsimp only
  rw [earlier, reads, writes]
  rfl

/-- Siblings without another half of a draft are the other siblings. Both selections are stated
together, for the pairing makes both of them at the same draft. -/
theorem filter_same_pair_of_alone
    (alone : ∀ other ∈ siblings, samePair held.value other.value = false) :
    (siblings.filter fun other => samePair held.value other.value) = [] ∧
      (siblings.filter fun other => !samePair held.value other.value) = siblings := by
  constructor
  · rw [List.filter_eq_nil_iff]
    intro other listed
    rw [alone other listed]
    exact Bool.false_ne_true
  · rw [List.filter_eq_self]
    intro other listed
    rw [alone other listed]
    rfl

/-- If the first half of an accessor has one other half, the two become a pair in its place. What
stands between and behind the halves closes up, as if the second half had never been there. -/
theorem merge_accessors_of_pair (pair : samePair held.value draft.value = true)
    (before : ∀ other ∈ between, samePair held.value other.value = false)
    (after : ∀ other ∈ behind, samePair held.value other.value = false) :
    mergeAccessors (held :: between ++ draft :: behind) =
      combineAccessor held draft :: mergeAccessors (between ++ behind) := by
  rw [List.cons_append, merge_accessors_cons, List.filter_append, List.filter_append,
    List.filter_cons, List.filter_cons, pair, (filter_same_pair_of_alone before).1,
    (filter_same_pair_of_alone before).2, (filter_same_pair_of_alone after).1,
    (filter_same_pair_of_alone after).2]
  rfl

/-- The two halves of an accessor may change places before accessors are paired.

Proof: induction on what stands in front, sibling by sibling with its halves. Where nothing stands
in front, each list begins with one half, collects the other and leaves the same siblings, and the
two pairs are the same. Otherwise the first sibling collects the same halves from both lists, since
neither the getter nor the setter is one of them, and the shorter lists are of the same form. -/
theorem merge_accessors_exchange (reads : isGetter getter.value = true)
    (writes : isGetter setter.value = false)
    (apart : getter.value.entity.order ≠ setter.value.entity.order)
    (pair : samePair getter.value setter.value = true) (front between behind : List (Tree Draft))
    (alone : ∀ other ∈ front ++ between ++ behind, samePair getter.value other.value = false) :
    mergeAccessors (front ++ getter :: between ++ setter :: behind) =
      mergeAccessors (front ++ setter :: between ++ getter :: behind) := by
  induction front using halves_induct generalizing between behind with
  | nil =>
    rw [List.nil_append] at alone
    obtain ⟨before, after⟩ := List.forall_mem_append.mp alone
    have pairBack : samePair setter.value getter.value = true :=
      (same_pair_comm setter getter).trans pair
    have beforeBack : ∀ other ∈ between, samePair setter.value other.value = false :=
      fun other listed => (same_pair_congr pair other).symm.trans (before other listed)
    have afterBack : ∀ other ∈ behind, samePair setter.value other.value = false :=
      fun other listed => (same_pair_congr pair other).symm.trans (after other listed)
    rw [List.nil_append, List.nil_append, merge_accessors_of_pair pair before after,
      merge_accessors_of_pair pairBack beforeBack afterBack,
      combine_accessor_comm reads writes apart]
  | cons first front inductionHypothesis =>
    have noGetter : samePair first.value getter.value = false :=
      (same_pair_comm first getter).trans (alone first List.mem_cons_self)
    have noSetter : samePair first.value setter.value = false := by
      rw [same_pair_comm, ← same_pair_congr pair, same_pair_comm, noGetter]
    -- The first sibling collects the same halves, and what is left differs in the same way.
    have others : ∀ other ∈ (front.filter fun other => !samePair first.value other.value) ++
        (between.filter fun other => !samePair first.value other.value) ++
        behind.filter fun other => !samePair first.value other.value,
        samePair getter.value other.value = false := by
      intro other listed
      rw [← List.filter_append, ← List.filter_append] at listed
      exact alone other (List.mem_cons_of_mem first (List.mem_of_mem_filter listed))
    have further := inductionHypothesis _ _ others
    simp only [List.cons_append, merge_accessors_cons, List.filter_append, List.filter_cons,
      noGetter, noSetter, Bool.false_eq_true, if_false, Bool.not_false, if_true, further]

/-- An accessor stays as it is, and the overload sets before and behind it do not depend on it. An
accessor is no callable and neither continues a run nor is continued, so the cut into runs falls on
both sides of it. -/
theorem merge_overloads_append_cons (accessor : draft.value.entity.kind = .accessor)
    (front behind : List (Tree Draft)) :
    mergeOverloads (front ++ draft :: behind) =
      mergeOverloads front ++ draft :: mergeOverloads behind := by
  have ends (left : Tree Draft) : continues left draft = false := by
    simp [continues, sameCallable, accessor]
  have begins (right : Tree Draft) : continues draft right = false := by
    simp [continues, sameCallable, accessor]
  have alone : (draft :: behind).splitBy continues = [draft] :: behind.splitBy continues :=
    List.splitBy_append (l := [draft]) fun left same right _ =>
      List.mem_singleton.mp (List.mem_of_mem_getLast? same) ▸ begins right
  unfold mergeOverloads
  rw [List.splitBy_append_cons behind fun left _ => ends left, alone, List.flatMap_append,
    List.flatMap_cons]
  rfl

/-- A draft without other halves among the siblings has none when overload sets have collapsed. What
an overload set collapses into is a function and no half of anything; every other draft of the
collapsed list was a draft of the given one. -/
theorem alone_merge_overloads
    (alone : ∀ other ∈ drafts, samePair held.value other.value = false) :
    ∀ other ∈ mergeOverloads drafts, samePair held.value other.value = false := by
  have none :
      ((mergeOverloads drafts).filter fun other => samePair held.value other.value) = [] := by
    rw [filter_merge_overloads fun _ => same_pair_of_function held,
      (filter_same_pair_of_alone alone).1]
  intro other listed
  exact Bool.eq_false_iff.mpr (List.filter_eq_nil_iff.mp none other listed)

end Exchange

/-- **A getter and a setter may change places.** Among the drafts of a container let there be an
accessor whose halves, a getter and a setter, stand at different places in the source, and no third
half. Then the drafts are merged alike whichever of the two comes first in the list: into the same
pair with the same nested drafts, in the same place among the same other drafts.

Proof: the overload sets in front of the halves, between them and behind them collapse by
themselves, the same in both lists. Then the accessors are paired, and there the halves may change
places. That no draft around them becomes a third half when overload sets collapse is what the
premise about the others is carried over for. -/
theorem merge_members_exchange (reads : isGetter getter.value = true)
    (writes : isGetter setter.value = false)
    (apart : getter.value.entity.order ≠ setter.value.entity.order)
    (pair : samePair getter.value setter.value = true)
    (alone : ∀ other ∈ front ++ between ++ behind, samePair getter.value other.value = false) :
    mergeMembers (front ++ getter :: between ++ setter :: behind) =
      mergeMembers (front ++ setter :: between ++ getter :: behind) := by
  obtain ⟨getterKind, setterKind⟩ := kind_of_same_pair pair
  -- What stands around the halves is merged the same way in both lists.
  have cut {one other : Tree Draft} (oneKind : one.value.entity.kind = .accessor)
      (otherKind : other.value.entity.kind = .accessor) :
      mergeOverloads (front ++ one :: between ++ other :: behind) =
        mergeOverloads front ++ one :: mergeOverloads between ++
          other :: mergeOverloads behind := by
    rw [merge_overloads_append_cons otherKind, merge_overloads_append_cons oneKind]
  obtain ⟨ahead, after⟩ := List.forall_mem_append.mp alone
  obtain ⟨ahead, before⟩ := List.forall_mem_append.mp ahead
  unfold mergeMembers
  rw [cut getterKind setterKind, cut setterKind getterKind]
  apply merge_accessors_exchange reads writes apart pair
  exact List.forall_mem_append.mpr ⟨List.forall_mem_append.mpr
    ⟨alone_merge_overloads ahead, alone_merge_overloads before⟩, alone_merge_overloads after⟩

/-- A getter of a size. It is the earlier half, with its own description, which is the one that the
pair keeps. -/
def sizeGetter : Tree Draft :=
  .node
    { entity :=
        { kind := .accessor, name := "size", location := ⟨"box.js", 3⟩, order := ⟨0, 1⟩
          description := "Reads the size.", accessor := some ⟨true, false⟩, documented := true }
      binding := .onInstance } []

/-- A setter of a size, with a comment that names a container. It stands behind the getter in the
source, whatever the order of the list. -/
def sizeSetter : Tree Draft :=
  .node
    { entity :=
        { kind := .accessor, name := "size", location := ⟨"box.js", 8⟩, order := ⟨0, 4⟩
          description := "Sets the size.", accessor := some ⟨false, true⟩, documented := true }
      binding := .onInstance
      memberOf := "Crate" } []

/-- The halves of the size may change places around an overload set. Listed last, the getter still
gives the pair its description and its line, because it is the earlier one in the source. -/
theorem size_exchange :
    sizeGetter.value.entity.order ≠ sizeSetter.value.entity.order ∧
      samePair sizeGetter.value sizeSetter.value = true ∧
      mergeMembers ([] ++ sizeGetter :: [growMethod 2 true, growMethod 3 false] ++
          sizeSetter :: []) =
        mergeMembers ([] ++ sizeSetter :: [growMethod 2 true, growMethod 3 false] ++
          sizeGetter :: []) ∧
      (mergeMembers [sizeSetter, growMethod 2 true, growMethod 3 false, sizeGetter]).map
          (fun member => (member.value.entity.description, member.value.entity.location.line)) =
        [("Reads the size.", 3), ("", 0)] := by
  have apart : sizeGetter.value.entity.order ≠ sizeSetter.value.entity.order := by decide
  have pair : samePair sizeGetter.value sizeSetter.value = true := by decide
  refine ⟨apart, pair, merge_members_exchange (by decide) (by decide) apart pair ?_, by decide⟩
  rw [List.nil_append, List.append_nil]
  decide

end DocGraph.Draft
