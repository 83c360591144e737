import DocGraph.NormalizedFile
import DocGraph.Proofs.Conservation

/-!
# What merging makes of the drafts of a file

Merging loses drafts and never makes one up. An overload set keeps the place of its first part, an
accessor pair the place of one of its halves, and a member that a method hands up is kept or dropped
as a whole. So the places of the drafts of a file are a part of the places of its declarations and
defining comments, with no place used twice.

This is shown for every trait that a merged draft takes over from one of its parts. The places
themselves are consecutive numbers in preorder; they are distinct as long as they fit into their 32
bits.

Everything is an inequality between multisets, since merging may drop drafts. Pairing accessors
needs an invariant: among the siblings taken in so far no two have the key of one pair, so a draft
that comes joins one of them at most. Without that a half could be joined to two others and be
counted twice.
-/

namespace DocGraph.Draft

variable {α : Type} {trait : Entity → α}

/-- A trait that a merged entity has from one of the entities it was merged from. A trait that were
made of both halves of a pair, such as a list of all locations, would not be inherited. -/
structure Inherited (trait : Entity → α) : Prop where
  overloaded : ∀ first signatures documenting,
    trait (overloadEntity first signatures documenting) = trait first
  flagged : ∀ draft part : Draft, trait (draft.absorbFlags part).entity = trait draft.entity
  paired : ∀ main other earlier : Entity, earlier = main ∨ earlier = other →
    trait (pairEntity main other earlier) = trait main ∨
      trait (pairEntity main other earlier) = trait other

/-- The place in the source order is inherited: an accessor pair stands where its earlier half
stands. Which half that is depends on the order itself, so both cases have to be considered. -/
theorem order_inherited : Inherited Entity.order where
  overloaded _ _ _ := rfl
  flagged _ _ := rfl
  paired main other earlier := by
    rintro (rfl | rfl)
    · exact .inl rfl
    · exact .inr rfl

/-- The member list is inherited. Drafts have no members yet; that the lists are empty is derived
from this. -/
theorem members_inherited : Inherited Entity.members where
  overloaded _ _ _ := rfl
  flagged _ _ := rfl
  paired _ _ _ _ := .inl rfl

/-- A tree of a forest is counted in it. It may stand there several times, and then it is counted
several times. -/
theorem tree_census_le_census {tree : Tree Draft} {forest : List (Tree Draft)}
    (present : tree ∈ forest) : treeCensus trait tree ≤ census trait forest := by
  induction forest with
  | nil => cases present
  | cons first rest inductionHypothesis =>
    rw [census_cons]
    rcases List.mem_cons.mp present with rfl | later
    · exact Multiset.le_add_right _ _
    · exact (inductionHypothesis later).trans (Multiset.le_add_left _ _)

/-- What is nested in a draft is counted in it. -/
theorem census_children_le (tree : Tree Draft) :
    census trait tree.children ≤ treeCensus trait tree := by
  rw [tree_census_eq]
  exact Multiset.le_cons_self _ _

/-- Absorbing the flags of other parts keeps an inherited trait. -/
theorem trait_foldl_absorb_flags (inherited : Inherited trait) (parts : List Draft)
    (draft : Draft) : trait (parts.foldl absorbFlags draft).entity = trait draft.entity := by
  induction parts generalizing draft with
  | nil => rfl
  | cons part rest inductionHypothesis =>
    rw [List.foldl_cons, inductionHypothesis, inherited.flagged]

/-- An overload set counts no more than its parts: it has the trait of the first signature and the
nested drafts of one part.

Proof: the entity has the trait of the first part, which is counted in it. The nested drafts are
those of one part, and these are counted in that part. -/
theorem tree_census_combine_overloads_le (inherited : Inherited trait) (first : Tree Draft)
    (others : List (Tree Draft)) :
    treeCensus trait (combineOverloads first others) ≤
      treeCensus trait first + census trait others := by
  unfold combineOverloads
  dsimp only
  rw [tree_census_node, trait_foldl_absorb_flags inherited]
  change trait (overloadEntity first.value.entity _ _) ::ₘ _ ≤ _
  rw [inherited.overloaded, tree_census_eq first, Multiset.cons_add]
  apply Multiset.cons_le_cons
  split
  · next part found =>
    have nested : census trait part.children ≤ census trait others :=
      (census_children_le part).trans (tree_census_le_census (List.mem_of_find?_eq_some found))
    exact nested.trans (Multiset.le_add_left _ _)
  · exact Multiset.le_add_right _ _

/-- A run of neighbours counts no more after it has become one draft. A run of one draft stays as it
is. -/
theorem census_combine_run_le (inherited : Inherited trait) (run : List (Tree Draft)) :
    census trait (combineRun run) ≤ census trait run := by
  unfold combineRun
  split
  · next first second rest =>
    rw [census_cons, census_nil, add_zero, census_cons]
    exact tree_census_combine_overloads_le inherited first (second :: rest)
  · exact le_refl _

/-- Collapsing overload sets adds nothing. Cutting the list into runs loses nothing, and each run
becomes smaller at most. -/
theorem census_merge_overloads_le (inherited : Inherited trait) (drafts : List (Tree Draft)) :
    census trait (mergeOverloads drafts) ≤ census trait drafts := by
  have collapsed (runs : List (List (Tree Draft))) :
      census trait (runs.flatMap combineRun) ≤ census trait runs.flatten := by
    induction runs with
    | nil => exact le_refl _
    | cons run rest inductionHypothesis =>
      rw [List.flatMap_cons, List.flatten_cons, census_append, census_append]
      exact add_le_add (census_combine_run_le inherited run) inductionHypothesis
  have whole := collapsed (drafts.splitBy continues)
  rwa [List.flatten_splitBy] at whole

/-- The name and binding by which an accessor finds its other half. Drafts of other kinds have no
key, and they are never joined. -/
def pairKey? (tree : Tree Draft) : Option (String × Binding) :=
  if tree.value.entity.kind = .accessor then some (tree.value.entity.name, tree.value.binding)
  else none

/-- Two drafts are halves of one pair exactly when they have the same key. Put this way, being
halves of one pair is seen to be transitive. -/
theorem same_pair_iff {left right : Tree Draft} :
    samePair left.value right.value = true ↔
      ∃ key, pairKey? left = some key ∧ pairKey? right = some key := by
  simp only [samePair, pairKey?, Bool.and_eq_true, decide_eq_true_eq]
  constructor
  · rintro ⟨⟨⟨leftKind, rightKind⟩, name⟩, binding⟩
    exact ⟨(left.value.entity.name, left.value.binding), by simp [leftKind],
      by simp [rightKind, name, binding]⟩
  · rintro ⟨key, leftKey, rightKey⟩
    split at leftKey
    · next leftKind =>
      split at rightKey
      · next rightKind =>
        obtain ⟨name, binding⟩ := Prod.mk.inj (Option.some.inj (leftKey.trans rightKey.symm))
        exact ⟨⟨⟨leftKind, rightKind⟩, name⟩, binding⟩
      · cases rightKey
    · cases leftKey

/-- A completed half has the key of the main half. -/
theorem pair_key?_pair_with (main other : Tree Draft) (earlier : Entity) :
    pairKey? (pairWith main other earlier) = pairKey? main := rfl

/-- A pair has the key of its halves. So a pair can be joined by further halves, as an accessor that
is declared three times. -/
theorem pair_key?_combine_accessor {held draft : Tree Draft}
    (same : samePair held.value draft.value = true) :
    pairKey? (combineAccessor held draft) = pairKey? held := by
  obtain ⟨key, heldKey, draftKey⟩ := same_pair_iff.mp same
  unfold combineAccessor
  dsimp only
  split <;> rw [pair_key?_pair_with]
  exact draftKey.trans heldKey.symm

/-- A pair counts no more than its two halves. The entity of the other half is the one that is lost,
unless it is its trait that the pair takes over. -/
theorem tree_census_pair_with_le (inherited : Inherited trait) (main other : Tree Draft)
    {earlier : Entity} (one : earlier = main.value.entity ∨ earlier = other.value.entity) :
    treeCensus trait (pairWith main other earlier) ≤
      treeCensus trait main + treeCensus trait other := by
  unfold pairWith
  rw [tree_census_node, tree_census_eq main, tree_census_eq other, census_append]
  change trait (pairEntity main.value.entity other.value.entity earlier) ::ₘ _ ≤ _
  rcases inherited.paired _ _ _ one with same | same
  · rw [same, Multiset.cons_add]
    exact Multiset.cons_le_cons _ (add_le_add (le_refl _) (Multiset.le_cons_self _ _))
  · rw [same, Multiset.add_cons]
    exact Multiset.cons_le_cons _ (add_le_add (Multiset.le_cons_self _ _) (le_refl _))

/-- Whichever half is the main one, a pair counts no more than its two halves. -/
theorem tree_census_combine_accessor_le (inherited : Inherited trait) (first second : Tree Draft) :
    treeCensus trait (combineAccessor first second) ≤
      treeCensus trait first + treeCensus trait second := by
  unfold combineAccessor
  dsimp only
  split <;> split
  · exact tree_census_pair_with_le inherited first second (.inl rfl)
  · exact tree_census_pair_with_le inherited first second (.inr rfl)
  · rw [add_comm]
    exact tree_census_pair_with_le inherited second first (.inr rfl)
  · rw [add_comm]
    exact tree_census_pair_with_le inherited second first (.inl rfl)

/-- Joining a draft to its other half keeps the keys of the siblings. A draft with another key is
left alone, and one with the same key keeps it. -/
theorem filter_map_pair_key?_join (siblings : List (Tree Draft)) (draft : Tree Draft) :
    (siblings.map fun held =>
      if samePair held.value draft.value then combineAccessor held draft else held).filterMap
        pairKey? = siblings.filterMap pairKey? := by
  rw [List.filterMap_map]
  congr 1
  funext held
  simp only [Function.comp_apply]
  split
  · next same => exact pair_key?_combine_accessor same
  · rfl

/-- Siblings with distinct keys keep distinct keys when a draft joins them. A draft that is not
joined has a key that no sibling has, or none. -/
theorem add_member_keys_nodup {siblings : List (Tree Draft)}
    (distinct : (siblings.filterMap pairKey?).Nodup) (draft : Tree Draft) :
    ((addMember siblings draft).filterMap pairKey?).Nodup := by
  unfold addMember
  split
  · rwa [filter_map_pair_key?_join]
  · next alone =>
    rw [List.filterMap_append]
    refine List.Nodup.append distinct ?_ ?_
    · cases own : pairKey? draft <;> simp [own]
    · intro key held added
      obtain ⟨other, present, otherKey⟩ := List.mem_filterMap.mp held
      have ownKey : pairKey? draft = some key := by simpa using added
      apply alone
      rw [List.any_eq_true]
      exact ⟨other, present, same_pair_iff.mpr ⟨key, otherKey, ownKey⟩⟩

/-- Among siblings with distinct keys at most one is joined to a draft, so nothing is counted twice.

Proof: induction on the siblings. Where the first one is joined, its key is that of the draft, so
none of the others has it and they are left alone. Where it is not, the induction hypothesis applies
to the others. -/
theorem census_join_le (inherited : Inherited trait) {siblings : List (Tree Draft)}
    (distinct : (siblings.filterMap pairKey?).Nodup) (draft : Tree Draft) :
    census trait (siblings.map fun held =>
      if samePair held.value draft.value then combineAccessor held draft else held) ≤
      census trait siblings + treeCensus trait draft := by
  induction siblings with
  | nil => simp
  | cons held rest inductionHypothesis =>
    rw [List.map_cons, census_cons, census_cons]
    by_cases same : samePair held.value draft.value = true
    · obtain ⟨key, heldKey, draftKey⟩ := same_pair_iff.mp same
      rw [List.filterMap_cons_some heldKey, List.nodup_cons] at distinct
      have others : (rest.map fun other =>
          if samePair other.value draft.value then combineAccessor other draft else other) =
          rest := by
        refine (List.map_congr_left ?_).trans (List.map_id rest)
        intro other present
        apply if_neg
        intro again
        obtain ⟨otherKey, ownKey, sameKey⟩ := same_pair_iff.mp again
        have equal : otherKey = key := Option.some.inj (sameKey.symm.trans draftKey)
        exact distinct.1 (List.mem_filterMap.mpr ⟨other, present, equal ▸ ownKey⟩)
      rw [if_pos same, others, add_right_comm]
      exact add_le_add (tree_census_combine_accessor_le inherited held draft) (le_refl _)
    · have restDistinct : (rest.filterMap pairKey?).Nodup := by
        cases own : pairKey? held with
        | none => rwa [List.filterMap_cons_none own] at distinct
        | some key =>
          rw [List.filterMap_cons_some own, List.nodup_cons] at distinct
          exact distinct.2
      rw [if_neg same, add_assoc]
      exact add_le_add (le_refl _) (inductionHypothesis restDistinct)

/-- Taking a draft into siblings with distinct keys adds no more than the draft. It is joined to a
sibling or appended. -/
theorem census_add_member_le (inherited : Inherited trait) {siblings : List (Tree Draft)}
    (distinct : (siblings.filterMap pairKey?).Nodup) (draft : Tree Draft) :
    census trait (addMember siblings draft) ≤ census trait siblings + treeCensus trait draft := by
  unfold addMember
  split
  · exact census_join_le inherited distinct draft
  · simp

/-- Pairing accessors adds nothing. The keys of the siblings taken in so far stay distinct along the
way. The induction is on the drafts that remain, with the siblings left open. -/
theorem census_merge_accessors_le (inherited : Inherited trait) (drafts : List (Tree Draft)) :
    census trait (mergeAccessors drafts) ≤ census trait drafts := by
  have taken (remaining siblings : List (Tree Draft))
      (distinct : (siblings.filterMap pairKey?).Nodup) :
      census trait (remaining.foldl addMember siblings) ≤
        census trait siblings + census trait remaining := by
    induction remaining generalizing siblings with
    | nil => simp
    | cons draft rest inductionHypothesis =>
      rw [List.foldl_cons, census_cons, ← add_assoc]
      refine (inductionHypothesis _ (add_member_keys_nodup distinct draft)).trans ?_
      exact add_le_add (census_add_member_le inherited distinct draft) (le_refl _)
  simpa [mergeAccessors] using taken drafts [] (by simp)

/-- Merging the members of a container adds nothing. Accessors are paired after overload sets were
collapsed. -/
theorem census_merge_members_le (inherited : Inherited trait) (drafts : List (Tree Draft)) :
    census trait (mergeMembers drafts) ≤ census trait drafts :=
  (census_merge_accessors_le inherited _).trans (census_merge_overloads_le inherited drafts)

/-- A member that is handed up is kept, replaces another one, or is dropped. What it replaces is
dropped with everything nested in it. -/
theorem census_adopt_le (members : List (Tree Draft)) (found : Tree Draft) :
    census trait (adopt members found) ≤ census trait members + treeCensus trait found := by
  induction members with
  | nil => simp [adopt]
  | cons held rest inductionHypothesis =>
    unfold adopt
    split
    · rw [census_cons, census_cons]
      split
      · rw [add_comm (treeCensus trait held), add_assoc, add_comm]
        exact add_le_add (le_refl _) (Multiset.le_add_left _ _)
      · exact Multiset.le_add_right _ _
    · rw [census_cons, census_cons, add_assoc]
      exact add_le_add (le_refl _) inductionHypothesis

/-- Handing up several members adds no more than these. They are handed up one after the other, and
each of them is counted once at most. -/
theorem census_adopt_all_le (members found : List (Tree Draft)) :
    census trait (adoptAll members found) ≤ census trait members + census trait found := by
  unfold adoptAll
  induction found generalizing members with
  | nil => simp
  | cons first rest inductionHypothesis =>
    rw [List.foldl_cons, census_cons, ← add_assoc]
    refine (inductionHypothesis _).trans ?_
    exact add_le_add (census_adopt_le members first) (le_refl _)

end DocGraph.Draft
