import DocGraph.Proofs.MergedDirectives
import DocGraph.Proofs.Shadowing

/-!
# What merging does to nested drafts

Siblings that become one draft are functions or accessors, so all other drafts stay as they are.
What is nested in the merged draft was nested in one of its parts, and it stands nowhere else.

In the other direction, what is nested in a part with a body is nested in the draft that the part
becomes: an overload set has the members of its implementation, and an accessor has those of all of
its halves. Only what is nested in a signature can be lost.

What siblings become is described here by one relation for each direction. The first part follows a
nested draft back to the sibling it was nested in, the second part follows a sibling forward to the
draft that has everything it had. Both are put together from one lemma for an overload set and one
for a pair.
-/

namespace DocGraph

namespace Tree

variable {α : Type} {tree : Tree α} {forest other : List (Tree α)}

/-- What stands in a forest is one of its trees or stands below one. So occurrence can be followed
down one level at a time. -/
theorem occurs_iff :
    tree.Occurs forest ↔ ∃ root ∈ forest, tree = root ∨ tree.Occurs root.children := by
  constructor
  · intro occurs
    induction occurs with
    | head => exact ⟨_, List.mem_cons_self, .inl rfl⟩
    | inside deeper _ => exact ⟨_, List.mem_cons_self, .inr deeper⟩
    | later _ inductionHypothesis =>
      obtain ⟨root, listed, below⟩ := inductionHypothesis
      exact ⟨root, List.mem_cons_of_mem _ listed, below⟩
  · rintro ⟨root, listed, rfl | deeper⟩
    · exact occurs_of_mem listed
    · induction listed with
      | head _ =>
        cases root
        exact .inside deeper
      | tail _ _ inductionHypothesis => exact .later inductionHypothesis

/-- What stands in a single tree is the tree or stands below it. -/
theorem occurs_singleton_iff {root : Tree α} :
    tree.Occurs [root] ↔ tree = root ∨ tree.Occurs root.children := by
  rw [occurs_iff]
  simp

/-- What stands in a forest stands in every forest that has its trees. What stands below a tree
stands there whatever other trees there are. -/
theorem Occurs.mono (occurs : tree.Occurs forest) (subset : forest ⊆ other) :
    tree.Occurs other := by
  obtain ⟨root, listed, below⟩ := occurs_iff.mp occurs
  exact occurs_iff.mpr ⟨root, subset listed, below⟩

/-- The value of a tree that stands in a forest is one of its values. -/
theorem Occurs.value_mem (occurs : tree.Occurs forest) : tree.value ∈ forestPreorder forest := by
  apply occurs.forest_preorder_subset
  cases tree
  exact List.mem_cons_self

end Tree

namespace Draft

variable {tree first part merged child : Tree Draft} {drafts rest run : List (Tree Draft)}
  {parts documenting : List Draft} {main : Draft}

/-- A draft that can be merged with others: a function or an accessor. Merging only looks at the
kind, the name, the binding and the signature mark; drafts of any other kind are never touched. -/
def Mergeable (tree : Tree Draft) : Prop :=
  tree.value.entity.kind = .function ∨ tree.value.entity.kind = .accessor

/-- A draft has what another one has: its name and binding, all that is nested in it, and a comment
if it has one. It is about a single part of the merged draft, of which there may be several, so
containment is all that can be asked of what is nested. -/
structure Carries (merged part : Tree Draft) : Prop where
  name : merged.value.entity.name = part.value.entity.name
  binding : merged.value.binding = part.value.binding
  children : part.children ⊆ merged.children
  documented : part.value.entity.documented = true → merged.value.entity.documented = true

/-- A draft has what it has itself. -/
theorem Carries.refl (part : Tree Draft) : Carries part part :=
  ⟨rfl, rfl, List.Subset.refl _, id⟩

/-- What a draft has from a second one that has it from a third one. Merging goes in two rounds,
overload sets before accessors, and what is carried through the first round is carried through the
second. -/
theorem Carries.trans {outer : Tree Draft} (later : Carries outer merged)
    (earlier : Carries merged part) : Carries outer part where
  name := later.name.trans earlier.name
  binding := later.binding.trans earlier.binding
  children := List.Subset.trans earlier.children later.children
  documented := fun documented => later.documented (earlier.documented documented)

section Origin

/-- What a pair can only have from one of its halves, an accessor has from one of its halves. An
accessor is made by joining its halves one by one; whatever can be traced through one joining can be
traced through all of them. -/
theorem exists_half (holds : Tree Draft → Prop)
    (pair : ∀ first second, holds (combineAccessor first second) → holds first ∨ holds second)
    (rest : List (Tree Draft)) (first : Tree Draft)
    (whole : holds (rest.foldl combineAccessor first)) : ∃ half ∈ first :: rest, holds half := by
  induction rest generalizing first with
  | nil => exact ⟨first, List.mem_cons_self, whole⟩
  | cons second rest inductionHypothesis =>
    obtain ⟨half, listed, has⟩ := inductionHypothesis _ whole
    rcases List.mem_cons.mp listed with rfl | later
    · rcases pair first second has with own | other
      · exact ⟨first, List.mem_cons_self, own⟩
      · exact ⟨second, List.mem_cons_of_mem _ List.mem_cons_self, other⟩
    · exact ⟨half, List.mem_cons_of_mem _ (List.mem_cons_of_mem _ later), has⟩

/-- A pair stands at the place of one of its halves. It is the place of the half that gives the pair
its comment and position. -/
theorem order_combine_accessor (first second : Tree Draft) :
    (combineAccessor first second).value.entity.order = first.value.entity.order ∨
      (combineAccessor first second).value.entity.order = second.value.entity.order := by
  unfold combineAccessor
  dsimp only
  split <;> split <;> first | exact .inl rfl | exact .inr rfl

/-- All drafts of a run of several can be merged, and are among the siblings. That there are several
is needed: a run of one draft may consist of a draft of any kind. -/
theorem mergeable_of_mem_run {second : Tree Draft}
    (cut : first :: second :: rest ∈ drafts.splitBy continues)
    (listed : part ∈ first :: second :: rest) : part ∈ drafts ∧ Mergeable part := by
  constructor
  · rw [← List.flatten_splitBy continues drafts]
    exact List.mem_flatten_of_mem cut listed
  · exact .inl (kind_of_mem_run (List.isChain_of_mem_splitBy cut) listed)

/-- All halves of an accessor can be merged, and are among the siblings. -/
theorem mergeable_of_mem_halves
    (halves : (drafts.filter fun other => samePair first.value other.value) = rest)
    (listed : part ∈ rest) : part ∈ drafts ∧ Mergeable part := by
  obtain ⟨present, same⟩ := List.mem_filter.mp (halves ▸ listed)
  exact ⟨present, .inr (kind_of_same_pair same).2⟩

/-- What siblings become stands at the place of one of them. An overload set takes the place of its
first draft, an accessor that of one of its halves. -/
theorem BecomesOne.exists_part_of_order (one : BecomesOne drafts parts documenting main merged) :
    ∃ part ∈ drafts, Mergeable part ∧ merged.value.entity.order = part.value.entity.order := by
  cases one with
  | @overloads first second rest parts cut named =>
    obtain ⟨present, mergeable⟩ := mergeable_of_mem_run cut List.mem_cons_self
    exact ⟨first, present, mergeable, (place_combine_overloads _ _).1⟩
  | @accessors first second rest parts halves named =>
    obtain ⟨half, listed, same⟩ := exists_half
      (fun half => ((second :: rest).foldl combineAccessor first).value.entity.order =
        half.value.entity.order)
      (fun left right same => (order_combine_accessor left right).imp same.trans same.trans)
      (second :: rest) first rfl
    obtain ⟨present, mergeable⟩ := mergeable_of_mem_halves halves listed
    exact ⟨half, present, mergeable, same⟩

/-- What is nested in what siblings become is nested in one of them. Nested drafts are never made up
in merging. -/
theorem BecomesOne.exists_part_of_child (one : BecomesOne drafts parts documenting main merged)
    (nested : child ∈ merged.children) :
    ∃ part ∈ drafts, Mergeable part ∧ child ∈ part.children := by
  cases one with
  | @overloads first second rest parts cut named =>
    obtain ⟨part, listed, inner⟩ := Draft.exists_part_of_child nested
    obtain ⟨present, mergeable⟩ := mergeable_of_mem_run cut listed
    exact ⟨part, present, mergeable, inner⟩
  | @accessors first second rest parts halves named =>
    obtain ⟨half, listed, inner⟩ := exists_half (fun half => child ∈ half.children)
      (fun _ _ inside => mem_children_combine_accessor inside) (second :: rest) first nested
    obtain ⟨present, mergeable⟩ := mergeable_of_mem_halves halves listed
    exact ⟨half, present, mergeable, inner⟩

/-- A tree that stands among merged siblings stood among the siblings before, or it is one of the
merged drafts. For a tree at the top this is the description of merged siblings. A tree further down
is nested in one of them, and then it was nested in one of the parts. -/
theorem occurs_merge_members (occurs : tree.Occurs (mergeMembers drafts)) :
    tree.Occurs drafts ∨
      ∃ parts documenting main, BecomesOne drafts parts documenting main tree := by
  obtain ⟨root, listed, below⟩ := Tree.occurs_iff.mp occurs
  rcases exists_becomes_one listed with own | ⟨parts, documenting, main, one⟩
  · exact .inl (Tree.occurs_iff.mpr ⟨root, own, below⟩)
  · rcases below with rfl | deeper
    · exact .inr ⟨parts, documenting, main, one⟩
    · obtain ⟨child, nested, further⟩ := Tree.occurs_iff.mp deeper
      obtain ⟨part, present, _, inner⟩ := one.exists_part_of_child nested
      exact .inl (Tree.occurs_iff.mpr
        ⟨part, present, .inr (Tree.occurs_iff.mpr ⟨child, inner, further⟩)⟩)

end Origin

section Survival

/-- A draft that cannot be merged stays. Neither of the two rounds can take hold of it: it continues
no run, and it is no half of an accessor. -/
theorem mem_merge_members_of_not_mergeable (listed : tree ∈ drafts) (single : ¬Mergeable tree) :
    tree ∈ mergeMembers drafts := by
  obtain ⟨noFunction, noAccessor⟩ := not_or.mp single
  apply mem_merge_accessors_of_kind _ _ noAccessor
  have refuses : ∀ draft : Tree Draft, draft.value.entity.kind = .function →
      decide (draft.value.entity.kind ≠ .function) = false := by
    intro draft function
    simp [function]
  have kept : tree ∈ drafts.filter fun draft => decide (draft.value.entity.kind ≠ .function) :=
    List.mem_filter.mpr ⟨listed, decide_eq_true noFunction⟩
  rw [← filter_merge_overloads refuses] at kept
  exact List.mem_of_mem_filter kept

/-- All drafts of a run have one name and one binding. Neighbours in a run are alike, and this is
handed on along the run to its first draft. -/
theorem alike_of_mem_run (chained : (first :: rest).IsChain fun left right =>
      continues left right = true) (listed : part ∈ first :: rest) :
    first.value.entity.name = part.value.entity.name ∧
      first.value.binding = part.value.binding := by
  induction rest generalizing first with
  | nil =>
    obtain rfl := List.mem_singleton.mp listed
    exact ⟨rfl, rfl⟩
  | cons second rest inductionHypothesis =>
    obtain ⟨continued, further⟩ := List.isChain_cons_cons.mp chained
    obtain ⟨_, _, _, name, binding⟩ := continues_iff.mp continued
    rcases List.mem_cons.mp listed with rfl | later
    · exact ⟨rfl, rfl⟩
    · obtain ⟨sameName, sameBinding⟩ := inductionHypothesis further later
      exact ⟨name.trans sameName, binding.trans sameBinding⟩

/-- Some part documents an overload set when its implementation is documented. If no signature is
documented the implementation is the documenting part. -/
theorem documenting_parts_ne_nil (documented : main.entity.documented = true)
    (signatures : List Draft) : documentingParts signatures (some main) ≠ [] := by
  unfold documentingParts
  split
  · next some =>
    obtain ⟨other, present, its⟩ := List.any_eq_true.mp some
    have kept : other ∈ signatures.filter fun part => part.entity.documented :=
      List.mem_filter.mpr ⟨present, its⟩
    exact List.ne_nil_of_mem kept
  · simp [documented]

/-- An overload set has what its implementation has. The implementation is the last draft of its
run, because signatures come first. Signatures themselves are not carried: what is nested in one of
them is lost. -/
theorem carries_combine_overloads {second : Tree Draft}
    (chained : (first :: second :: rest).IsChain fun left right => continues left right = true)
    (listed : part ∈ first :: second :: rest) (implementation : part.value.isSignature = false) :
    Carries (combineOverloads first (second :: rest)) part := by
  obtain ⟨name, binding⟩ := alike_of_mem_run chained listed
  have parts := signatures_first_of_is_chain chained
  have signature := parts.begins first second rest rfl
  constructor
  case name => exact (place_combine_overloads _ _).2.trans name
  case binding =>
    exact (foldl_absorb_flags_eq (fun draft => draft.binding) (fun _ _ => rfl) _ _).trans binding
  case children =>
    rw [children_combine_overloads parts signature listed implementation]
    exact List.Subset.refl _
  case documented =>
    intro documented
    refine (foldl_absorb_flags_eq (fun draft => draft.entity.documented) (fun _ _ => rfl)
      _ _).trans ?_
    show (!((documentingParts _ _).map Draft.entity).isEmpty) = true
    rw [find?_implementation parts signature listed implementation, Option.map_some,
      List.isEmpty_map, Bool.not_eq_true', List.isEmpty_eq_false_iff]
    exact documenting_parts_ne_nil documented _

/-- A pair has what each of its halves has. Both halves are treated alike, though the description of
the pair comes from one of them only. -/
theorem carries_combine_accessor {second : Tree Draft}
    (same : samePair first.value second.value = true) :
    Carries (combineAccessor first second) first ∧
      Carries (combineAccessor first second) second := by
  have alike : first.value.entity.name = second.value.entity.name ∧
      first.value.binding = second.value.binding := by
    simp only [samePair, Bool.and_eq_true, decide_eq_true_eq] at same
    exact ⟨same.1.2, same.2⟩
  have united {main other : Tree Draft} (earlier : Entity)
      (alike : main.value.entity.name = other.value.entity.name ∧
        main.value.binding = other.value.binding) :
      Carries (pairWith main other earlier) main ∧ Carries (pairWith main other earlier) other := by
    have documented : (pairWith main other earlier).value.entity.documented =
        (main.value.entity.documented || other.value.entity.documented) := rfl
    refine ⟨⟨rfl, rfl, List.subset_append_left _ _, fun own => ?_⟩,
      ⟨alike.1, alike.2, List.subset_append_right _ _, fun own => ?_⟩⟩
    · rw [documented, own, Bool.true_or]
    · rw [documented, own, Bool.or_true]
  unfold combineAccessor
  dsimp only
  split
  · exact united _ alike
  · exact (united _ ⟨alike.1.symm, alike.2.symm⟩).symm

/-- An accessor has what each of its halves has. The pair that has been made so far has the key of
its halves, so the next half is one of the pair, too. -/
theorem carries_foldl_combine_accessor (rest : List (Tree Draft)) (first : Tree Draft)
    (halves : ∀ half ∈ rest, samePair first.value half.value = true)
    (listed : part ∈ first :: rest) : Carries (rest.foldl combineAccessor first) part := by
  induction rest generalizing first part with
  | nil => exact List.mem_singleton.mp listed ▸ .refl _
  | cons second rest inductionHypothesis =>
    obtain ⟨same, others⟩ := List.forall_mem_cons.mp halves
    obtain ⟨ofFirst, ofSecond⟩ := carries_combine_accessor same
    have further : ∀ half ∈ rest,
        samePair (combineAccessor first second).value half.value = true := by
      intro half later
      rw [same_pair_combine_accessor same, others half later]
    have whole := inductionHypothesis (combineAccessor first second) further List.mem_cons_self
    rw [List.foldl_cons]
    rcases List.mem_cons.mp listed with rfl | later
    · exact whole.trans ofFirst
    · rcases List.mem_cons.mp later with rfl | last
      · exact whole.trans ofSecond
      · exact inductionHypothesis _ further (List.mem_cons_of_mem _ last)

/-- What a draft with a body has, one of the merged siblings has.

Proof: the draft lies in one run of the list. A run of one draft stays as it is, and in a longer run
a draft with a body is the implementation of the overload set. What it becomes is then looked for
among the accessors, where it is one of the halves or stays by itself. -/
theorem exists_carries (listed : part ∈ drafts) (body : part.value.isSignature = false) :
    ∃ merged ∈ mergeMembers drafts, Carries merged part := by
  have collapsed : ∃ merged ∈ mergeOverloads drafts, Carries merged part := by
    rw [← List.flatten_splitBy continues drafts] at listed
    obtain ⟨run, cut, inside⟩ := List.mem_flatten.mp listed
    match run with
    | [] => cases inside
    | [only] =>
      have same : part = only := List.mem_singleton.mp inside
      exact ⟨part, List.mem_flatMap.mpr ⟨_, cut, same ▸ List.mem_singleton_self _⟩, .refl part⟩
    | first :: second :: rest =>
      exact ⟨_, List.mem_flatMap.mpr ⟨_, cut, List.mem_singleton_self _⟩,
        carries_combine_overloads (List.isChain_of_mem_splitBy cut) inside body⟩
  obtain ⟨merged, present, carries⟩ := collapsed
  by_cases accessor : merged.value.entity.kind = .accessor
  · -- The halves of the accessor begin with the first one, wherever this one stands.
    obtain ⟨first, rest, halves⟩ : ∃ first rest,
        ((mergeOverloads drafts).filter fun other => samePair merged.value other.value) =
          first :: rest := by
      apply List.exists_cons_of_ne_nil
      exact List.ne_nil_of_mem (List.mem_filter.mpr ⟨present, same_pair_self_iff.mpr accessor⟩)
    have same (half : Tree Draft) (among : half ∈ first :: rest) :
        samePair merged.value half.value = true := by
      rw [← halves] at among
      exact (List.mem_filter.mp among).2
    have begins := same_pair_congr (same first List.mem_cons_self)
    have alike : ((mergeOverloads drafts).filter fun other =>
        samePair first.value other.value) = first :: rest := by
      rw [← halves]
      exact List.filter_congr fun other _ => (begins other).symm
    refine ⟨_, foldl_combine_accessor_mem _ alike, ?_⟩
    refine (carries_foldl_combine_accessor rest first (fun half among => ?_) ?_).trans carries
    · rw [← begins half]
      exact same half (List.mem_cons_of_mem _ among)
    · rw [← halves]
      exact List.mem_filter.mpr ⟨present, same_pair_self_iff.mpr accessor⟩
  · exact ⟨merged, mem_merge_accessors_of_kind _ present accessor, carries⟩

end Survival

end Draft

end DocGraph
