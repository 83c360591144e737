import DocGraph.Proofs.AccessorPairs

/-!
# What merged drafts keep of their documentation

When siblings become one draft, a part of what their comments say is collected from all of them and
the rest is that of one of them, the main part. Of an overload set this is the first signature; of
an accessor it is the first getter, or the first half when there is no getter.

Visibility marks are always collected, and the relations of overload sets are. The documented
properties, the container named by the documentation and the target of lent members are those of the
main part, and so are the relations of accessors. Where another part gives any of these and the main
part does not, they are lost, although the tags that gave them are still listed.

A merged draft is described by one relation for both kinds of merging, so that the main part and the
documenting parts can be spoken of without saying which kind it was. Traits that both take from the
main part are treated by one lemma.
-/

namespace DocGraph.Draft

variable {first head merged : Tree Draft} {drafts rest tail run : List (Tree Draft)}
  {parts documenting : List Draft} {main : Draft}

/-- The half of an accessor from which the pair is made. Three halves can become one accessor when a
getter or a setter is declared again. -/
def mainHalf (first : Draft) (rest : List Draft) : Draft :=
  ((first :: rest).find? isGetter).getD first

/-- Several siblings that become the draft `merged`. It is made from the part `main`, and
`documenting` are the parts whose documentation counts. Runs are cut from the list as it stands, and
the halves of an accessor are collected from the whole list. An overload set has two parts at least,
and so has an accessor that was merged. -/
inductive BecomesOne (drafts : List (Tree Draft)) :
    (parts documenting : List Draft) → (main : Draft) → (merged : Tree Draft) → Prop where
  | overloads {first second : Tree Draft} {rest : List (Tree Draft)} {parts : List Draft}
      (run : first :: second :: rest ∈ drafts.splitBy continues)
      (named : parts = (first :: second :: rest).map Tree.value) :
      BecomesOne drafts parts
        (documentingParts (parts.filter Draft.isSignature)
          (parts.find? fun part => !part.isSignature))
        first.value (combineOverloads first (second :: rest))
  | accessors {first second : Tree Draft} {rest : List (Tree Draft)} {parts : List Draft}
      (halves : (drafts.filter fun other => samePair first.value other.value) =
        first :: second :: rest)
      (named : parts = (first :: second :: rest).map Tree.value) :
      BecomesOne drafts parts parts (mainHalf first.value ((second :: rest).map Tree.value))
        ((second :: rest).foldl combineAccessor first)

/-- A merged draft keeps the directives of its parts. The supertypes, the properties and the
visibility marks of every part whose documentation counts are there, and a container or a target of
lent members is the one that is given, if only one part gives any. For the last two fields several
parts may give different values; then nothing is asked, because only one of them can be kept. -/
structure KeepsDirectives (parts documenting : List Draft) (merged : Draft) : Prop where
  supertypes : ∀ part ∈ documenting, ∀ relation ∈ part.entity.relations,
    relation.kind.isSupertype = true → relation ∈ merged.entity.relations
  properties : ∀ part ∈ documenting, part.entity.properties ⊆ merged.entity.properties
  marks : ∀ part ∈ documenting, part.directives.visibility ⊆ merged.directives.visibility
  memberOf : ∀ container, parts.filterMap Draft.memberOf = [container] →
    merged.memberOf = some container
  lends : ∀ target, (parts.filterMap fun part => part.directives.lends) = [target] →
    merged.directives.lends = some target

/-- The main part alone gives all directives that are not collected from the parts. Relations are
asked of accessors only, since overload sets collect them. -/
structure MainGives (parts documenting : List Draft) (main : Draft) : Prop where
  supertypes : main.entity.kind = .accessor → ∀ part ∈ documenting,
    ∀ relation ∈ part.entity.relations, relation.kind.isSupertype = true →
      relation ∈ main.entity.relations
  properties : ∀ part ∈ documenting, part.entity.properties ⊆ main.entity.properties
  memberOf : ∀ container, parts.filterMap Draft.memberOf = [container] →
    main.memberOf = some container
  lends : ∀ target, (parts.filterMap fun part => part.directives.lends) = [target] →
    main.directives.lends = some target

section Accessors

/-- A pair is a getter when one of its halves is. So a pair is treated as a getter when it is joined
with a further half. -/
theorem is_getter_combine_accessor (first second : Tree Draft) :
    isGetter (combineAccessor first second).value =
      (isGetter first.value || isGetter second.value) := by
  have united (main other : Tree Draft) (earlier : Entity) :
      isGetter (pairWith main other earlier).value =
        (isGetter main.value || isGetter other.value) := by
    show ((main.value.entity.accessor.getD {}).getter ||
      (other.value.entity.accessor.getD {}).getter) = _
    unfold isGetter
    cases main.value.entity.accessor <;> cases other.value.entity.accessor <;> rfl
  unfold combineAccessor
  dsimp only
  split
  · exact united _ _ _
  · rw [united, Bool.or_comm]

/-- The main half of three or more halves is found by joining the first two. It is the step by which
a fold over the halves is followed. -/
theorem main_half_cons (first second : Draft) (rest : List Draft) :
    mainHalf first (second :: rest) =
      mainHalf (if isGetter first || !isGetter second then first else second) rest := by
  unfold mainHalf
  cases one : isGetter first <;> cases other : isGetter second <;>
    simp [one, other]

/-- The main half has a trait that depends on the first half by its trait and its role only. -/
theorem trait_main_half_congr {β : Type} {trait : Draft → β} {one other : Draft}
    (same : trait one = trait other) (role : isGetter one = isGetter other) (rest : List Draft) :
    trait (mainHalf one rest) = trait (mainHalf other rest) := by
  unfold mainHalf
  rw [List.find?_cons, List.find?_cons, role]
  cases isGetter other with
  | true => exact same
  | false =>
    cases rest.find? isGetter with
    | none => exact same
    | some getter => rfl

/-- What a pair has from its main half, an accessor has from its first getter, or from its first
half when there is no getter.

Proof: induction on the halves behind the first one. Joining two of them gives a draft with the
trait of the main one, and for the rest the pair counts as a half with this trait and the role of a
getter if it has one. -/
theorem trait_foldl_combine_accessor {β : Type} (trait : Draft → β)
    (kept : ∀ main other earlier, trait (pairWith main other earlier).value = trait main.value)
    (rest : List (Tree Draft)) (first : Tree Draft) :
    trait (rest.foldl combineAccessor first).value =
      trait (mainHalf first.value (rest.map Tree.value)) := by
  induction rest generalizing first with
  | nil =>
    unfold mainHalf
    rw [List.map_nil, List.find?_singleton]
    split <;> rfl
  | cons second rest inductionHypothesis =>
    rw [List.foldl_cons, inductionHypothesis, List.map_cons, main_half_cons]
    apply trait_main_half_congr
    · unfold combineAccessor
      dsimp only
      split
      · exact kept _ _ _
      · exact kept _ _ _
    · rw [is_getter_combine_accessor]
      cases one : isGetter first.value <;> cases other : isGetter second.value <;>
        simp [one, other]

/-- An accessor has the visibility marks of all of its halves. -/
theorem visibility_foldl_combine_accessor (rest : List (Tree Draft)) (first : Tree Draft) :
    ((rest.foldl combineAccessor first).value.directives.visibility).Perm
      ((first :: rest).flatMap fun half => half.value.directives.visibility) := by
  induction rest generalizing first with
  | nil => simp
  | cons second rest inductionHypothesis =>
    rw [List.foldl_cons]
    refine (inductionHypothesis _).trans ?_
    rw [List.flatMap_cons, List.flatMap_cons, List.flatMap_cons, ← List.append_assoc]
    exact (visibility_combine_accessor_perm first second).append_right _

end Accessors

section Siblings

/-- An accessor is its own half, and no other draft is. -/
theorem same_pair_self_iff {draft : Tree Draft} :
    samePair draft.value draft.value = true ↔ draft.value.entity.kind = .accessor := by
  simp [samePair]

/-- A draft that is no accessor has no other half. -/
theorem same_pair_of_kind (kind : first.value.entity.kind ≠ .accessor) (other : Tree Draft) :
    samePair first.value other.value = false := by
  simp [samePair, kind]

/-- The halves of one accessor are looked for alike whether those of another one are there. Halves
of one key are disjoint from those of another, so they may be treated one key at a time. -/
theorem filter_same_pair_of_other (other : samePair head.value first.value = false)
    (tail : List (Tree Draft)) :
    ((tail.filter fun draft => !samePair head.value draft.value).filter
        fun draft => samePair first.value draft.value) =
      (head :: tail).filter fun draft => samePair first.value draft.value := by
  rw [List.filter_cons, same_pair_comm, other, if_neg Bool.false_ne_true, List.filter_filter]
  refine List.filter_congr fun draft _ => ?_
  cases same : samePair first.value draft.value with
  | false => rfl
  | true =>
    have apart : samePair head.value draft.value = false := by
      rw [same_pair_comm, ← same_pair_congr same, same_pair_comm, other]
    rw [apart]
    rfl

/-- The halves of an accessor become one of the siblings. The induction takes all halves of the
first accessor away at once. -/
theorem foldl_combine_accessor_mem (drafts : List (Tree Draft))
    (halves : (drafts.filter fun other => samePair first.value other.value) = first :: rest) :
    rest.foldl combineAccessor first ∈ mergeAccessors drafts := by
  induction drafts using halves_induct with
  | nil => cases halves
  | cons head tail inductionHypothesis =>
    rw [merge_accessors_cons]
    by_cases same : samePair first.value head.value = true
    · rw [List.filter_cons, if_pos same] at halves
      obtain ⟨rfl, rfl⟩ := List.cons.inj halves
      exact List.mem_cons_self
    · have other : samePair head.value first.value = false := by
        rw [same_pair_comm]
        exact Bool.eq_false_iff.mpr same
      rw [← filter_same_pair_of_other other] at halves
      exact List.mem_cons_of_mem _ (inductionHypothesis halves)

/-- A draft that is no accessor stays among the siblings. -/
theorem mem_merge_accessors_of_kind (drafts : List (Tree Draft)) (listed : merged ∈ drafts)
    (kind : merged.value.entity.kind ≠ .accessor) : merged ∈ mergeAccessors drafts := by
  induction drafts using halves_induct with
  | nil => cases listed
  | cons head tail inductionHypothesis =>
    rw [merge_accessors_cons]
    rcases List.mem_cons.mp listed with rfl | later
    · rw [(filter_same_pair_of_alone fun other _ => same_pair_of_kind kind other).1]
      exact List.mem_cons_self
    · apply List.mem_cons_of_mem
      apply inductionHypothesis
      rw [List.mem_filter, same_pair_comm, same_pair_of_kind kind head]
      exact ⟨later, rfl⟩

/-- Each sibling is one of the given drafts and no accessor, or made of all halves of an accessor. A
single half is its own accessor and is listed under the second case with no others. -/
theorem mem_merge_accessors_cases (drafts : List (Tree Draft))
    (listed : merged ∈ mergeAccessors drafts) :
    merged ∈ drafts ∧ merged.value.entity.kind ≠ .accessor ∨
      ∃ first rest,
        (drafts.filter fun other => samePair first.value other.value) = first :: rest ∧
          merged = rest.foldl combineAccessor first := by
  induction drafts using halves_induct with
  | nil => cases listed
  | cons head tail inductionHypothesis =>
    rw [merge_accessors_cons] at listed
    rcases List.mem_cons.mp listed with own | later
    · by_cases accessor : head.value.entity.kind = .accessor
      · refine .inr ⟨head, _, ?_, own⟩
        rw [List.filter_cons, if_pos (same_pair_self_iff.mpr accessor)]
      · rw [(filter_same_pair_of_alone fun other _ => same_pair_of_kind accessor other).1] at own
        exact .inl ⟨own ▸ List.mem_cons_self, own ▸ accessor⟩
    · rcases inductionHypothesis later with ⟨present, kind⟩ | ⟨first, rest, halves, same⟩
      · exact .inl ⟨List.mem_cons_of_mem head (List.mem_of_mem_filter present), kind⟩
      · have present : first ∈ tail.filter fun other => !samePair head.value other.value :=
          List.mem_of_mem_filter (halves ▸ List.mem_cons_self)
        have other : samePair head.value first.value = false := by
          simpa using (List.mem_filter.mp present).2
        exact .inr ⟨first, rest, filter_same_pair_of_other other tail ▸ halves, same⟩

end Siblings

section Overloads

/-- Taking in parts collects their relations. A relation that several parts give is kept once. -/
theorem mem_relations_foldl_absorb_flags {relation : Relation} (parts : List Draft)
    (draft : Draft) :
    relation ∈ (parts.foldl absorbFlags draft).entity.relations ↔
      relation ∈ draft.entity.relations ∨
        ∃ part ∈ parts, relation ∈ part.entity.relations := by
  induction parts generalizing draft with
  | nil => simp
  | cons part rest inductionHypothesis =>
    have joined : relation ∈ (draft.absorbFlags part).entity.relations ↔
        relation ∈ draft.entity.relations ∨ relation ∈ part.entity.relations :=
      mem_union_relations
    rw [List.foldl_cons, inductionHypothesis, joined, or_assoc]
    simp

/-- An overload set has the relations of all of its parts. The premise makes sure that the parts
behind the first one are all absorbed. -/
theorem mem_relations_combine_overloads {relation : Relation} {others : List (Tree Draft)}
    (chained : (first :: others).IsChain fun left right => continues left right = true) :
    relation ∈ (combineOverloads first others).value.entity.relations ↔
      ∃ part ∈ first :: others, relation ∈ part.value.entity.relations := by
  refine (mem_relations_foldl_absorb_flags _ _).trans ?_
  rw [signatures_then_implementation chained]
  simp only [List.mem_map, List.mem_cons, exists_eq_or_imp, exists_exists_and_eq_and]
  rfl

end Overloads

/-- What siblings become is one of the merged siblings. No sibling of another kind or name
interferes. -/
theorem BecomesOne.mem (one : BecomesOne drafts parts documenting main merged) :
    merged ∈ mergeMembers drafts := by
  cases one with
  | @overloads first second rest parts run named =>
    have function := kind_of_mem_run (List.isChain_of_mem_splitBy run) List.mem_cons_self
    apply mem_merge_accessors_of_kind
    · exact List.mem_flatMap.mpr ⟨_, run, List.mem_singleton_self _⟩
    · rw [kind_combine_overloads, function]
      decide
  | @accessors first second rest parts halves named =>
    apply foldl_combine_accessor_mem
    rw [filter_merge_overloads fun _ => same_pair_of_function first, halves]

/-- Every merged sibling is one of the siblings, or some of them became it. With the previous fact
it makes the relation a description of merging. -/
theorem exists_becomes_one (listed : merged ∈ mergeMembers drafts) :
    merged ∈ drafts ∨
      ∃ parts documenting main, BecomesOne drafts parts documenting main merged := by
  rcases mem_merge_accessors_cases _ listed with ⟨present, _⟩ | ⟨first, rest, halves, same⟩
  · obtain ⟨run, cut, inside⟩ := List.mem_flatMap.mp present
    unfold combineRun at inside
    split at inside
    · obtain rfl := List.mem_singleton.mp inside
      exact .inr ⟨_, _, _, .overloads cut rfl⟩
    · left
      rw [← List.flatten_splitBy continues drafts]
      exact List.mem_flatten_of_mem cut inside
  · rw [filter_merge_overloads fun _ => same_pair_of_function first] at halves
    cases rest with
    | nil =>
      have own : first ∈ drafts := List.mem_of_mem_filter (halves ▸ List.mem_cons_self)
      exact .inl (same ▸ own)
    | cons second rest =>
      rw [same]
      exact .inr ⟨_, _, _, .accessors halves rfl⟩

/-- The main half is one of the halves. -/
theorem main_half_mem (first : Draft) (rest : List Draft) :
    mainHalf first rest ∈ first :: rest := by
  unfold mainHalf
  cases found : (first :: rest).find? isGetter with
  | none => exact List.mem_cons_self
  | some getter => exact List.mem_of_find?_eq_some found

/-- Only parts are documenting. -/
theorem BecomesOne.documenting_subset (one : BecomesOne drafts parts documenting main merged) :
    documenting ⊆ parts := by
  cases one with
  | overloads run named =>
    unfold documentingParts
    split
    · intro part listed
      exact List.mem_of_mem_filter (List.mem_of_mem_filter listed)
    · intro part listed
      have found := Option.mem_toList.mp (List.mem_of_mem_filter listed)
      exact List.mem_of_find?_eq_some found
  | accessors halves named => exact List.Subset.refl _

/-- What overload sets have from their first part and pairs from their main half, every merged draft
has from its main part. Each use gives two equations, which hold by definition. -/
theorem BecomesOne.trait_eq {β : Type} (trait : Draft → β)
    (one : BecomesOne drafts parts documenting main merged)
    (ofFirst : ∀ first others, trait (combineOverloads first others).value = trait first.value)
    (ofMain : ∀ half other earlier, trait (pairWith half other earlier).value = trait half.value) :
    trait merged.value = trait main := by
  cases one with
  | overloads run named => exact ofFirst _ _
  | accessors halves named => exact trait_foldl_combine_accessor trait ofMain _ _

/-- The properties, the container and the target of lent members are those of the main part. These
three are the directives that are lost when only another part gives them. -/
theorem BecomesOne.from_main (one : BecomesOne drafts parts documenting main merged) :
    merged.value.entity.properties = main.entity.properties ∧
      merged.value.memberOf = main.memberOf ∧
        merged.value.directives.lends = main.directives.lends := by
  refine ⟨?_, ?_, ?_⟩
  · refine one.trait_eq (fun draft => draft.entity.properties) (fun _ _ => ?_) fun _ _ _ => rfl
    exact foldl_absorb_flags_eq (fun draft => draft.entity.properties) (fun _ _ => rfl) _ _
  · refine one.trait_eq (fun draft => draft.memberOf) (fun _ _ => ?_) fun _ _ _ => rfl
    exact foldl_absorb_flags_eq (fun draft => draft.memberOf) (fun _ _ => rfl) _ _
  · refine one.trait_eq (fun draft => draft.directives.lends) (fun _ _ => ?_) fun _ _ _ => rfl
    exact foldl_absorb_flags_eq (fun draft => draft.directives.lends) (fun _ _ => rfl) _ _

/-- The visibility marks are collected from all parts. -/
theorem BecomesOne.marks (one : BecomesOne drafts parts documenting main merged) :
    ∀ part ∈ parts, part.directives.visibility ⊆ merged.value.directives.visibility := by
  cases one with
  | @overloads first second rest parts run named =>
    rw [named, List.forall_mem_map]
    intro part listed level mark
    rw [visibility_combine_overloads (List.isChain_of_mem_splitBy run)]
    exact List.mem_flatMap.mpr ⟨part, listed, mark⟩
  | @accessors first second rest parts halves named =>
    rw [named, List.forall_mem_map]
    intro part listed level mark
    rw [(visibility_foldl_combine_accessor (second :: rest) first).mem_iff]
    exact List.mem_flatMap.mpr ⟨part, listed, mark⟩

/-- The relations of overload sets are collected from all parts, and those of accessors are those
of the main part. -/
theorem BecomesOne.relations (one : BecomesOne drafts parts documenting main merged) :
    (main.entity.kind = .function ∧
        ∀ part ∈ parts, part.entity.relations ⊆ merged.value.entity.relations) ∨
      main.entity.kind = .accessor ∧ merged.value.entity.relations = main.entity.relations := by
  cases one with
  | @overloads first second rest parts run named =>
    have chained := List.isChain_of_mem_splitBy run
    refine .inl ⟨kind_of_mem_run chained List.mem_cons_self, ?_⟩
    rw [named, List.forall_mem_map]
    intro part listed relation held
    exact (mem_relations_combine_overloads chained).mpr ⟨part, listed, held⟩
  | @accessors first second rest parts halves named =>
    right
    constructor
    · have among : mainHalf first.value ((second :: rest).map Tree.value) ∈
          (first :: second :: rest).map Tree.value := main_half_mem _ _
      obtain ⟨half, listed, same⟩ := List.mem_map.mp among
      rw [← halves] at listed
      rw [← same]
      exact (kind_of_same_pair (List.mem_filter.mp listed).2).2
    · exact trait_foldl_combine_accessor (fun draft => draft.entity.relations)
        (fun _ _ _ => rfl) (second :: rest) first

/-- **Directives are kept exactly if the main part gives them.** Whenever siblings become one draft,
this is one of the merged siblings, and it has the visibility marks of all parts; it has their
relations too if it is an overload set. The other directives of the documentation are kept, those of
every part, exactly if the main part alone gives them already.

Proof: properties, container and target are those of the main part, so each is kept exactly if the
main part gives it. Marks are collected from all parts and are never lost. Relations are collected
by overload sets, which makes their condition empty, and are those of the main half for
accessors. -/
theorem keeps_directives_iff (one : BecomesOne drafts parts documenting main merged) :
    merged ∈ mergeMembers drafts ∧
      (∀ part ∈ parts, part.directives.visibility ⊆ merged.value.directives.visibility) ∧
      (main.entity.kind = .function → ∀ part ∈ parts,
        part.entity.relations ⊆ merged.value.entity.relations) ∧
      (KeepsDirectives parts documenting merged.value ↔ MainGives parts documenting main) := by
  obtain ⟨properties, memberOf, lends⟩ := one.from_main
  have collected : main.entity.kind = .function → ∀ part ∈ parts,
      part.entity.relations ⊆ merged.value.entity.relations := by
    intro function
    rcases one.relations with ⟨_, all⟩ | ⟨accessor, _⟩
    · exact all
    · cases function.symm.trans accessor
  refine ⟨one.mem, one.marks, collected, ?_⟩
  constructor
  · intro keeps
    constructor
    case supertypes =>
      intro accessor part listed relation held supertype
      rcases one.relations with ⟨function, _⟩ | ⟨_, same⟩
      · cases function.symm.trans accessor
      · exact same ▸ keeps.supertypes part listed relation held supertype
    case properties => exact fun part listed => properties ▸ keeps.properties part listed
    case memberOf => exact fun container only => memberOf ▸ keeps.memberOf container only
    case lends => exact fun target only => lends ▸ keeps.lends target only
  · intro gives
    constructor
    case supertypes =>
      intro part listed relation held supertype
      rcases one.relations with ⟨_, all⟩ | ⟨accessor, same⟩
      · exact all part (one.documenting_subset listed) held
      · exact same ▸ gives.supertypes accessor part listed relation held supertype
    case properties => exact fun part listed => properties ▸ gives.properties part listed
    case marks => exact fun part listed => one.marks part (one.documenting_subset listed)
    case memberOf => exact fun container only => memberOf ▸ gives.memberOf container only
    case lends => exact fun target only => lends ▸ gives.lends target only

/-- A documented signature of a function, with a visibility mark and a supertype. -/
def parseSignature (sequence : UInt32) (level : Visibility) (supertype : String) : Tree Draft :=
  .node
    { entity :=
        { kind := .function, name := "parse", order := ⟨0, sequence⟩, documented := true
          relations := [{ kind := .implementing, target := supertype }] }
      directives := { visibility := [level] }
      isSignature := true } []

/-- Marks and supertypes of later signatures are kept. -/
theorem parse_keeps_directives :
    let first := parseSignature 0 .publicAccess "Reader"
    let second := parseSignature 1 .privateAccess "Parser"
    BecomesOne [first, second] [first.value, second.value] [first.value, second.value] first.value
        (combineOverloads first [second]) ∧
      MainGives [first.value, second.value] [first.value, second.value] first.value ∧
      KeepsDirectives [first.value, second.value] [first.value, second.value]
        (combineOverloads first [second]).value := by
  intro first second
  have one : BecomesOne [first, second] [first.value, second.value] [first.value, second.value]
      first.value (combineOverloads first [second]) :=
    .overloads (List.mem_singleton_self _) rfl
  have named : [first.value, second.value].filterMap Draft.memberOf = [] := rfl
  have lent : ([first.value, second.value].filterMap fun part => part.directives.lends) = [] := rfl
  have gives : MainGives [first.value, second.value] [first.value, second.value] first.value := by
    constructor
    case supertypes => exact fun accessor => absurd accessor (by decide)
    case properties => decide
    case memberOf => exact fun container only => nomatch named.symm.trans only
    case lends => exact fun target only => nomatch lent.symm.trans only
  exact ⟨one, gives, (keeps_directives_iff one).2.2.2.mpr gives⟩

/-- The container that the comment of the setter names is lost. The getter is the main half,
although it says nothing about a container. -/
theorem size_setter_loses_container :
    mergeMembers [sizeGetter, sizeSetter] = [combineAccessor sizeGetter sizeSetter] ∧
      [sizeGetter.value, sizeSetter.value].filterMap Draft.memberOf = ["Crate"] ∧
      (combineAccessor sizeGetter sizeSetter).value.memberOf = none ∧
      ¬KeepsDirectives [sizeGetter.value, sizeSetter.value] [sizeGetter.value, sizeSetter.value]
        (combineAccessor sizeGetter sizeSetter).value := by
  have given : [sizeGetter.value, sizeSetter.value].filterMap Draft.memberOf = ["Crate"] := by
    decide
  have lost : (combineAccessor sizeGetter sizeSetter).value.memberOf = none := by decide
  refine ⟨rfl, given, lost, fun keeps => ?_⟩
  cases (keeps.memberOf "Crate" given).symm.trans lost

end DocGraph.Draft
