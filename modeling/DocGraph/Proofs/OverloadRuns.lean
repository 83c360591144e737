import DocGraph.Proofs.DraftMarks

/-!
# The runs that become overload sets

Siblings are cut into runs of neighbours, and each run becomes one draft. A run goes on as long as
its last draft is a signature without a body and the next draft is a function of the same name and
binding. So within a run every draft but the last is a signature, and a run of several drafts begins
with a signature and has at most one implementation, at its end.

Nothing is dropped between the runs: put one after the other they are the siblings, and a draft that
is a run by itself stays as it is.

How a list is cut is stated about neighbours, so that nothing depends on the function that does the
cutting: whether two neighbours belong together can be seen from the two alone. What a run becomes
is then a question about a chain of related drafts.
-/

namespace DocGraph.Draft

variable {α : Type} {runs : List (List α)} {front back : List α} {left right : α}
  {drafts others run : List (Tree Draft)} {first part : Tree Draft}

/-- Two neighbours, the first of which stands behind `front`, belong to the same one of some runs
that follow one another. The drafts in front are named because the same draft may occur twice. -/
def InOneRun (runs : List (List α)) (front : List α) (left right : α) : Prop :=
  ∃ earlier before after later,
    runs = earlier ++ (before ++ left :: right :: after) :: later ∧
      earlier.flatten ++ before = front

/-- Runs that follow one another and make up a list of siblings. Neighbours belong to one run
exactly if the first is a signature without a body and both are functions of one name and binding.
Together the three fields leave only one way to cut a list. -/
structure CutIntoRuns (drafts : List (Tree Draft)) (runs : List (List (Tree Draft))) : Prop where
  whole : runs.flatten = drafts
  filled : [] ∉ runs
  inOneRun_iff : ∀ front left right back, drafts = front ++ left :: right :: back →
    (InOneRun runs front left right ↔
      left.value.isSignature = true ∧ left.value.entity.kind = .function ∧
        right.value.entity.kind = .function ∧
        left.value.entity.name = right.value.entity.name ∧
        left.value.binding = right.value.binding)

/-- A signature as it is recorded in the overload set that it becomes part of. Name and place are
those of the set. -/
def recorded (part : Tree Draft) : Signature :=
  ⟨part.value.entity.params, part.value.entity.returns, part.value.entity.description⟩

/-- A run has at most one implementation, and no other draft than its last one can be it. If there
are several drafts, the first is a signature. Both parts follow from the condition on neighbours,
and are stated here for whole runs. -/
structure SignaturesFirst (run : List (Tree Draft)) : Prop where
  signatures : ∀ part ∈ run.dropLast, part.value.isSignature = true
  begins : ∀ first second rest, run = first :: second :: rest → first.value.isSignature = true
  implementation : (run.filter fun part => !part.value.isSignature).length ≤ 1

/-- What becomes of a run: a draft by itself stays as it is, and several become one. A set without
an implementation has no children to speak of, and nothing is claimed then. -/
structure Collapses (run : List (Tree Draft)) (merged : Tree Draft) : Prop where
  alone : ∀ part, run = [part] → merged = part
  place : ∀ first ∈ run.head?, merged.value.entity.order = first.value.entity.order ∧
    merged.value.entity.name = first.value.entity.name
  signatures : 1 < run.length → merged.value.entity.signatures =
    (run.filter fun part => part.value.isSignature).map recorded
  children : ∀ part ∈ run, part.value.isSignature = false → merged.children = part.children

section Neighbours

/-- Neighbours belong to one run, or the first ends a run and the second begins the next one. The
premise that no run is empty is needed for the second case. -/
theorem in_one_run_or_between (filled : [] ∉ runs)
    (whole : runs.flatten = front ++ left :: right :: back) :
    InOneRun runs front left right ∨
      ∃ earlier before after later,
        runs = earlier ++ (before ++ [left]) :: (right :: after) :: later := by
  induction runs generalizing front with
  | nil => simp at whole
  | cons run runs inductionHypothesis =>
    obtain ⟨_, others⟩ := not_or.mp (mt List.mem_cons.mpr filled)
    rw [List.flatten_cons, List.append_eq_append_iff] at whole
    rcases whole with ⟨further, rfl, remaining⟩ | ⟨inside, rfl, remaining⟩
    · -- The neighbours stand behind this run.
      rcases inductionHypothesis others remaining with
        ⟨earlier, before, after, later, rfl, same⟩ | ⟨earlier, before, after, later, rfl⟩
      · refine .inl ⟨run :: earlier, before, after, later, rfl, ?_⟩
        rw [List.flatten_cons, List.append_assoc, same]
      · exact .inr ⟨run :: earlier, before, after, later, rfl⟩
    · match inside with
      | [] =>
        -- The run ends directly before the neighbours.
        rcases @inductionHypothesis [] others remaining.symm with
          ⟨earlier, before, after, later, rfl, same⟩ | ⟨earlier, before, after, later, rfl⟩
        · refine .inl ⟨(front ++ []) :: earlier, before, after, later, rfl, ?_⟩
          rw [List.flatten_cons, List.append_assoc, same, List.append_nil, List.append_nil]
        · exact .inr ⟨(front ++ []) :: earlier, before, after, later, rfl⟩
      | [only] =>
        obtain ⟨rfl, next⟩ := List.cons.inj remaining
        cases runs with
        | nil => cases next
        | cons run later =>
          cases run with
          | nil => exact absurd List.mem_cons_self others
          | cons begins after =>
            obtain ⟨rfl, _⟩ := List.cons.inj next
            exact .inr ⟨[], front, after, later, rfl⟩
      | one :: other :: after =>
        obtain ⟨rfl, next⟩ := List.cons.inj remaining
        obtain ⟨rfl, _⟩ := List.cons.inj next
        exact .inl ⟨[], front, after, runs, rfl, rfl⟩

/-- Splitting a list by a relation leaves neighbours together exactly if they are related.

Proof: within a run neighbours are related, and between two runs they are not; by the former fact
one of the two is the case. -/
theorem in_one_run_split_by_iff (related : α → α → Bool) :
    InOneRun ((front ++ left :: right :: back).splitBy related) front left right ↔
      related left right = true := by
  constructor
  · rintro ⟨earlier, before, after, later, same, _⟩
    have listed : before ++ left :: right :: after ∈
        (front ++ left :: right :: back).splitBy related := by simp [same]
    exact (List.isChain_append_cons_cons.mp (List.isChain_of_mem_splitBy listed)).2.1
  · intro holds
    rcases in_one_run_or_between (List.nil_notMem_splitBy _ _) (List.flatten_splitBy related _) with
      together | ⟨earlier, before, after, later, same⟩
    · exact together
    · have apart := List.isChain_getLast_head_splitBy related (front ++ left :: right :: back)
      rw [same] at apart
      obtain ⟨_, _, unrelated⟩ := (List.isChain_append_cons_cons.mp apart).2.1
      rw [List.getLast_append_singleton, List.head_cons, holds] at unrelated
      cases unrelated

/-- When a draft continues the overload set of its left neighbour. -/
theorem continues_iff {left right : Tree Draft} :
    continues left right = true ↔
      left.value.isSignature = true ∧ left.value.entity.kind = .function ∧
        right.value.entity.kind = .function ∧
        left.value.entity.name = right.value.entity.name ∧
        left.value.binding = right.value.binding := by
  simp only [continues, sameCallable, Bool.and_eq_true, decide_eq_true_eq, and_assoc]

/-- The runs into which siblings are cut. The first two parts are facts of the library about
splitting. -/
theorem cut_into_runs_split_by (drafts : List (Tree Draft)) :
    CutIntoRuns drafts (drafts.splitBy continues) where
  whole := List.flatten_splitBy continues drafts
  filled := List.nil_notMem_splitBy continues drafts
  inOneRun_iff front left right back same := by
    rw [same, in_one_run_split_by_iff, continues_iff]

end Neighbours

section Parts

/-- Every draft of a run but the last is a signature. Each draft that is not the last continues with
another one, and only signatures do. -/
theorem is_signature_of_mem_drop_last
    (chained : run.IsChain fun left right => continues left right = true)
    (listed : part ∈ run.dropLast) : part.value.isSignature = true := by
  induction run with
  | nil => cases listed
  | cons first rest inductionHypothesis =>
    cases rest with
    | nil => cases listed
    | cons second rest =>
      obtain ⟨continued, further⟩ := List.isChain_cons_cons.mp chained
      rw [List.dropLast_cons_cons] at listed
      rcases List.mem_cons.mp listed with rfl | later
      · exact (continues_iff.mp continued).1
      · exact inductionHypothesis further later

/-- A run has its signatures first and at most one implementation. An implementation is not in the
front part, so it is the last draft. -/
theorem signatures_first_of_is_chain
    (chained : run.IsChain fun left right => continues left right = true) :
    SignaturesFirst run := by
  have signatures : ∀ part ∈ run.dropLast, part.value.isSignature = true := fun part =>
    is_signature_of_mem_drop_last chained
  constructor
  · exact signatures
  · rintro first second rest rfl
    apply signatures
    rw [List.dropLast_cons_cons]
    exact List.mem_cons_self
  · rcases List.eq_nil_or_concat run with rfl | ⟨front, last, rfl⟩
    · exact Nat.zero_le 1
    · rw [List.concat_eq_append, List.dropLast_concat] at signatures
      have none : (front.filter fun part => !part.value.isSignature) = [] := by
        rw [List.filter_eq_nil_iff]
        intro part listed
        rw [signatures part listed]
        exact Bool.false_ne_true
      rw [List.concat_eq_append, List.filter_append, none, List.nil_append]
      exact List.length_filter_le _ [last]

/-- What every part leaves alone when its flags are taken in, several parts leave alone. It serves
all fields that come from the first part. -/
theorem foldl_absorb_flags_eq {β : Type} (trait : Draft → β)
    (kept : ∀ draft part : Draft, trait (draft.absorbFlags part) = trait draft)
    (parts : List Draft) (draft : Draft) : trait (parts.foldl absorbFlags draft) = trait draft := by
  induction parts generalizing draft with
  | nil => rfl
  | cons part rest inductionHypothesis => rw [List.foldl_cons, inductionHypothesis, kept]

/-- An overload set stands at the place of its first part and has its name. -/
theorem place_combine_overloads (first : Tree Draft) (others : List (Tree Draft)) :
    (combineOverloads first others).value.entity.order = first.value.entity.order ∧
      (combineOverloads first others).value.entity.name = first.value.entity.name := by
  constructor
  · exact foldl_absorb_flags_eq (fun draft => draft.entity.order) (fun _ _ => rfl) _ _
  · exact foldl_absorb_flags_eq (fun draft => draft.entity.name) (fun _ _ => rfl) _ _

/-- An overload set is of the kind of its first part. -/
theorem kind_combine_overloads (first : Tree Draft) (others : List (Tree Draft)) :
    (combineOverloads first others).value.entity.kind = first.value.entity.kind :=
  foldl_absorb_flags_eq (fun draft => draft.entity.kind) (fun _ _ => rfl) _ _

/-- An overload set records the signature of each of its parts but the implementation. The premise
that the first part is a signature holds in every run of several. -/
theorem signatures_combine_overloads (signature : first.value.isSignature = true)
    (others : List (Tree Draft)) :
    (combineOverloads first others).value.entity.signatures =
      ((first :: others).filter fun part => part.value.isSignature).map recorded := by
  have parts : ((first :: others).filter fun part => part.value.isSignature) =
      first :: others.filter fun part => part.value.isSignature := by
    rw [List.filter_cons, if_pos signature]
  have merged := foldl_absorb_flags_eq (fun draft => draft.entity.signatures) (fun _ _ => rfl)
  refine (merged _ _).trans ?_
  rw [parts, List.map_cons]
  refine congrArg (recorded first :: ·) ?_
  rw [List.map_map, List.map_map]
  rfl

/-- The implementation of a run is found behind its first part, which is a signature. As there is
one at most, the first that is found is the one. -/
theorem find?_implementation (parts : SignaturesFirst (first :: others))
    (signature : first.value.isSignature = true) (listed : part ∈ first :: others)
    (implementation : part.value.isSignature = false) :
    (others.find? fun part => !part.value.isSignature) = some part := by
  have behind : ((first :: others).filter fun part => !part.value.isSignature) =
      others.filter fun part => !part.value.isSignature := by
    rw [List.filter_cons, if_neg (by rw [signature]; exact Bool.false_ne_true)]
  have present : part ∈ others.filter fun part => !part.value.isSignature := by
    rw [← behind, List.mem_filter, implementation]
    exact ⟨listed, rfl⟩
  have atMostOne := parts.implementation
  rw [behind] at atMostOne
  rw [← List.head?_filter]
  generalize (others.filter fun part => !part.value.isSignature) = kept at present atMostOne ⊢
  match kept with
  | [] => cases present
  | [only] => rw [List.mem_singleton.mp present, List.head?_cons]
  | _ :: _ :: _ => exact absurd atMostOne (by simp)

/-- An overload set with an implementation has what is nested in the implementation. -/
theorem children_combine_overloads (parts : SignaturesFirst (first :: others))
    (signature : first.value.isSignature = true) (listed : part ∈ first :: others)
    (implementation : part.value.isSignature = false) :
    (combineOverloads first others).children = part.children := by
  unfold combineOverloads
  dsimp only [Tree.children]
  rw [find?_implementation parts signature listed implementation]

/-- All drafts of a run of several are functions. -/
theorem kind_of_mem_run {part second : Tree Draft}
    (chained : (first :: second :: rest).IsChain fun left right => continues left right = true)
    (listed : part ∈ first :: second :: rest) : part.value.entity.kind = .function := by
  induction rest generalizing first second with
  | nil =>
    obtain ⟨_, one, other, _⟩ := continues_iff.mp (List.isChain_cons_cons.mp chained).1
    rcases List.mem_cons.mp listed with rfl | later
    · exact one
    · exact List.mem_singleton.mp later ▸ other
  | cons third rest inductionHypothesis =>
    obtain ⟨continued, further⟩ := List.isChain_cons_cons.mp chained
    rcases List.mem_cons.mp listed with rfl | later
    · exact (continues_iff.mp continued).2.1
    · exact inductionHypothesis further later

/-- Collapsing overload sets neither adds nor drops drafts that are no functions. It is what lets
other kinds of drafts be treated as if there were no overload sets. -/
theorem filter_merge_overloads {accept : Tree Draft → Bool}
    (refuses : ∀ draft : Tree Draft, draft.value.entity.kind = .function → accept draft = false)
    (drafts : List (Tree Draft)) :
    (mergeOverloads drafts).filter accept = drafts.filter accept := by
  have each (run : List (Tree Draft)) (listed : run ∈ drafts.splitBy continues) :
      (combineRun run).filter accept = run.filter accept := by
    have chained := List.isChain_of_mem_splitBy listed
    unfold combineRun
    split
    · next first second rest =>
      have none : ((first :: second :: rest).filter accept) = [] :=
        List.filter_eq_nil_iff.mpr fun part present =>
          Bool.eq_false_iff.mp (refuses part (kind_of_mem_run chained present))
      have kind : (combineOverloads first (second :: rest)).value.entity.kind = .function :=
        (kind_combine_overloads first _).trans (kind_of_mem_run chained List.mem_cons_self)
      rw [none, List.filter_cons, if_neg (Bool.eq_false_iff.mp (refuses _ kind)), List.filter_nil]
    · rfl
  have whole : drafts.filter accept = ((drafts.splitBy continues).flatten).filter accept := by
    rw [List.flatten_splitBy]
  rw [whole, mergeOverloads, List.filter_flatMap, List.filter_flatten, ← List.flatMap_def]
  exact List.flatMap_congr each

end Parts

/-- A run that is not empty becomes one draft. The two cases are that of one draft and that of
several. -/
theorem exists_collapse (filled : run ≠ [])
    (chained : run.IsChain fun left right => continues left right = true) :
    ∃ merged, combineRun run = [merged] ∧ Collapses run merged := by
  match run with
  | [] => exact absurd rfl filled
  | [part] =>
    refine ⟨part, rfl, ?_⟩
    constructor
    case alone => exact fun only same => (List.cons.inj same).1
    case place => exact fun first same => Option.some.inj same ▸ ⟨rfl, rfl⟩
    case signatures => exact fun more => absurd more (Nat.lt_irrefl 1)
    case children => exact fun only listed _ => List.mem_singleton.mp listed ▸ rfl
  | first :: second :: rest =>
    have parts := signatures_first_of_is_chain chained
    have signature := parts.begins first second rest rfl
    refine ⟨combineOverloads first (second :: rest), rfl, ?_⟩
    constructor
    case alone => exact fun only same => absurd (List.cons.inj same).2 (List.cons_ne_nil _ _)
    case place =>
      intro begins same
      obtain rfl := Option.some.inj same
      exact place_combine_overloads first (second :: rest)
    case signatures => exact fun _ => signatures_combine_overloads signature (second :: rest)
    case children => exact fun part => children_combine_overloads parts signature

/-- **Overload sets are cut where they end, and nothing is dropped in between.** Siblings are cut
into runs, and neighbours belong to one run exactly if the first is a signature without a body and
both are functions of one name and binding. In a run the signatures come first, and at most one
implementation follows them. Each run becomes one draft: a run of one draft this draft, and a longer
one a draft in the place and with the name of its first part, which records the signatures in their
order and has what is nested in the implementation.

Proof: the runs are those into which the list is split by the relation. They are chains, so
signatures come first, and each of them collapses to one draft; the merged list consists of these,
run by run. -/
theorem merge_overloads_runs (drafts : List (Tree Draft)) :
    ∃ runs, CutIntoRuns drafts runs ∧ (∀ run ∈ runs, SignaturesFirst run) ∧
      List.Forall₂ Collapses runs (mergeOverloads drafts) := by
  have chained : ∀ run ∈ drafts.splitBy continues,
      run.IsChain fun left right => continues left right = true :=
    fun _ => List.isChain_of_mem_splitBy
  refine ⟨drafts.splitBy continues, cut_into_runs_split_by drafts,
    fun run listed => signatures_first_of_is_chain (chained run listed), ?_⟩
  have filled : [] ∉ drafts.splitBy continues := List.nil_notMem_splitBy continues drafts
  unfold mergeOverloads
  generalize drafts.splitBy continues = runs at chained filled
  induction runs with
  | nil => exact .nil
  | cons run runs inductionHypothesis =>
    obtain ⟨own, later⟩ := List.forall_mem_cons.mp chained
    obtain ⟨some, others⟩ := not_or.mp (mt List.mem_cons.mpr filled)
    obtain ⟨merged, becomes, collapses⟩ := exists_collapse (Ne.symm some) own
    rw [List.flatMap_cons, becomes]
    exact .cons collapses (inductionHypothesis later others)

/-- A method, with or without a body. -/
def growMethod (sequence : UInt32) (isSignature : Bool) : Tree Draft :=
  .node
    { entity := { kind := .function, name := "grow", order := ⟨0, sequence⟩ }
      binding := .onInstance
      isSignature := isSignature } []

-- The run ends with the implementation, and a method that follows it is not taken in.
example :
    (mergeOverloads [growMethod 0 true, growMethod 1 true, growMethod 2 false,
      growMethod 3 false]).map (fun draft =>
        (draft.value.entity.order.sequence, draft.value.entity.signatures.length)) =
      [(0, 2), (3, 0)] := by decide

end DocGraph.Draft
