import DocGraph.Draft.Overload
import DocGraph.Proofs.Collecting

/-!
# The union of several signatures

An overload set lists each parameter and each returned type once, however many of its signatures
have it, and in the order in which the signatures bring them up. The first default counts and the
first description with a text; a mark counts wherever it stands. A parameter is optional also when
one of the signatures does without it, and when no signature describes it, the documenting parts
may.

These rules determine the lists: a list of parameters obeys them exactly if it is the union.

The union is made by one pass that takes each parameter into the first one of its name. What comes
out is read off field by field: a field of the result is a summary of the fields of all that were
taken in, and there is one general law for such summaries.
-/

namespace DocGraph.Draft

variable {lists : List (List Param)} {documenting united : List Param} {param first : Param}

/-- The parameters of one name. -/
def namesakes (name : String) (params : List Param) : List Param :=
  params.filter fun param => param.name = name

/-- The first text that is not empty, or else the empty text. An empty description counts as
none. -/
def firstText (texts : List String) : String := (texts.find? fun text => !text.isEmpty).getD ""

/-- The parameters that stand for those of several signatures. Every name has one, in the order in
which the names were first seen. Optional is the one mark that also depends on parameters that are
not there. -/
structure UnitesParams (lists : List (List Param)) (documenting united : List Param) : Prop where
  names : united.map Param.name = (lists.flatten.map Param.name).eraseDups
  isOptional : ∀ param ∈ united, param.isOptional = true ↔
    (∃ list ∈ lists, ∃ other ∈ list, other.name = param.name ∧ other.isOptional = true) ∨
      ∃ list ∈ lists, ∀ other ∈ list, other.name ≠ param.name
  isVariadic : ∀ param ∈ united, param.isVariadic = true ↔
    ∃ list ∈ lists, ∃ other ∈ list, other.name = param.name ∧ other.isVariadic = true
  defaultText : ∀ param ∈ united,
    param.defaultText = (namesakes param.name lists.flatten).findSome? Param.defaultText
  description : ∀ param ∈ united, param.description =
    firstText ((namesakes param.name lists.flatten).map Param.description ++
      (namesakes param.name documenting).map Param.description)
  typeText : ∀ param ∈ united, param.typeText =
    ((namesakes param.name lists.flatten).map Param.typeText).foldl joinTypes none

/-- The returned values that stand for those of several signatures. Every type has one, in the
order in which the types were first seen. -/
structure UnitesReturns (lists : List (List Returns)) (united : List Returns) : Prop where
  types : united.map Returns.typeText = (lists.flatten.map Returns.typeText).eraseDups
  description : ∀ returned ∈ united, returned.description =
    firstText ((lists.flatten.filter fun other => other.typeText = returned.typeText).map
      Returns.description)

section Absorbing

/-- A parameter that takes in others is optional when one of them is. Whether a signature lacks the
parameter is decided later, when it is completed. -/
theorem is_optional_foldl_absorb_param (first : Param) (rest : List Param) :
    (rest.foldl absorbParam first).isOptional = (first :: rest).any Param.isOptional :=
  trait_foldl_absorb Param.isOptional (fun params => params.any Param.isOptional) (by simp)
    (by simp [absorbParam, Bool.or_assoc]) first rest

/-- A parameter that takes in others is variadic when one of them is. -/
theorem is_variadic_foldl_absorb_param (first : Param) (rest : List Param) :
    (rest.foldl absorbParam first).isVariadic = (first :: rest).any Param.isVariadic :=
  trait_foldl_absorb Param.isVariadic (fun params => params.any Param.isVariadic) (by simp)
    (by simp [absorbParam, Bool.or_assoc]) first rest

/-- A parameter that takes in others has the first default of them. Later defaults are dropped. -/
theorem default_text_foldl_absorb_param (first : Param) (rest : List Param) :
    (rest.foldl absorbParam first).defaultText = (first :: rest).findSome? Param.defaultText := by
  refine trait_foldl_absorb Param.defaultText (fun params => params.findSome? Param.defaultText)
    (fun param => ?_) (fun held param rest => ?_) first rest
  · cases same : param.defaultText <;> simp [same]
  · cases same : held.defaultText <;> simp [absorbParam, same, List.findSome?_cons]

/-- A parameter that takes in others has the first text of theirs as its description. -/
theorem description_foldl_absorb_param (first : Param) (rest : List Param) :
    (rest.foldl absorbParam first).description =
      firstText ((first :: rest).map Param.description) := by
  refine trait_foldl_absorb Param.description
    (fun params => firstText (params.map Param.description)) (fun param => ?_)
    (fun held param rest => ?_) first rest
  · by_cases empty : param.description.isEmpty <;> simp_all [firstText]
  · by_cases empty : held.description.isEmpty <;> simp [firstText, absorbParam, empty]

/-- A missing type adds no alternatives. -/
theorem join_types_none_left (type : Option String) : joinTypes none type = type := by
  cases type <;> rfl

/-- A parameter that takes in others has the union of their types. The order matters, since it is
the order of the alternatives. -/
theorem type_text_foldl_absorb_param (first : Param) (rest : List Param) :
    (rest.foldl absorbParam first).typeText =
      ((first :: rest).map Param.typeText).foldl joinTypes none := by
  refine trait_foldl_absorb Param.typeText
    (fun params => (params.map Param.typeText).foldl joinTypes none) (fun param => ?_)
    (fun held param rest => ?_) first rest
  · exact join_types_none_left param.typeText
  · simp only [List.map_cons, List.foldl_cons, join_types_none_left]
    rfl

end Absorbing

section Texts

/-- The first text of two lists is that of the second where the first has none. So the documenting
parts are asked only when no signature has a text. -/
theorem first_text_append (texts others : List String) :
    firstText (texts ++ others) =
      if (firstText texts).isEmpty then firstText others else firstText texts := by
  unfold firstText
  rw [List.find?_append]
  cases found : texts.find? fun text => !text.isEmpty with
  | none => rfl
  | some text =>
    have filled : text.isEmpty = false := by simpa using List.find?_some found
    simp [filled]

/-- The first description that is found under a name is the first text of its namesakes. The one
side looks for a description among all parameters, the other one selects the namesakes first. -/
theorem first_text_namesakes (name : String) (params : List Param) :
    firstText ((namesakes name params).map Param.description) =
      ((params.find? fun param => param.name = name && !param.description.isEmpty).map
        Param.description).getD "" := by
  unfold firstText namesakes
  rw [List.find?_map, List.find?_filter]
  simp only [Function.comp_def, Bool.decide_and, Bool.decide_eq_true]

/-- A mark of a namesake stands in one of the lists. Marks are collected from the joined lists, and
the rules ask for the signature. -/
theorem any_namesakes_iff {name : String} {mark : Param → Bool} :
    (namesakes name lists.flatten).any mark = true ↔
      ∃ list ∈ lists, ∃ other ∈ list, other.name = name ∧ mark other = true := by
  simp only [namesakes, List.any_eq_true, List.mem_filter, List.mem_flatten, decide_eq_true_eq]
  constructor
  · rintro ⟨other, ⟨⟨list, listed, present⟩, same⟩, marked⟩
    exact ⟨list, listed, other, present, same, marked⟩
  · rintro ⟨list, listed, other, present, same, marked⟩
    exact ⟨other, ⟨⟨list, listed, present⟩, same⟩, marked⟩

end Texts

section Unions

/-- A parameter of the union takes in all of its namesakes and is completed then. All fields of the
union follow from this form. -/
theorem exists_of_mem_union_params (listed : param ∈ unionParams lists documenting) :
    ∃ first rest, namesakes param.name lists.flatten = first :: rest ∧
      param = completeParam lists documenting (rest.foldl absorbParam first) := by
  obtain ⟨held, collected, rfl⟩ := List.mem_map.mp listed
  obtain ⟨first, rest, alike, made⟩ :=
    mem_collected Param.name absorbParam (fun _ _ => rfl) collected
  exact ⟨first, rest, alike, congrArg (completeParam lists documenting) made⟩

/-- The union of several signatures lists their parameters by the rules. There is one case for each
field of the rules. -/
theorem unites_params_union_params (lists : List (List Param)) (documenting : List Param) :
    UnitesParams lists documenting (unionParams lists documenting) := by
  constructor
  case names =>
    have collected := map_key_collected Param.name absorbParam (fun _ _ => rfl) lists.flatten
    rw [← collected, unionParams, List.map_map]
    rfl
  case isOptional =>
    intro param listed
    obtain ⟨first, rest, alike, made⟩ := exists_of_mem_union_params listed
    have missing : (lists.any fun list => !list.any fun other => other.name = param.name) = true ↔
        ∃ list ∈ lists, ∀ other ∈ list, other.name ≠ param.name := by
      simp
    have own : param.isOptional = ((first :: rest).any Param.isOptional ||
        lists.any fun list => !list.any fun other => other.name = param.name) := by
      rw [made, ← is_optional_foldl_absorb_param]
      rfl
    rw [own, ← alike, Bool.or_eq_true, any_namesakes_iff, missing]
  case isVariadic =>
    intro param listed
    obtain ⟨first, rest, alike, made⟩ := exists_of_mem_union_params listed
    have own : param.isVariadic = (first :: rest).any Param.isVariadic := by
      rw [made, ← is_variadic_foldl_absorb_param]
      rfl
    rw [own, ← alike, any_namesakes_iff]
  case defaultText =>
    intro param listed
    obtain ⟨first, rest, alike, made⟩ := exists_of_mem_union_params listed
    rw [alike, ← default_text_foldl_absorb_param, made]
    rfl
  case description =>
    intro param listed
    obtain ⟨first, rest, alike, made⟩ := exists_of_mem_union_params listed
    rw [first_text_append, first_text_namesakes param.name documenting, alike,
      ← description_foldl_absorb_param, made]
    -- The documenting parts are asked exactly if the signatures have no text.
    unfold completeParam
    dsimp only
    split
    · next empty =>
      split
      · next doc found => simp [found]
      · next none =>
        rw [none, String.isEmpty_iff.mp empty]
        rfl
    · rfl
  case typeText =>
    intro param listed
    obtain ⟨first, rest, alike, made⟩ := exists_of_mem_union_params listed
    rw [alike, ← type_text_foldl_absorb_param, made]
    rfl

/-- The rules leave no choice between two lists of parameters. The names are the same on both sides,
and every other field is determined by the name. -/
theorem UnitesParams.unique {others : List Param} (one : UnitesParams lists documenting united)
    (other : UnitesParams lists documenting others) : united = others := by
  refine eq_of_map_key_eq (one.names.trans other.names.symm)
    fun param listed twin present same => ?_
  have typeText : param.typeText = twin.typeText := by
    rw [one.typeText param listed, other.typeText twin present, same]
  have description : param.description = twin.description := by
    rw [one.description param listed, other.description twin present, same]
  have defaultText : param.defaultText = twin.defaultText := by
    rw [one.defaultText param listed, other.defaultText twin present, same]
  have isOptional : param.isOptional = twin.isOptional := by
    rw [Bool.eq_iff_iff, one.isOptional param listed, other.isOptional twin present, same]
  have isVariadic : param.isVariadic = twin.isVariadic := by
    rw [Bool.eq_iff_iff, one.isVariadic param listed, other.isVariadic twin present, same]
  exact Param.ext same typeText description defaultText isOptional isVariadic

/-- A returned value after another one of its type is taken in. -/
def absorbReturns (held returned : Returns) : Returns :=
  if held.description.isEmpty then { held with description := returned.description } else held

/-- Returned values are collected by their types. So the laws of collecting hold for returned values
as for parameters. -/
theorem add_returns_eq_collect_by_key :
    addReturns = collectByKey Returns.typeText absorbReturns := by
  funext collected returned
  unfold addReturns collectByKey absorbReturns
  split
  · refine List.map_congr_left fun held _ => ?_
    by_cases same : held.typeText = returned.typeText <;> simp [same]
  · rfl

/-- Taking in a returned value keeps the type. -/
theorem type_text_absorb_returns (held returned : Returns) :
    (absorbReturns held returned).typeText = held.typeText := by
  unfold absorbReturns
  split <;> rfl

/-- A returned value that takes in others has the first text of theirs as its description. -/
theorem description_foldl_absorb_returns (first : Returns) (rest : List Returns) :
    (rest.foldl absorbReturns first).description =
      firstText ((first :: rest).map Returns.description) := by
  refine trait_foldl_absorb Returns.description
    (fun values => firstText (values.map Returns.description)) (fun returned => ?_)
    (fun held returned rest => ?_) first rest
  · by_cases empty : returned.description.isEmpty <;> simp_all [firstText]
  · by_cases empty : held.description.isEmpty <;> simp [firstText, absorbReturns, empty]

/-- The union of several signatures lists what they return by the rules. -/
theorem unites_returns_union_returns (lists : List (List Returns)) :
    UnitesReturns lists (unionReturns lists) := by
  unfold unionReturns
  rw [add_returns_eq_collect_by_key]
  constructor
  case types => exact map_key_collected Returns.typeText absorbReturns type_text_absorb_returns _
  case description =>
    intro returned listed
    obtain ⟨first, rest, alike, made⟩ :=
      mem_collected Returns.typeText absorbReturns type_text_absorb_returns listed
    rw [alike, ← description_foldl_absorb_returns, ← made]

/-- The rules leave no choice between two lists of returned values. Returned values are told by
their types as parameters are by their names. -/
theorem UnitesReturns.unique {lists : List (List Returns)} {united others : List Returns}
    (one : UnitesReturns lists united) (other : UnitesReturns lists others) : united = others := by
  refine eq_of_map_key_eq (one.types.trans other.types.symm)
    fun returned listed twin present same => ?_
  have description : returned.description = twin.description := by
    rw [one.description returned listed, other.description twin present, same]
  exact Returns.ext same description

end Unions

/-- **The merged lists are the unions of those of the signatures.** A list of parameters is the
merged one exactly if it has each name of the signatures once, in the order in which they were first
seen; if a parameter is optional exactly when it is so in some signature or some signature lacks it,
and variadic exactly when it is so in some signature; if its default is the first one, and its
description the first text of the signatures or else of the documenting parts; and if its type joins
those of the signatures in their order. A list of returned values is the merged one exactly if it
has each type once, in the order in which they were first seen, with the first text of its
descriptions.

Proof: the union obeys the rules, and two lists that obey them are the same. Both are shown field by
field. -/
theorem merged_iff_unites (paramLists : List (List Param)) (documenting : List Param)
    (returnLists : List (List Returns)) :
    (∀ united, united = unionParams paramLists documenting ↔
      UnitesParams paramLists documenting united) ∧
    ∀ united, united = unionReturns returnLists ↔ UnitesReturns returnLists united := by
  have params := unites_params_union_params paramLists documenting
  have returns := unites_returns_union_returns returnLists
  constructor
  · exact fun united => ⟨fun same => same ▸ params, fun unites => unites.unique params⟩
  · exact fun united => ⟨fun same => same ▸ returns, fun unites => unites.unique returns⟩

-- The second signature lacks `from`, and only the body describes `to`.
example :
    unionParams
        [[{ name := "from", defaultText := some "0" }, { name := "to" }], [{ name := "to" }]]
        [{ name := "to", description := "The end." }] =
      [{ name := "from", defaultText := some "0", isOptional := true },
        { name := "to", description := "The end." }] := by decide

end DocGraph.Draft
