import Mathlib
import DocGraph.Proofs.Reconciliation

/-!
# Names for patterns without a name

A pattern without a name of its own is listed under the documented name at its place, or under a
name made of its number where the documentation has no name for this place. All parameters are told
apart by their names only, so a parameter is lost when its name is another one's.

The names without dots that are listed for a declaration are the documented ones and those of its
parameters. There are as many as parameters when these have different names; and if the names that
the code gives are different and hold no dots, it depends on the names of the patterns alone whether
they have.

Names are looked up by their place in the list of all parameters, since the same name may stand at
two places and that is just what the question is about. The condition on patterns is put in terms of
the documented and the given names only, so it can be checked without joining the lists.
-/

namespace DocGraph

namespace Param

variable {params : List (Tree ParamDecl)} {roots : List String} {documented : List Param}
  {name : String} {index other : Nat}

/-- The names that a declaration gives to its parameters. Patterns give none. -/
def givenNames (params : List (Tree ParamDecl)) : List String :=
  (params.map fun param => param.value.name).filter fun name => !name.isEmpty

/-- The names under which the parameters of a declaration are listed. They are in the order of the
parameters, with the patterns in their places. -/
def codeNames (roots : List String) (params : List (Tree ParamDecl)) : List String :=
  params.zipIdx.map fun (param, index) => codeName roots index param.value

/-- The parameters with a name have different names without dots. Code that has two parameters of
one name cannot be told apart by names in any case. -/
structure NamedApart (params : List (Tree ParamDecl)) : Prop where
  distinct : (givenNames params).Nodup
  dotFree : ∀ name ∈ givenNames params, '.' ∉ name.toList

/-- There is a pattern without a name at a place. -/
def IsPatternAt (params : List (Tree ParamDecl)) (index : Nat) : Prop :=
  ∃ param, params[index]? = some param ∧ param.value.name = ""

/-- No pattern takes the name of another parameter. Only places of patterns are asked; two named
parameters are apart by assumption. -/
def OwnNames (roots : List String) (params : List (Tree ParamDecl)) : Prop :=
  ∀ index other name, IsPatternAt params index → (codeNames roots params)[index]? = some name →
    (codeNames roots params)[other]? = some name → other = index

/-- A list has a name of its own for each parameter: it has as many names without dots as there are
parameters, and no pattern takes the name of another one. The count alone would not do: the
documentation may bring in as many names as patterns take away. -/
structure KeepsParams (roots : List String) (params : List (Tree ParamDecl))
    (listed : List Param) : Prop where
  count : params.length ≤ (rootNames listed).toFinset.card
  ownNames : OwnNames roots params

/-- No documented name at the place of a pattern, and no number where there is none, is the name of
another parameter. There are four ways for a name to be taken, by a given name or by another
pattern, and each for a documented name and for a number. Two numbers are never alike. -/
structure PatternsApart (roots : List String) (params : List (Tree ParamDecl)) : Prop where
  documented : ∀ index name, IsPatternAt params index → roots[index]? = some name →
    name ∉ givenNames params
  numbered : ∀ index, IsPatternAt params index → roots.length ≤ index →
    "arg" ++ toString index ∉ givenNames params
  distinct : ∀ index other name, IsPatternAt params index → IsPatternAt params other →
    roots[index]? = some name → roots[other]? = some name → other = index
  unnumbered : ∀ index other, IsPatternAt params index → IsPatternAt params other →
    roots.length ≤ other → roots[index]? ≠ some ("arg" ++ toString other)

section Names

/-- Numbers make different names. So two patterns that are both behind the documentation stay
apart. -/
theorem arg_name_inj : "arg" ++ toString index = "arg" ++ toString other ↔ index = other := by
  rw [String.append_right_inj]
  exact Nat.repr_inj

/-- A name made of a number has no dot. -/
theorem dot_not_mem_arg_name (index : Nat) : '.' ∉ ("arg" ++ toString index).toList := by
  intro present
  have digits : (toString index).toList = Nat.toDigits 10 index := Nat.toList_repr
  rw [String.toList_append, digits, List.mem_append] at present
  rcases present with start | digit
  · exact absurd start (by decide)
  · exact absurd (Nat.isDigit_of_mem_toDigits (by decide) (by decide) digit) (by decide)

/-- The name at a place is that of the parameter there. Places and names are connected here once,
and the lemmas below use nothing else of the list. -/
theorem code_names_get_elem? (roots : List String) (params : List (Tree ParamDecl)) (index : Nat) :
    (codeNames roots params)[index]? =
      params[index]?.map fun param => codeName roots index param.value := by
  rw [codeNames, List.getElem?_map, List.getElem?_zipIdx]
  cases params[index]? <;> simp

/-- The name of a parameter that has one. -/
theorem code_name_of_ne {param : ParamDecl} (named : param.name ≠ "") :
    codeName roots index param = param.name := by
  simp [codeName, named]

/-- The name of a pattern at a documented place. -/
theorem code_name_of_documented {param : ParamDecl} (unnamed : param.name = "")
    (root : roots[index]? = some name) : codeName roots index param = name := by
  simp [codeName, unnamed, root]

/-- The name of a pattern behind the documented places. -/
theorem code_name_of_le {param : ParamDecl} (unnamed : param.name = "")
    (behind : roots.length ≤ index) : codeName roots index param = "arg" ++ toString index := by
  simp [codeName, unnamed, behind]

/-- A given name is that of a parameter. -/
theorem mem_given_names_iff :
    name ∈ givenNames params ↔
      name ≠ "" ∧ ∃ (index : Nat) (param : Tree ParamDecl),
        params[index]? = some param ∧ param.value.name = name := by
  rw [givenNames, List.mem_filter, List.mem_map, and_comm]
  simp only [List.mem_iff_getElem?, Bool.not_eq_true', String.isEmpty_eq_false_iff]
  constructor
  · rintro ⟨filled, param, ⟨index, found⟩, same⟩
    exact ⟨filled, index, param, found, same⟩
  · rintro ⟨filled, index, param, found, same⟩
    exact ⟨filled, param, ⟨index, found⟩, same⟩

/-- A parameter with a name is listed under it. -/
theorem code_names_of_named {param : Tree ParamDecl} (there : params[index]? = some param)
    (named : param.value.name ≠ "") :
    (codeNames roots params)[index]? = some param.value.name := by
  rw [code_names_get_elem?, there, Option.map_some, code_name_of_ne named]

/-- A pattern is listed under the documented name at its place. -/
theorem code_names_of_documented (pattern : IsPatternAt params index)
    (root : roots[index]? = some name) : (codeNames roots params)[index]? = some name := by
  obtain ⟨param, there, unnamed⟩ := pattern
  rw [code_names_get_elem?, there, Option.map_some, code_name_of_documented unnamed root]

/-- A pattern behind the documented places is listed under a name made of its number. -/
theorem code_names_of_le (pattern : IsPatternAt params index) (behind : roots.length ≤ index) :
    (codeNames roots params)[index]? = some ("arg" ++ toString index) := by
  obtain ⟨param, there, unnamed⟩ := pattern
  rw [code_names_get_elem?, there, Option.map_some, code_name_of_le unnamed behind]

/-- The name of a pattern is the documented one at its place, or behind the documented places one
made of its number. It is the case split of all arguments about patterns. -/
theorem name_of_pattern (pattern : IsPatternAt params index)
    (listed : (codeNames roots params)[index]? = some name) :
    roots[index]? = some name ∨ roots.length ≤ index ∧ name = "arg" ++ toString index := by
  rcases Nat.lt_or_ge index roots.length with within | behind
  · have root := List.getElem?_eq_getElem within
    exact .inl (root.trans ((code_names_of_documented pattern root).symm.trans listed))
  · exact .inr ⟨behind, Option.some.inj (listed.symm.trans (code_names_of_le pattern behind))⟩

/-- A name at no place of a pattern is the parameter's own. -/
theorem get_elem?_map_name_of_not_is_pattern_at (noPattern : ¬IsPatternAt params index)
    (listed : (codeNames roots params)[index]? = some name) :
    (params.map fun param => param.value.name)[index]? = some name := by
  rw [code_names_get_elem?] at listed
  obtain ⟨param, there, rfl⟩ := Option.map_eq_some_iff.mp listed
  have filled : param.value.name ≠ "" := fun unnamed => noPattern ⟨param, there, unnamed⟩
  rw [List.getElem?_map, there, Option.map_some, code_name_of_ne filled]

/-- A name at no place of a pattern is one that the declaration gives. -/
theorem mem_given_names_of_not_is_pattern_at (noPattern : ¬IsPatternAt params index)
    (listed : (codeNames roots params)[index]? = some name) : name ∈ givenNames params := by
  have there := get_elem?_map_name_of_not_is_pattern_at noPattern listed
  obtain ⟨param, present, rfl⟩ := Option.map_eq_some_iff.mp (List.getElem?_map.symm.trans there)
  have filled : param.value.name ≠ "" := fun unnamed => noPattern ⟨param, present, unnamed⟩
  exact mem_given_names_iff.mpr ⟨filled, index, param, present, rfl⟩

/-- A given name is listed at the place of a parameter that is no pattern. Given names are not
empty, and a pattern has the empty one. -/
theorem not_is_pattern_at_of_given (given : name ∈ givenNames params) :
    ∃ index, (codeNames roots params)[index]? = some name ∧ ¬IsPatternAt params index := by
  obtain ⟨filled, index, param, there, rfl⟩ := mem_given_names_iff.mp given
  refine ⟨index, code_names_of_named there filled, ?_⟩
  rintro ⟨other, present, unnamed⟩
  obtain rfl := Option.some.inj (there.symm.trans present)
  exact filled unnamed

/-- Entries that are kept and stand there once are at one place. The filter is that of the names
that are given. -/
theorem index_eq_of_nodup_filter {names : List String} {keep : String → Bool}
    (distinct : (names.filter keep).Nodup) (kept : keep name = true)
    (one : names[index]? = some name) (another : names[other]? = some name) : other = index := by
  induction names generalizing index other with
  | nil => simp at one
  | cons first rest inductionHypothesis =>
    have later {place : Nat} (found : rest[place]? = some name) : name ∈ rest.filter keep :=
      List.mem_filter.mpr ⟨List.mem_of_getElem? found, kept⟩
    have others : (rest.filter keep).Nodup :=
      distinct.sublist ((List.sublist_cons_self first rest).filter keep)
    match index, other with
    | 0, 0 => rfl
    | index + 1, other + 1 => rw [inductionHypothesis others one another]
    | 0, other + 1 =>
      obtain rfl : first = name := Option.some.inj one
      rw [List.filter_cons_of_pos kept] at distinct
      exact absurd (later another) (List.nodup_cons.mp distinct).1
    | index + 1, 0 =>
      obtain rfl : first = name := Option.some.inj another
      rw [List.filter_cons_of_pos kept] at distinct
      exact absurd (later one) (List.nodup_cons.mp distinct).1

end Names

section Listed

/-- The name of a field leads to it through a dot. Fields can therefore be told from parameters by
their names alone. -/
theorem dot_mem_of_mem_flatten_fields {param : Param} (owner : String) :
    ∀ fields : List (Tree ParamDecl), param ∈ flattenFields owner fields → '.' ∈ param.name.toList
  | [], listed => by
    rw [flattenFields] at listed
    cases listed
  | .node field inner :: rest, listed => by
    rw [flattenFields, List.mem_append, List.mem_cons] at listed
    rcases listed with (rfl | within) | later
    · simp [ofCode]
    · exact dot_mem_of_mem_flatten_fields _ inner within
    · exact dot_mem_of_mem_flatten_fields owner rest later

/-- The names that stand for whole parameters have no dots. -/
theorem mem_root_names_iff {listed : List Param} :
    name ∈ rootNames listed ↔ name ∈ listed.map Param.name ∧ '.' ∉ name.toList := by
  simp [rootNames, List.mem_filter]

/-- Of the code parameters, those with names without dots are no fields. Behind each parameter its
fields are listed, and these have dots. -/
theorem mem_root_names_flatten_code (params : List (Tree ParamDecl)) (documented : List Param) :
    name ∈ rootNames (flattenCode params documented) ↔
      name ∈ codeNames (rootNames documented) params ∧ '.' ∉ name.toList := by
  rw [mem_root_names_iff, and_congr_left_iff]
  intro dotFree
  simp only [flattenCode, codeNames, List.map_flatMap, List.mem_flatMap, List.mem_map]
  refine exists_congr fun entry => and_congr_right fun _ => ?_
  obtain ⟨⟨param, fields⟩, index⟩ := entry
  rw [flatten]
  constructor
  · rintro ⟨listed, among, rfl⟩
    rcases List.mem_cons.mp among with rfl | field
    · rfl
    · exact absurd (dot_mem_of_mem_flatten_fields _ fields field) dotFree
  · rintro rfl
    exact ⟨_, List.mem_cons_self, rfl⟩

/-- The names that are listed are the documented ones and those of the code. A documented parameter
and a code parameter of one name become one entry, and every other one has its own. -/
theorem mem_names_reconcile {code : List Param} :
    name ∈ (reconcile documented code).map Param.name ↔
      name ∈ documented.map Param.name ∨ name ∈ code.map Param.name := by
  have rules := reconciled_reconcile documented code
  by_cases none : documented = []
  · rw [rules.undocumented none, none]
    simp
  · rw [rules.names none, List.mem_append, List.mem_eraseDups, List.mem_filter, decide_eq_true_eq]
    tauto

/-- Where the code gives names without dots, no name of a parameter has any. Documented names for
whole parameters and numbers have no dots either. -/
theorem dot_free_code_names (given : ∀ name ∈ givenNames params, '.' ∉ name.toList)
    (listed : name ∈ codeNames (rootNames documented) params) : '.' ∉ name.toList := by
  obtain ⟨index, found⟩ := List.mem_iff_getElem?.mp listed
  by_cases pattern : IsPatternAt params index
  · rcases name_of_pattern pattern found with root | ⟨-, rfl⟩
    · exact (mem_root_names_iff.mp (List.mem_of_getElem? root)).2
    · exact dot_not_mem_arg_name index
  · exact given name (mem_given_names_of_not_is_pattern_at pattern found)

/-- The names without dots that are listed are the documented ones and those of the parameters. -/
theorem to_finset_root_names_reconcile (named : NamedApart params) (documented : List Param) :
    (rootNames (reconcile documented (flattenCode params documented))).toFinset =
      (rootNames documented ++ codeNames (rootNames documented) params).toFinset := by
  ext name
  rw [List.mem_toFinset, List.mem_toFinset, List.mem_append, mem_root_names_iff,
    mem_names_reconcile, or_and_right, ← mem_root_names_iff, ← mem_root_names_iff,
    mem_root_names_flatten_code]
  refine or_congr_right (and_iff_left_of_imp fun listed => ?_)
  exact dot_free_code_names named.dotFree listed

end Listed

section Apart

/-- Patterns with names of their own stay apart from the given names and from each other. If one of
the four were violated, a pattern and another parameter would be listed under one name. -/
theorem OwnNames.patterns_apart (ownNames : OwnNames roots params) :
    PatternsApart roots params := by
  have notGiven {index : Nat} {name : String} (pattern : IsPatternAt params index)
      (own : (codeNames roots params)[index]? = some name) : name ∉ givenNames params := by
    intro given
    obtain ⟨other, found, noPattern⟩ := not_is_pattern_at_of_given given
    exact noPattern (ownNames index other name pattern own found ▸ pattern)
  constructor
  case documented =>
    exact fun index name pattern root => notGiven pattern (code_names_of_documented pattern root)
  case numbered =>
    exact fun index pattern behind => notGiven pattern (code_names_of_le pattern behind)
  case distinct =>
    exact fun index other name pattern second root same => ownNames index other name pattern
      (code_names_of_documented pattern root) (code_names_of_documented second same)
  case unnumbered =>
    intro index other pattern second behind root
    obtain rfl := ownNames index other _ pattern (code_names_of_documented pattern root)
      (code_names_of_le second behind)
    obtain ⟨within, -⟩ := List.getElem?_eq_some_iff.mp root
    exact absurd behind (Nat.not_le_of_lt within)

/-- Patterns that stay apart have names of their own. The other parameter is a pattern or has a
given name, and the first name is documented or a number, which are the four ways. -/
theorem PatternsApart.own_names (apart : PatternsApart roots params) : OwnNames roots params := by
  intro index other name pattern own found
  by_cases second : IsPatternAt params other
  · rcases name_of_pattern pattern own with root | ⟨behind, rfl⟩
    · rcases name_of_pattern second found with root' | ⟨behind, rfl⟩
      · exact apart.distinct index other name pattern second root root'
      · exact absurd root (apart.unnumbered index other pattern second behind)
    · rcases name_of_pattern second found with root | ⟨-, same⟩
      · exact absurd root (apart.unnumbered other index second pattern behind)
      · exact (arg_name_inj.mp same).symm
  · have given := mem_given_names_of_not_is_pattern_at second found
    rcases name_of_pattern pattern own with root | ⟨behind, rfl⟩
    · exact absurd given (apart.documented index name pattern root)
    · exact absurd given (apart.numbered index pattern behind)

/-- Parameters have different names when those with a name have and the patterns have their own. If
a name stands at two places, neither of them is a pattern, and two given names differ. -/
theorem nodup_code_names (named : NamedApart params) (ownNames : OwnNames roots params) :
    (codeNames roots params).Nodup := by
  rw [List.nodup_iff_getElem?_ne_getElem?]
  intro index other before within same
  have found := List.getElem?_eq_getElem within
  have own := same.trans found
  by_cases pattern : IsPatternAt params index
  · exact absurd (ownNames index other _ pattern own found) (Nat.ne_of_gt before)
  · by_cases second : IsPatternAt params other
    · exact absurd (ownNames other index _ second found own) (Nat.ne_of_lt before)
    · have kept := (List.mem_filter.mp (mem_given_names_of_not_is_pattern_at pattern own)).2
      have once := index_eq_of_nodup_filter named.distinct kept
        (get_elem?_map_name_of_not_is_pattern_at pattern own)
        (get_elem?_map_name_of_not_is_pattern_at second found)
      exact absurd once (Nat.ne_of_gt before)

end Apart

end Param

section Site

open Param

/-- For parameters whose names are different and hold no dots, the names without dots that are
listed are the documented ones and those of the parameters. They keep the parameters apart exactly
if no pattern has the name of another parameter from the documentation or from a number.

Proof: the names without dots are read off the two lists that are joined. If the patterns have names
of their own, all names of the code are different, so there are as many as parameters, and all of
them are listed. Having names of their own and staying apart are the same by the two facts
before. -/
theorem keeps_params_iff_patterns_apart (site : Site) (named : NamedApart site.declaration.params) :
    (rootNames (reconcile site.documentedParams site.codeParams)).toFinset =
        (rootNames site.documentedParams ++
          codeNames (rootNames site.documentedParams) site.declaration.params).toFinset ∧
      (KeepsParams (rootNames site.documentedParams) site.declaration.params
          (reconcile site.documentedParams site.codeParams) ↔
        PatternsApart (rootNames site.documentedParams) site.declaration.params) := by
  have listed : (rootNames (reconcile site.documentedParams site.codeParams)).toFinset =
      (rootNames site.documentedParams ++
        codeNames (rootNames site.documentedParams) site.declaration.params).toFinset :=
    to_finset_root_names_reconcile named site.documentedParams
  refine ⟨listed, fun keeps => keeps.ownNames.patterns_apart, fun apart => ?_⟩
  refine ⟨?_, apart.own_names⟩
  have distinct := nodup_code_names named apart.own_names
  calc site.declaration.params.length
      = (codeNames (rootNames site.documentedParams) site.declaration.params).length := by
        rw [codeNames, List.length_map, List.length_zipIdx]
    _ = (codeNames (rootNames site.documentedParams) site.declaration.params).toFinset.card :=
        (List.toFinset_card_of_nodup distinct).symm
    _ ≤ (rootNames (reconcile site.documentedParams site.codeParams)).toFinset.card := by
        rw [listed, List.toFinset_append]
        exact Finset.card_le_card Finset.subset_union_right

/-- A function with the parameters and the documented names given. -/
def functionSite (params : List (Tree ParamDecl)) (documented : List String) : Site :=
  { name := "f"
    declaration := { kind := .function, name := some "f", span := ⟨2, 4, 0, 0⟩, params := params }
    location := { file := "a.js", line := 2 }
    order := {}
    doc := some
      { tags := documented.map fun name => { kind := .param, param := some { name := name } } } }

/-- A pattern at a documented place and one behind the documentation stay apart from the named
parameter between them. -/
theorem patterns_around_options :
    let params : List (Tree ParamDecl) := [.node {} [.node { name := "a" } []],
      .node { name := "options" } [], .node {} [.node { name := "b" } []]]
    let site := functionSite params ["first", "options"]
    NamedApart params ∧
      (rootNames (reconcile site.documentedParams site.codeParams)).toFinset =
        {"first", "options", "arg2"} ∧
      KeepsParams ["first", "options"] params
        (reconcile site.documentedParams site.codeParams) := by
  intro params site
  have named : NamedApart params := ⟨by decide, by decide⟩
  have given : givenNames params = ["options"] := by decide
  have patterns {index : Nat} (pattern : IsPatternAt params index) : index = 0 ∨ index = 2 := by
    obtain ⟨param, there, unnamed⟩ := pattern
    match index with
    | 0 => exact .inl rfl
    | 1 =>
      obtain rfl := Option.some.inj there
      exact absurd unnamed (by decide)
    | 2 => exact .inr rfl
    | beyond + 3 => cases there
  have apart : PatternsApart ["first", "options"] params := by
    constructor
    case documented =>
      intro index name pattern root
      rcases patterns pattern with rfl | rfl
      · obtain rfl := Option.some.inj root
        decide
      · cases root
    case numbered =>
      intro index pattern behind
      rcases patterns pattern with rfl | rfl
      · exact absurd behind (by decide)
      · decide
    case distinct =>
      intro index other name pattern second root same
      rcases patterns pattern with rfl | rfl
      · rcases patterns second with rfl | rfl
        · rfl
        · cases same
      · cases root
    case unnumbered =>
      intro index other pattern second _
      rcases patterns pattern with rfl | rfl <;> rcases patterns second with rfl | rfl <;> decide
  obtain ⟨listed, keeps⟩ := keeps_params_iff_patterns_apart site named
  exact ⟨named, listed.trans (by decide), keeps.mpr apart⟩

/-- A pattern behind the documentation has the name of the parameter after it, which is not listed.
Three parameters are declared, and two names without dots are listed. -/
theorem numbered_pattern_hides_param :
    let params : List (Tree ParamDecl) := [.node { name := "x" } [],
      .node {} [.node { name := "a" } []], .node { name := "arg1", typeText := some "number" } []]
    let site := functionSite params ["x"]
    NamedApart params ∧
      reconcile site.documentedParams site.codeParams =
        [{ name := "x" }, { name := "arg1" }, { name := "arg1.a" }] ∧
      (rootNames (reconcile site.documentedParams site.codeParams)).toFinset.card <
        params.length := by
  intro params site
  have listed : reconcile site.documentedParams site.codeParams =
      [{ name := "x" }, { name := "arg1" }, { name := "arg1.a" }] := by cbv
  rw [listed]
  exact ⟨⟨by decide, by decide⟩, rfl, by decide⟩

end Site

end DocGraph
