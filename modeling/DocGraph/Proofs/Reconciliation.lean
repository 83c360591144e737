import Mathlib
import DocGraph.Draft.Declared
import DocGraph.Proofs.Collecting
import DocGraph.Proofs.ParameterSources

/-!
# Documented parameters and those of the code

The parameters of a declaration with any documented ones are listed in two parts. First come the
documented parameters in their order; what their documentation leaves open is taken from the first
code parameter of the same name. Behind them come the code parameters whose names are not
documented, the first of each name. Where nothing is documented, the code parameters are the list.

The documented parameters are those of the usable tags, and the code parameters are those of the
declaration with the fields of their patterns, each pattern before its fields. Neither list is taken
as given here: what they hold is described by the records they come from.

A warning is given for each documented parameter whose default differs from that of the code, and
for no other. It is a warning about types where the two values stand for the same text once the
quotes around them are left out.

The rules are stated as relations between the lists, in terms of the first parameter of a name.
Nothing is assumed about names, which may repeat in either list and may be empty.
-/

namespace DocGraph

namespace Param

/-- The first parameter of a name. It is nothing if no parameter has the name. -/
def firstNamed (params : List Param) (name : String) : Option Param :=
  params.find? fun param => param.name = name

/-- A documented parameter is kept, and what it leaves open comes from the code parameter of its
name. Type and default are taken over only where the documentation has none, and the marks are
joined. -/
structure CompletedBy (code : List Param) (documented completed : Param) : Prop where
  name : completed.name = documented.name
  description : completed.description = documented.description
  typeText : completed.typeText =
    documented.typeText.or ((firstNamed code documented.name).bind Param.typeText)
  defaultText : completed.defaultText =
    documented.defaultText.or ((firstNamed code documented.name).bind Param.defaultText)
  isOptional : completed.isOptional = true ↔ documented.isOptional = true ∨
    ∃ param, firstNamed code documented.name = some param ∧ param.isOptional = true
  isVariadic : completed.isVariadic = true ↔ documented.isVariadic = true ∨
    ∃ param, firstNamed code documented.name = some param ∧ param.isVariadic = true

/-- The parameters that are listed for documented and for code parameters. The names of the added
ones are given in order, so with the last field the second part of the list is determined. -/
structure Reconciled (documented code listed : List Param) : Prop where
  undocumented : documented = [] → listed = code
  names : documented ≠ [] → listed.map Param.name = documented.map Param.name ++
    ((code.map Param.name).filter fun name => name ∉ documented.map Param.name).eraseDups
  completed : documented ≠ [] →
    List.Forall₂ (CompletedBy code) documented (listed.take documented.length)
  added : documented ≠ [] → ∀ param ∈ listed.drop documented.length,
    firstNamed code param.name = some param

/-- A default is stated that is not the actual one. A default that is stated where the code has none
is not judged. -/
structure Disagree (code : List Param) (documented : Param) (stated actual : String) : Prop where
  states : documented.defaultText = some stated
  actually : (firstNamed code documented.name).bind Param.defaultText = some actual
  differ : stated ≠ actual

/-- The kind of a warning about two defaults. Two values that stand for the same text may still
differ, as a number does from a text with that number. -/
inductive MismatchKind (stated actual : String) : DiagnosticKind → Prop where
  | type (agree : ∃ inside, Denotes stated inside ∧ Denotes actual inside) :
      MismatchKind stated actual .defaultTypeMismatch
  | value (differ : ¬∃ inside, Denotes stated inside ∧ Denotes actual inside) :
      MismatchKind stated actual .defaultMismatch

/-- The warning about two defaults. The message names the parameter and both defaults as they are
written. -/
def mismatch (location : Location) (name stated actual : String) (kind : DiagnosticKind) :
    Diagnostic :=
  { kind := kind
    message := "parameter `" ++ name ++ "`: documented default " ++ stated ++
      " differs from code default " ++ actual ++ ", using " ++ stated
    location := some location }

/-- One warning for each documented parameter with two defaults, in the order of the parameters.
Parameters without a disagreement are passed over, so the order of the warnings is that of the
parameters. -/
inductive Warns (location : Location) (code : List Param) :
    List Param → List Diagnostic → Prop where
  | nil : Warns location code [] []
  | agree {param : Param} {rest : List Param} {warnings : List Diagnostic}
      (agree : ¬∃ stated actual, Disagree code param stated actual)
      (others : Warns location code rest warnings) : Warns location code (param :: rest) warnings
  | warn {param : Param} {rest : List Param} {warnings : List Diagnostic} {stated actual : String}
      {kind : DiagnosticKind} (disagree : Disagree code param stated actual)
      (mismatched : MismatchKind stated actual kind) (others : Warns location code rest warnings) :
      Warns location code (param :: rest)
        (mismatch location param.name stated actual kind :: warnings)

variable {documented code : List Param} {param : Param} {location : Location}

section Lists

/-- A documented parameter as it is listed. It is the function that the list is made by, parameter
by parameter. -/
def completeFrom (code : List Param) (documented : Param) : Param :=
  match codeFor? code documented with
  | some found => complete documented found
  | none => documented

/-- A documented parameter is listed completed, and what it is completed to is determined field by
field. -/
theorem completed_by_iff {completed : Param} :
    CompletedBy code param completed ↔ completed = completeFrom code param := by
  have made : CompletedBy code param (completeFrom code param) := by
    unfold completeFrom
    have named : codeFor? code param = firstNamed code param.name := rfl
    rw [named]
    cases found : firstNamed code param.name with
    | none => constructor <;> simp [found]
    | some declared => constructor <;> simp [found, complete]
  constructor
  · intro rules
    have optional : completed.isOptional = (completeFrom code param).isOptional :=
      Bool.eq_iff_iff.mpr (rules.isOptional.trans made.isOptional.symm)
    have variadic : completed.isVariadic = (completeFrom code param).isVariadic :=
      Bool.eq_iff_iff.mpr (rules.isVariadic.trans made.isVariadic.symm)
    have name := rules.name.trans made.name.symm
    have description := rules.description.trans made.description.symm
    have typeText := rules.typeText.trans made.typeText.symm
    have defaultText := rules.defaultText.trans made.defaultText.symm
    exact Param.ext name typeText description defaultText optional variadic
  · rintro rfl
    exact made

/-- Documented parameters are listed completed one by one, and so the completed ones are determined
by their list. -/
theorem all_completed_iff {front : List Param} :
    List.Forall₂ (CompletedBy code) documented front ↔
      front = documented.map (completeFrom code) := by
  constructor
  · intro completed
    induction completed with
    | nil => rfl
    | cons first _ inductionHypothesis =>
      rw [completed_by_iff.mp first, inductionHypothesis, List.map_cons]
  · rintro rfl
    rw [List.forall₂_map_right_iff, List.forall₂_same]
    exact fun param _ => completed_by_iff.mpr rfl

/-- Code parameters are added when no parameter has their name. In this form the laws of collecting
apply to it. -/
theorem append_missing_eq (params code : List Param) :
    appendMissing params code = params ++
      (code.filter fun param => param.name ∉ params.map Param.name).foldl
        (collectByKey Param.name keepEntry) [] := by
  rw [← foldl_collect_by_key_keep_entry, collect_by_key_keep_entry]
  rfl

/-- The parameters that are added have the names that were missing, in the order in which they were
first seen. A name is added once, however often the code has it. -/
theorem names_added (documented code : List Param) :
    ((code.filter fun param => param.name ∉ documented.map Param.name).foldl
      (collectByKey Param.name keepEntry) []).map Param.name =
      ((code.map Param.name).filter fun name => name ∉ documented.map Param.name).eraseDups := by
  rw [map_key_collected Param.name keepEntry fun _ _ => rfl, List.filter_map]
  rfl

/-- A parameter that is added is the first one of its name. Documented names have been filtered out
before, and that does not change which one is the first of another name. -/
theorem first_named_of_added (added : param ∈ (code.filter fun param =>
      param.name ∉ documented.map Param.name).foldl (collectByKey Param.name keepEntry) []) :
    firstNamed code param.name = some param := by
  have first := find?_key_of_mem_collected added
  have missing := (List.mem_filter.mp (List.mem_of_find?_eq_some first)).2
  rw [List.find?_filter] at first
  rw [firstNamed, ← first]
  refine congrArg (fun accept => code.find? accept) (funext fun other => ?_)
  by_cases same : other.name = param.name
  · simp only [same, missing, decide_true, and_self]
  · simp [same]

/-- Parameters are reconciled by the rules. Where nothing is documented, code parameters of one name
are all kept. -/
theorem reconciled_reconcile (documented code : List Param) :
    Reconciled documented code (reconcile documented code) := by
  by_cases none : documented = []
  · constructor
    case undocumented => exact fun _ => none ▸ rfl
    all_goals exact fun some => absurd none some
  · have whole : reconcile documented code = documented.map (completeFrom code) ++
        (code.filter fun param => param.name ∉ documented.map Param.name).foldl
          (collectByKey Param.name keepEntry) [] := by
      have names : (documented.map (completeFrom code)).map Param.name =
          documented.map Param.name := by
        rw [List.map_map]
        exact List.map_congr_left fun param _ => (completed_by_iff.mpr rfl).name
      rw [reconcile, if_neg (by simpa using none), ← names]
      exact append_missing_eq _ _
    have length : (documented.map (completeFrom code)).length = documented.length :=
      List.length_map _
    constructor
    case undocumented => exact fun same => absurd same none
    case names =>
      intro _
      rw [whole, List.map_append, names_added, List.map_map]
      refine congrArg (· ++ _) ?_
      exact List.map_congr_left fun param _ => (completed_by_iff.mpr rfl).name
    case completed =>
      intro _
      rw [whole, List.take_left' length]
      exact all_completed_iff.mpr rfl
    case added =>
      intro _ param listed
      rw [whole, List.drop_left' length] at listed
      exact first_named_of_added listed

/-- The rules leave no choice between two lists. The documented parts are the same one by one; the
names behind them are the same, and under each of them both lists have the first code parameter. -/
theorem Reconciled.unique {listed others : List Param} (one : Reconciled documented code listed)
    (other : Reconciled documented code others) : listed = others := by
  by_cases none : documented = []
  · rw [one.undocumented none, other.undocumented none]
  · have names : listed.map Param.name = others.map Param.name :=
      (one.names none).trans (other.names none).symm
    have fronts : listed.take documented.length = others.take documented.length := by
      rw [all_completed_iff.mp (one.completed none), all_completed_iff.mp (other.completed none)]
    have rears : listed.drop documented.length = others.drop documented.length := by
      refine eq_of_map_key_eq (by rw [List.map_drop, List.map_drop, names])
        fun param present twin among same => ?_
      have first := one.added none param present
      rw [same] at first
      exact Option.some.inj (first.symm.trans (other.added none twin among))
    rw [← List.take_append_drop documented.length listed, fronts, rears, List.take_append_drop]

end Lists

section Warnings

/-- The kind of a warning about two defaults is decided by what they stand for. -/
theorem mismatch_kind_iff {stated actual : String} {kind : DiagnosticKind} :
    MismatchKind stated actual kind ↔
      kind = if unquoted stated = unquoted actual then .defaultTypeMismatch
        else .defaultMismatch := by
  constructor
  · rintro (agree | differ)
    · exact (if_pos (unquoted_eq_iff.mpr agree)).symm
    · exact (if_neg (mt unquoted_eq_iff.mp differ)).symm
  · rintro rfl
    by_cases same : unquoted stated = unquoted actual
    · rw [if_pos same]
      exact .type (unquoted_eq_iff.mp same)
    · rw [if_neg same]
      exact .value (mt unquoted_eq_iff.mpr same)

/-- Two different defaults give a warning about them, and otherwise there is none. Both defaults are
those of `Disagree`: the look-up by name that the code makes is the one that `firstNamed` makes. The
two cases exclude each other, so a warning is given for a disagreement and for nothing else. -/
theorem warning_cases (location : Location) (code : List Param) (param : Param) :
    (∃ stated actual kind, Disagree code param stated actual ∧ MismatchKind stated actual kind ∧
      (codeFor? code param).bind (defaultWarning? location param) =
        some (mismatch location param.name stated actual kind)) ∨
    (¬∃ stated actual, Disagree code param stated actual) ∧
      (codeFor? code param).bind (defaultWarning? location param) = none := by
  have named : codeFor? code param = firstNamed code param.name := rfl
  rw [named]
  cases found : firstNamed code param.name with
  | none =>
    refine .inr ⟨?_, rfl⟩
    rintro ⟨stated, actual, disagree⟩
    have actually := disagree.actually
    rw [found] at actually
    cases actually
  | some declared =>
    rw [Option.bind_some]
    unfold defaultWarning?
    split
    · next stated actual states actually =>
      by_cases same : stated = actual
      · refine .inr ⟨?_, if_pos same⟩
        rintro ⟨_, _, disagree⟩
        have known := disagree.actually
        rw [found, Option.bind_some] at known
        obtain rfl := Option.some.inj (states.symm.trans disagree.states)
        obtain rfl := Option.some.inj (actually.symm.trans known)
        exact disagree.differ same
      · refine .inl ⟨stated, actual, _, ⟨states, ?_, same⟩,
          mismatch_kind_iff.mpr rfl, if_neg same⟩
        rw [found, Option.bind_some, actually]
    · next missing =>
      refine .inr ⟨?_, rfl⟩
      rintro ⟨stated, actual, disagree⟩
      have known := disagree.actually
      rw [found, Option.bind_some] at known
      exact missing stated actual disagree.states known

/-- Warnings are given by the rules. The induction is on the documented parameters, with one rule
for each of the two cases. -/
theorem warns_reconcile_warnings (location : Location) (documented code : List Param) :
    Warns location code documented (reconcileWarnings location documented code) := by
  induction documented with
  | nil => exact .nil
  | cons param rest inductionHypothesis =>
    unfold reconcileWarnings
    rw [List.filterMap_cons]
    rcases warning_cases location code param with
      ⟨stated, actual, kind, disagree, mismatched, given⟩ | ⟨agree, none⟩
    · rw [given]
      exact .warn disagree mismatched inductionHypothesis
    · rw [none]
      exact .agree agree inductionHypothesis

/-- The rules leave no choice between two lists of warnings. A parameter has two defaults at most,
and these decide whether there is a warning and which. -/
theorem Warns.unique {warnings others : List Diagnostic}
    (one : Warns location code documented warnings)
    (other : Warns location code documented others) : warnings = others := by
  induction one generalizing others with
  | nil =>
    cases other
    rfl
  | agree agree _ inductionHypothesis =>
    cases other with
    | agree _ rest => exact inductionHypothesis rest
    | warn disagree _ _ => exact absurd ⟨_, _, disagree⟩ agree
  | warn disagree mismatched _ inductionHypothesis =>
    cases other with
    | agree agree _ => exact absurd ⟨_, _, disagree⟩ agree
    | warn again alike rest =>
      obtain rfl := Option.some.inj (disagree.states.symm.trans again.states)
      obtain rfl := Option.some.inj (disagree.actually.symm.trans again.actually)
      rw [mismatch_kind_iff.mp mismatched, mismatch_kind_iff.mp alike, inductionHypothesis rest]

end Warnings

end Param

namespace Site

/-- The entity of a site has parameters: it is a function or a class, and not declared as one half
of an accessor. Entities of other kinds list no parameters, whatever their comments say. -/
structure HasParams (site : Site) : Prop where
  noGetter : site.declaration.kind ≠ .getter
  noSetter : site.declaration.kind ≠ .setter
  kind : site.kind = .function ∨ site.kind = .classEntity

/-- The documented parameters of a site are those of its comment, if it has one. -/
theorem documented_in_site (site : Site) :
    Param.DocumentedIn ((site.doc.map DocComment.tags).getD []) site.documentedParams := by
  unfold documentedParams
  cases site.doc with
  | none => exact .nil
  | some doc => exact Param.documented_in_tags doc

/-- The parameters and the warnings of a site are those of its draft. The draft is documented first,
and its parameters are set from both lists afterwards. -/
theorem params_draft {site : Site} (has : site.HasParams) (scope : Scope) :
    (site.draft scope).entity.params =
        Param.reconcile site.documentedParams site.codeParams ∧
      site.warnings =
        Param.reconcileWarnings site.location site.documentedParams site.codeParams := by
  have lists : site.listsParams = true := by
    unfold listsParams
    split
    · next getter => exact absurd getter has.noGetter
    · next setter => exact absurd setter has.noSetter
    · simpa using has.kind
  constructor
  · unfold draft
    dsimp only
    unfold completeEntity
    split
    · next getter => exact absurd getter has.noGetter
    · next setter => exact absurd setter has.noSetter
    · rw [if_pos lists]
  · rw [warnings, if_pos lists]

end Site

/-- **Documented and code parameters are reconciled by the rules.** The documented parameters are
those of the usable tags of the comment, and the code parameters are those of the declaration with
the fields of its patterns in preorder, under the names that lead to them. Where anything is
documented, the documented parameters come first in their order, completed from the code, and behind
them the first code parameter of each name that is not documented; otherwise the list is that of the
code. There is one warning for each documented parameter with two different defaults, in the same
order, and its kind is decided by what the defaults stand for. Each of these four sets of rules is
obeyed by one list, and this is the list that is made. The joined list is that of the draft and the
warnings are its warnings, if the entity has parameters.

Proof: the two lists are read off the records by recursion on the tags and on the patterns. The
joined list is the documented one, parameter by parameter, and behind it what collecting the code
parameters by name adds to it; the warnings follow the documented list. That no other list obeys the
rules is shown along the same recursions, since every rule determines what it adds. -/
theorem parameters_of_site (site : Site) :
    (∀ documented, Param.DocumentedIn ((site.doc.map DocComment.tags).getD []) documented ↔
      documented = site.documentedParams) ∧
    (∀ code, Param.ListsParams (Param.undotted site.documentedParams) 0 site.declaration.params
      code ↔ code = site.codeParams) ∧
    (∀ listed, Param.Reconciled site.documentedParams site.codeParams listed ↔
      listed = Param.reconcile site.documentedParams site.codeParams) ∧
    (∀ warnings, Param.Warns site.location site.codeParams site.documentedParams warnings ↔
      warnings = Param.reconcileWarnings site.location site.documentedParams site.codeParams) ∧
    ∀ scope, site.HasParams →
      (site.draft scope).entity.params =
          Param.reconcile site.documentedParams site.codeParams ∧
        site.warnings =
          Param.reconcileWarnings site.location site.documentedParams site.codeParams := by
  have documents := site.documented_in_site
  have reconciled := Param.reconciled_reconcile site.documentedParams site.codeParams
  have warns :=
    Param.warns_reconcile_warnings site.location site.documentedParams site.codeParams
  refine ⟨fun documented => ?_, fun code => Param.lists_params_iff, fun listed => ?_,
    fun warnings => ?_, fun scope has => Site.params_draft has scope⟩
  · exact ⟨fun others => others.unique documents, fun same => same ▸ documents⟩
  · exact ⟨fun others => others.unique reconciled, fun same => same ▸ reconciled⟩
  · exact ⟨fun others => others.unique warns, fun same => same ▸ warns⟩

/-- A function of a pattern with two fields and of a number. The documentation names the pattern and
one of its fields, and states other defaults than the code. -/
def patternSite : Site :=
  { name := "draw"
    declaration :=
      { kind := .function
        name := some "draw"
        span := ⟨5, 7, 0, 0⟩
        params := [
          .node { typeText := some "Options" } [
            .node { name := "size", defaultText := some "2" } [],
            .node { name := "color", isRest := true } []],
          .node { name := "count", typeText := some "number", defaultText := some "5" } []] }
    location := { file := "a.js", line := 5 }
    order := {}
    doc := some
      { tags := [
          { kind := .param, param := some { name := "opts" }, body := "The options." },
          { kind := .param, param := some { name := "opts.size", defaultText := some "1" } },
          { kind := .param, body := "No name." },
          { kind := .returns },
          { kind := .param, param := some { name := "count", defaultText := some "' 5'" } },
          { kind := .param, typeExpr := some "string"
            param := some { name := "count", defaultText := some " \"5\"" } }] } }

/-- The pattern takes the documented name at its place, so its fields are found; the field that is
not documented comes last. Of the three defaults stated, only the last stands for the actual
value. -/
theorem pattern_site_reconciled :
    patternSite.HasParams ∧
      (patternSite.draft .topLevel).entity.params = [
        { name := "opts", typeText := some "Options", description := "The options." },
        { name := "opts.size", defaultText := some "1", isOptional := true },
        { name := "count", typeText := some "number", defaultText := some "' 5'",
          isOptional := true },
        { name := "count", typeText := some "string", defaultText := some " \"5\"",
          isOptional := true },
        { name := "opts.color", isVariadic := true }] ∧
      patternSite.warnings.map Diagnostic.kind =
        [.defaultMismatch, .defaultMismatch, .defaultTypeMismatch] := by
  have has : patternSite.HasParams := ⟨by decide, by decide, .inl (by decide)⟩
  have documented : patternSite.documentedParams = [
      { name := "opts", description := "The options." },
      { name := "opts.size", defaultText := some "1" },
      { name := "count", defaultText := some "' 5'" },
      { name := "count", typeText := some "string", defaultText := some " \"5\"" }] := by
    decide +kernel
  have code : patternSite.codeParams = [
      { name := "opts", typeText := some "Options" },
      { name := "opts.size", defaultText := some "2", isOptional := true },
      { name := "opts.color", isVariadic := true },
      { name := "count", typeText := some "number", defaultText := some "5",
        isOptional := true }] := by
    rw [Site.codeParams, documented]
    cbv
  obtain ⟨-, -, -, -, drafted⟩ := parameters_of_site patternSite
  obtain ⟨params, warnings⟩ := drafted .topLevel has
  rw [documented, code] at params warnings
  refine ⟨has, params.trans (by decide +kernel), ?_⟩
  rw [warnings]
  decide +kernel

end DocGraph
