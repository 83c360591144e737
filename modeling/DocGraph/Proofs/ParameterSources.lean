import DocGraph.Draft.Declared
import DocGraph.Proofs.Trimming

/-!
# Where parameters come from

The documented parameters of a declaration are given by the tags of its comment, and its code
parameters by the patterns of the declaration. Both are described here by the records they come
from, field by field and without the functions that build the lists; so it is fixed which names,
types, defaults and marks the two lists hold before they are joined.

A code parameter is listed before its fields, and a field is named by the way that leads to it. A
parameter without a name of its own takes the documented name at its place, where only the names
that stand for whole parameters count, and a name made of its number where there is none.

Two defaults are compared without the blanks and the quotes around them. This is described by the
form of the text, too.

The relations are functional: a comment documents one list of parameters, and a declaration lists
one. So what is stated about some list that stands in the relation is stated about the list of the
program.
-/

namespace DocGraph

open Text

namespace Param

variable {value : String} {inside : List Char} {mark : Char}

section Sources

/-- A tag documents a parameter. The name, the default and the marks are those of the name part of
the tag; the type and the description are those of the tag itself. -/
structure DocumentedBy (tag : Tag) (written : TagParam) (param : Param) : Prop where
  name : param.name = written.name
  typeText : param.typeText = tag.typeExpr
  description : param.description = tag.body
  defaultText : param.defaultText = written.defaultText
  isOptional : param.isOptional = written.isOptional
  isVariadic : param.isVariadic = written.isVariadic

/-- The parameters that some tags document, in the order of the tags. A tag of another kind
documents none, and neither does one without a name part. Every tag is used once or passed over, so
no parameter can be left out or invented. -/
inductive DocumentedIn : List Tag → List Param → Prop where
  | nil : DocumentedIn [] []
  | usable {tag : Tag} {written : TagParam} {param : Param} {tags : List Tag} {params : List Param}
      (kind : tag.kind = .param) (named : tag.param = some written)
      (documents : DocumentedBy tag written param) (others : DocumentedIn tags params) :
      DocumentedIn (tag :: tags) (param :: params)
  | other {tag : Tag} {tags : List Tag} {params : List Param}
      (unusable : tag.kind ≠ .param ∨ tag.param = none) (others : DocumentedIn tags params) :
      DocumentedIn (tag :: tags) params

/-- The code declares a parameter that is listed under a name. Code has no description, and what has
a default is optional even without a mark. The name is given along, because it may come from the
documentation or from the owner. -/
structure DeclaredAs (name : String) (declared : ParamDecl) (param : Param) : Prop where
  name : param.name = name
  typeText : param.typeText = declared.typeText
  description : param.description = ""
  defaultText : param.defaultText = declared.defaultText
  isOptional : param.isOptional = true ↔
    declared.isOptional = true ∨ ∃ value, declared.defaultText = some value
  isVariadic : param.isVariadic = declared.isRest

mutual

/-- The parameters listed for a pattern under a name: its own, and behind it those of its
fields. -/
inductive ListsPattern : String → Tree ParamDecl → List Param → Prop where
  | node {name : String} {declared : ParamDecl} {fields : List (Tree ParamDecl)} {param : Param}
      {below : List Param} (itself : DeclaredAs name declared param)
      (within : ListsFields name fields below) :
      ListsPattern name (.node declared fields) (param :: below)

/-- The parameters listed for the fields of a pattern, each with its own fields. The name of a field
stands behind that of its owner and a dot. Nesting has no limit, and fields of fields are named by
the whole way. -/
inductive ListsFields : String → List (Tree ParamDecl) → List Param → Prop where
  | nil {owner : String} : ListsFields owner [] []
  | cons {owner : String} {field : Tree ParamDecl} {rest : List (Tree ParamDecl)}
      {listed others : List Param}
      (first : ListsPattern (owner ++ "." ++ field.value.name) field listed)
      (behind : ListsFields owner rest others) :
      ListsFields owner (field :: rest) (listed ++ others)

end

/-- The documented names without a dot, which stand for whole parameters. A name with a dot
documents a field of one of them. -/
def undotted (documented : List Param) : List String :=
  (documented.map Param.name).filter fun name => '.' ∉ name.toList

/-- The name of the parameter at a place of a declaration. For a given place and documentation it
allows one name; the number counts from zero, as places do. -/
inductive HasName (roots : List String) (index : Nat) (declared : ParamDecl) : String → Prop where
  | own (named : declared.name ≠ "") : HasName roots index declared declared.name
  | documented {name : String} (unnamed : declared.name = "") (root : roots[index]? = some name) :
      HasName roots index declared name
  | numbered (unnamed : declared.name = "") (beyond : roots.length ≤ index) :
      HasName roots index declared ("arg" ++ toString index)

/-- The parameters listed for a declaration from one of its places on. The place is counted along
the declaration, whether its parameters are named or not. -/
inductive ListsParams (roots : List String) : Nat → List (Tree ParamDecl) → List Param → Prop where
  | nil {index : Nat} : ListsParams roots index [] []
  | cons {index : Nat} {param : Tree ParamDecl} {rest : List (Tree ParamDecl)} {name : String}
      {listed others : List Param} (root : HasName roots index param.value name)
      (first : ListsPattern name param listed)
      (behind : ListsParams roots (index + 1) rest others) :
      ListsParams roots index (param :: rest) (listed ++ others)

end Sources

section Documented

variable {documented : List Param} {param : Param}

/-- A tag documents one parameter, which is read off it field by field. -/
theorem documented_by_iff {tag : Tag} {written : TagParam} :
    DocumentedBy tag written param ↔ param = ofTag tag written := by
  constructor
  · rintro ⟨name, typeText, description, defaultText, isOptional, isVariadic⟩
    exact Param.ext name typeText description defaultText isOptional isVariadic
  · rintro rfl
    exact ⟨rfl, rfl, rfl, rfl, rfl, rfl⟩

/-- The parameters of the usable tags stand in the relation. The tags of the kind are selected
before their name parts are looked at, so a tag that is left out is left out by one of the two. -/
theorem documented_in_tags (doc : DocComment) :
    DocumentedIn doc.tags (documentedBy doc .param) := by
  unfold documentedBy DocComment.all
  induction doc.tags with
  | nil => exact .nil
  | cons tag tags inductionHypothesis =>
    by_cases kind : tag.kind = .param
    · have selected : decide (tag.kind = .param) = true := decide_eq_true kind
      rw [List.filter_cons, if_pos selected]
      cases named : tag.param with
      | none =>
        rw [List.filterMap_cons_none (by rw [named]; rfl)]
        exact .other (.inr named) inductionHypothesis
      | some written =>
        rw [List.filterMap_cons_some (by rw [named]; rfl)]
        exact .usable kind named (documented_by_iff.mpr rfl) inductionHypothesis
    · have refused : ¬decide (tag.kind = .param) = true := by simpa using kind
      rw [List.filter_cons, if_neg refused]
      exact .other (.inl kind) inductionHypothesis

/-- Tags document one list of parameters. A tag cannot both be used and be passed over, and what it
documents is determined. -/
theorem DocumentedIn.unique {tags : List Tag} {others : List Param}
    (one : DocumentedIn tags documented) (other : DocumentedIn tags others) :
    documented = others := by
  induction one generalizing others with
  | nil =>
    cases other
    rfl
  | usable kind named documents _ inductionHypothesis =>
    cases other with
    | usable _ again alike rest =>
      obtain rfl := Option.some.inj (named.symm.trans again)
      rw [documented_by_iff.mp documents, documented_by_iff.mp alike, inductionHypothesis rest]
    | other unusable rest =>
      rcases unusable with otherKind | unnamed
      · exact absurd kind otherKind
      · cases named.symm.trans unnamed
  | other unusable _ inductionHypothesis =>
    cases other with
    | usable kind named _ rest =>
      rcases unusable with otherKind | unnamed
      · exact absurd kind otherKind
      · cases named.symm.trans unnamed
    | other _ rest => exact inductionHypothesis rest

end Documented

section Declared

variable {name : String} {param : Param} {listed : List Param}

/-- The code declares one parameter under a name, which is read off it field by field. -/
theorem declared_as_iff {declared : ParamDecl} :
    DeclaredAs name declared param ↔ param = ofCode name declared := by
  constructor
  · rintro ⟨named, typeText, description, defaultText, isOptional, isVariadic⟩
    have mark : param.isOptional = (ofCode name declared).isOptional := by
      rw [Bool.eq_iff_iff, isOptional]
      simp [ofCode, Option.isSome_iff_exists]
    exact Param.ext named typeText description defaultText mark isVariadic
  · rintro rfl
    exact ⟨rfl, rfl, rfl, rfl, by simp [ofCode, Option.isSome_iff_exists], rfl⟩

mutual

/-- A pattern is listed with its fields behind it, and in no other way. The recursion is that of the
pattern, and the name is passed down. -/
theorem lists_pattern_iff : ∀ {name : String} {tree : Tree ParamDecl} {listed : List Param},
    ListsPattern name tree listed ↔ listed = flatten name tree
  | name, .node declared fields, listed => by
    rw [flatten]
    constructor
    · rintro ⟨itself, within⟩
      rw [declared_as_iff.mp itself, lists_fields_iff.mp within]
    · rintro rfl
      exact .node (declared_as_iff.mpr rfl) (lists_fields_iff.mpr rfl)

/-- Fields are listed one after the other, and in no other way. -/
theorem lists_fields_iff : ∀ {owner : String} {fields : List (Tree ParamDecl)}
    {listed : List Param}, ListsFields owner fields listed ↔ listed = flattenFields owner fields
  | owner, [], listed => by
    rw [flattenFields]
    constructor
    · rintro ⟨⟩
      rfl
    · rintro rfl
      exact .nil
  | owner, .node declared inner :: rest, listed => by
    rw [flattenFields]
    constructor
    · rintro (_ | ⟨⟨itself, within⟩, behind⟩)
      rw [declared_as_iff.mp itself, lists_fields_iff.mp within, lists_fields_iff.mp behind]
      rfl
    · rintro rfl
      exact .cons (.node (declared_as_iff.mpr rfl) (lists_fields_iff.mpr rfl))
        (lists_fields_iff.mpr rfl)

end

/-- The documented names for whole parameters are those without a dot. -/
theorem root_names_eq (documented : List Param) : rootNames documented = undotted documented := by
  unfold rootNames undotted
  refine List.filter_congr fun name _ => ?_
  simp

/-- A parameter has its own name, the documented one at its place, or one made of its number.
Whether a name is documented at the place is what decides between the last two. -/
theorem has_name_code_name (roots : List String) (index : Nat) (declared : ParamDecl) :
    HasName roots index declared (codeName roots index declared) := by
  unfold codeName
  by_cases unnamed : declared.name = ""
  · rw [if_pos (String.isEmpty_iff.mpr unnamed)]
    rcases Nat.lt_or_ge index roots.length with within | beyond
    · rw [List.getElem?_eq_getElem within, Option.getD_some]
      exact .documented unnamed (List.getElem?_eq_getElem within)
    · rw [List.getElem?_eq_none beyond, Option.getD_none]
      exact .numbered unnamed beyond
  · rw [if_neg (mt String.isEmpty_iff.mp unnamed)]
    exact .own unnamed

/-- The name at a place is determined. The three rules exclude each other, since a place either has
a documented name or lies beyond all of them. -/
theorem HasName.unique {roots : List String} {index : Nat} {declared : ParamDecl} {other : String}
    (one : HasName roots index declared name) (another : HasName roots index declared other) :
    name = other := by
  cases one with
  | own named =>
    cases another with
    | own _ => rfl
    | documented unnamed _ => exact absurd unnamed named
    | numbered unnamed _ => exact absurd unnamed named
  | documented unnamed root =>
    cases another with
    | own named => exact absurd unnamed named
    | documented _ again => exact Option.some.inj (root.symm.trans again)
    | numbered _ beyond => cases root.symm.trans (List.getElem?_eq_none beyond)
  | numbered unnamed beyond =>
    cases another with
    | own named => exact absurd unnamed named
    | documented _ root => cases root.symm.trans (List.getElem?_eq_none beyond)
    | numbered _ _ => rfl

/-- The code parameters of a declaration are listed place by place, and in no other way. The
induction leaves the first place open, since the rest of the patterns begins one place later. -/
theorem lists_params_iff {params : List (Tree ParamDecl)} {documented : List Param} :
    ListsParams (undotted documented) 0 params listed ↔ listed = flattenCode params documented := by
  unfold flattenCode
  rw [root_names_eq]
  generalize 0 = start
  induction params generalizing start listed with
  | nil =>
    constructor
    · rintro ⟨⟩
      rfl
    · rintro rfl
      exact .nil
  | cons param rest inductionHypothesis =>
    rw [List.zipIdx_cons, List.flatMap_cons]
    have named := has_name_code_name (undotted documented) start param.value
    constructor
    · rintro (_ | ⟨root, first, behind⟩)
      rw [lists_pattern_iff.mp first, (inductionHypothesis (start + 1)).mp behind,
        root.unique named]
    · rintro rfl
      exact .cons named (lists_pattern_iff.mpr rfl) ((inductionHypothesis (start + 1)).mpr rfl)

end Declared

section Unquoting

/-- The characters that can stand around a value. -/
def quoteMarks : List Char := ['"', '\'', '\x60']

/-- What a value stands for: blanks around it do not count, and neither do two quotes of one kind
that it stands between. Only one pair of quotes is left out, and a single quote is no pair. A pair
of quotes around nothing leaves the empty text. -/
inductive Denotes (value : String) : List Char → Prop where
  | quoted {mark : Char} {inside : List Char} (isMark : mark ∈ quoteMarks)
      (trims : TrimsTo value.toList (mark :: inside ++ [mark])) : Denotes value inside
  | bare {core : List Char} (trims : TrimsTo value.toList core)
      (unquoted : ∀ mark ∈ quoteMarks, ∀ inside, core ≠ mark :: inside ++ [mark]) :
      Denotes value core

/-- Two quotes of one kind are taken off exactly where a text stands between them. A single mark is
not cut twice, because the second cut looks behind the first one. -/
theorem drop_quotes_eq_some_iff {text : List Char} :
    (dropFront? [mark] text).bind (dropBack? [mark]) = some inside ↔
      text = mark :: inside ++ [mark] := by
  rw [Option.bind_eq_some_iff]
  constructor
  · rintro ⟨behind, front, back⟩
    rw [(drop_front?_eq_some_iff ..).mp front, (drop_back?_eq_some_iff ..).mp back]
    rfl
  · rintro rfl
    exact ⟨inside ++ [mark], (drop_front?_eq_some_iff ..).mpr rfl,
      (drop_back?_eq_some_iff ..).mpr rfl⟩

/-- A value stands for what is left of it without its quotes. The marks are tried one after the
other; a text stands between two of one kind at most, since its first character decides which. If no
mark succeeds, the trimmed text stands between no two quotes of one kind. -/
theorem denotes_unquoted (value : String) : Denotes value (unquoted value) := by
  have trims : TrimsTo value.toList (trim value.toList) := trim_eq_iff.mp rfl
  have pair {mark : Char} {inside : List Char} (isMark : mark ∈ quoteMarks)
      (found : (dropFront? [mark] (trim value.toList)).bind (dropBack? [mark]) = some inside) :
      Denotes value inside :=
    .quoted isMark (drop_quotes_eq_some_iff.mp found ▸ trims)
  unfold unquoted
  dsimp only
  cases double : (dropFront? ['"'] (trim value.toList)).bind (dropBack? ['"']) with
  | some inside => exact pair (by decide) double
  | none =>
    cases single : (dropFront? ['\''] (trim value.toList)).bind (dropBack? ['\'']) with
    | some inside => exact pair (by decide) single
    | none =>
      cases back : (dropFront? ['\x60'] (trim value.toList)).bind (dropBack? ['\x60']) with
      | some inside => exact pair (by decide) back
      | none =>
        refine .bare trims fun mark isMark inside stands => ?_
        have found := drop_quotes_eq_some_iff.mpr stands
        simp only [quoteMarks, List.mem_cons, List.not_mem_nil, or_false] at isMark
        rcases isMark with rfl | rfl | rfl
        · cases double.symm.trans found
        · cases single.symm.trans found
        · cases back.symm.trans found

/-- A value stands for one text only: the text between the blanks is determined, and so is the quote
that begins it. -/
theorem Denotes.unique {other : List Char} (denotes : Denotes value inside)
    (alike : Denotes value other) : inside = other := by
  have same {one another : List Char} (trims : TrimsTo value.toList one)
      (again : TrimsTo value.toList another) : one = another :=
    (trim_eq_iff.mpr trims).symm.trans (trim_eq_iff.mpr again)
  cases denotes with
  | quoted isMark trims =>
    cases alike with
    | quoted _ again =>
      obtain ⟨rfl, tail⟩ := List.cons.inj (same trims again)
      exact List.append_cancel_right tail
    | bare again unquoted => exact absurd (same again trims) (unquoted _ isMark _)
  | bare trims unquoted =>
    cases alike with
    | quoted isMark again => exact absurd (same trims again) (unquoted _ isMark _)
    | bare again _ => exact same trims again

/-- Two values stand for the same exactly where they are the same without their quotes. It is in
this form that comparing defaults is stated without a function. -/
theorem unquoted_eq_iff {other : String} :
    unquoted value = unquoted other ↔ ∃ inside, Denotes value inside ∧ Denotes other inside := by
  constructor
  · intro same
    exact ⟨unquoted value, denotes_unquoted value, same ▸ denotes_unquoted other⟩
  · rintro ⟨inside, denotes, alike⟩
    rw [(denotes_unquoted value).unique denotes, (denotes_unquoted other).unique alike]

end Unquoting

end Param

end DocGraph
