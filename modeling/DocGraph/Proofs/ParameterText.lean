import DocGraph.Proofs.TagParts

/-!
# Parameters as they are written

A parameter is written with a type in braces, a name and a description. Three dots before the type
make it variadic, an equals sign behind the type makes it optional, and so do square brackets around
the name, in which a default may follow. Every combination of these is read back exactly, if the
parts are free of the signs that the notation itself gives a meaning: the type may hold braces and
the default square brackets, as long as they are balanced outside of quotes.

The type may as well stand behind the name. Nothing about the tag depends on its place.

Reading takes a parameter apart from left to right and resolves the marks in the end. So the proofs
go from left to right, too: the group in braces, the name token, the rest; and then the dots and the
equals sign are taken off the parts. The place of the type only matters to the first half.
-/

namespace DocGraph.Text

variable {front back text : List Char}

/-- A front edge stays exactly when the text does not begin with it. -/
theorem drop_front?_eq_none_iff : dropFront? front text = none ↔ ¬front <+: text := by
  rw [Option.eq_none_iff_forall_ne_some, ← not_exists]
  refine not_congr (exists_congr fun rest => ?_)
  rw [drop_front?_eq_some_iff, eq_comm]

/-- A back edge stays exactly when the text does not end with it. -/
theorem drop_back?_eq_none_iff : dropBack? back text = none ↔ ¬back <:+ text := by
  rw [Option.eq_none_iff_forall_ne_some, ← not_exists]
  refine not_congr (exists_congr fun rest => ?_)
  rw [drop_back?_eq_some_iff, eq_comm]

end DocGraph.Text

namespace DocGraph.Comment

open Text

variable {kind : TagKind} {type token rest content name : List Char}

section Position

/-- A name as it stands in a tag: a word, or a complete group in square brackets that holds a name
and may hold a default. A word that began with a brace would be taken for a type, and one with a
square bracket for a group. -/
inductive IsNameToken : List Char → Prop where
  | word {word : List Char} (filled : word ≠ []) (solid : ∀ c ∈ word, isBlank c = false)
      (noBrace : word.head? ≠ some '{') (noBracket : word.head? ≠ some '[') : IsNameToken word
  | group {content : List Char}
      (complete : splitBrackets ('[' :: content ++ [']']) = .found content [])
      (named : (optionalName content).name ≠ "") : IsNameToken ('[' :: content ++ [']'])

/-- A parameter with its type before its name. The space behind the brace is not needed for reading;
it is how people write. -/
def typeFirst (type token rest : List Char) : List Char :=
  '{' :: type ++ '}' :: ' ' :: (token ++ ' ' :: rest)

/-- A parameter with its type behind its name. The same parts in the other order, with nothing added
or left out. -/
def nameFirst (type token rest : List Char) : List Char :=
  token ++ ' ' :: ('{' :: type ++ '}' :: ' ' :: rest)

/-- A name does not begin with a blank or a brace. -/
theorem IsNameToken.begins (isToken : IsNameToken token) (rest : List Char) :
    trimStart (token ++ rest) = token ++ rest ∧ (token ++ rest).head? ≠ some '{' := by
  cases isToken with
  | word filled solid noBrace _ =>
    rw [List.head?_append_of_ne_nil _ filled]
    refine ⟨trim_start_of_solid_head fun c first => solid c ?_, noBrace⟩
    rw [List.head?_append_of_ne_nil _ filled] at first
    exact List.mem_of_mem_head? first
  | group complete named => exact ⟨trim_start_cons (by decide), by simp⟩

/-- A name is read as the same parameter, whatever follows it. The parameter does not depend on the
rest, so both notations give the same one. -/
theorem IsNameToken.exists_read_name (isToken : IsNameToken token) :
    ∃ param, param.name ≠ "" ∧
      ∀ rest, readName (token ++ ' ' :: rest) = .ok (param, trimStart rest) := by
  cases isToken with
  | word filled solid _ noBracket =>
    refine ⟨{ name := String.ofList token }, ?_, fun rest => ?_⟩
    · simpa using filled
    · refine read_name_word ?_ solid filled fun c first => ?_
      · rwa [List.head?_append_of_ne_nil _ filled]
      · cases first
        rfl
  | @group content complete named =>
    refine ⟨optionalName content, named, fun rest => ?_⟩
    have balanced := ((split_group_eq_found_iff brackets).mp complete).2
    rw [List.append_assoc]
    exact read_name_group balanced (' ' :: rest)

/-- What is read of a parameter with its type before its name. The premises on the name are those
that a token fulfils, and those that a well-formed name part does. -/
theorem read_param_type_first {param : TagParam} (balanced : Balanced '{' '}' type)
    (begins : trimStart (token ++ ' ' :: rest) = token ++ ' ' :: rest) (filled : param.name ≠ "")
    (named : readName (token ++ ' ' :: rest) = .ok (param, trimStart rest)) :
    readParam kind (typeFirst type token rest) =
      ⟨paramTag kind param (some (trim type)) (trimStart rest), none⟩ := by
  have whole : trimStart (typeFirst type token rest) = typeFirst type token rest :=
    trim_start_cons (by decide)
  have typed : readType (typeFirst type token rest) =
      .ok (some (trim type), trimStart (' ' :: (token ++ ' ' :: rest))) :=
    read_type_group balanced _
  have next : trimStart (' ' :: (token ++ ' ' :: rest)) = token ++ ' ' :: rest := begins
  rw [next] at typed
  exact read_param_of_leading (whole.symm ▸ typed) named filled

/-- **The place of the type does not matter.** A parameter is read alike whether its type stands
before or behind its name, and in both cases without a fault.

Proof: the name is read as the same parameter in both notations. With the type in front, the group
is split off first; with the type behind, no type is found at the start, and the group is split off
behind the name. In both cases the tag is made of the same parameter, type and rest. -/
theorem read_param_type_moved (complete : splitBraces ('{' :: type ++ ['}']) = .found type [])
    (isToken : IsNameToken token) (rest : List Char) :
    readParam kind (typeFirst type token rest) = readParam kind (nameFirst type token rest) ∧
      (readParam kind (typeFirst type token rest)).fault = none := by
  have balanced := ((split_group_eq_found_iff braces).mp complete).2
  obtain ⟨param, filled, named⟩ := isToken.exists_read_name
  have before : readParam kind (typeFirst type token rest) =
      ⟨paramTag kind param (some (trim type)) (trimStart rest), none⟩ :=
    read_param_type_first balanced (isToken.begins _).1 filled (named rest)
  have behind : readParam kind (nameFirst type token rest) =
      ⟨paramTag kind param (some (trim type)) (trimStart rest), none⟩ := by
    obtain ⟨solid, noBrace⟩ := isToken.begins (' ' :: ('{' :: type ++ '}' :: ' ' :: rest))
    have untyped : readType (trimStart (nameFirst type token rest)) =
        .ok (none, nameFirst type token rest) := by
      rw [nameFirst, solid]
      exact read_type_of_no_brace noBrace
    have typed : readType ('{' :: type ++ '}' :: ' ' :: rest) =
        .ok (some (trim type), trimStart rest) := read_type_group balanced (' ' :: rest)
    have next : trimStart ('{' :: type ++ '}' :: ' ' :: rest) =
        '{' :: type ++ '}' :: ' ' :: rest := trim_start_cons (by decide)
    exact read_param_of_trailing untyped (named _) filled (next.symm ▸ typed)
  exact ⟨before.trans behind.symm, congrArg TagReading.fault before⟩

/-- A type with a spread, an equals sign and quoted braces. -/
def crowdedType : List Char := "...Map<'\x7d', \"\x7b\">=".toList

/-- A crowded type can stand before or behind a name with dots and a default, also when the text
begins with a brace. -/
theorem crowded_type_moved :
    splitBraces ('{' :: crowdedType ++ ['}']) = .found crowdedType [] ∧
      IsNameToken ('[' :: "...list=[']', [1]]".toList ++ [']']) ∧
      readParam .param (typeFirst crowdedType "[...list=[']', [1]]]".toList "\x7bx\x7d".toList) =
        readParam .param (nameFirst crowdedType "[...list=[']', [1]]]".toList
          "\x7bx\x7d".toList) := by
  have complete : splitBraces ('{' :: crowdedType ++ ['}']) = .found crowdedType [] := by decide
  have isToken : IsNameToken ('[' :: "...list=[']', [1]]".toList ++ [']']) :=
    .group (by decide) (by decide)
  exact ⟨complete, isToken, (read_param_type_moved complete isToken _).1⟩

end Position

section Notation

/-- How the name of a parameter is written. An empty default is no form of its own; the equals sign
would be dropped. -/
inductive NameForm where
  | bare
  /-- In square brackets. -/
  | bracketed
  /-- In square brackets, with a default behind an equals sign. -/
  | withDefault (text : List Char)

/-- The default of a name. -/
def NameForm.default? : NameForm → Option (List Char)
  | .withDefault text => some text
  | _ => none

/-- Whether a name is in square brackets. -/
def NameForm.isOptional : NameForm → Bool
  | .bare => false
  | _ => true

/-- A name in its form. -/
def NameForm.render (name : List Char) : NameForm → List Char
  | .bare => name
  | .bracketed => '[' :: name ++ [']']
  | .withDefault text => '[' :: (name ++ '=' :: text) ++ [']']

/-- A parameter in parts. Every combination of form and marks is allowed. -/
structure WrittenParam where
  type : List Char
  name : List Char
  body : List Char
  form : NameForm := .bare
  /-- Whether three dots stand before the type. -/
  isSpread : Bool := false
  /-- Whether an equals sign stands behind the type. -/
  isMarked : Bool := false

namespace WrittenParam

/-- The type with its marks. -/
def typeText (param : WrittenParam) : List Char :=
  (if param.isSpread then "...".toList else []) ++
    (param.type ++ if param.isMarked then ['='] else [])

/-- The parameter as it is written. -/
def text (param : WrittenParam) : List Char :=
  typeFirst param.typeText (param.form.render param.name) param.body

/-- What the name part says of a parameter. -/
def named (param : WrittenParam) : TagParam where
  name := String.ofList param.name
  isOptional := param.form.isOptional
  defaultText := param.form.default?.map String.ofList

/-- The tag that a parameter stands for. It is given by the parts and not by the text, so nothing of
the reading enters into it. -/
def tag (kind : TagKind) (param : WrittenParam) : Tag where
  kind := kind
  typeExpr := some (String.ofList param.type)
  param := some {
    name := String.ofList param.name
    isOptional := param.form.isOptional || param.isMarked
    defaultText := param.form.default?.map String.ofList
    isVariadic := param.isSpread }
  body := String.ofList param.body

/-- The parts hold no signs that the notation itself gives a meaning where they stand. Each
condition excludes a text that would be read otherwise. A type that ends in an equals sign would be
marked, and a description that begins with a dash would lose it. -/
structure IsWellFormed (param : WrittenParam) : Prop where
  typeTrimmed : trim param.type = param.type
  typeBalanced : Balanced '{' '}' param.type
  typeUnspread : ¬"...".toList <+: param.type
  typeUnmarked : param.type.getLast? ≠ some '='
  nameFilled : param.name ≠ []
  namePlain : ∀ c ∈ param.name, isBlank c = false ∧ isQuote c = false ∧ c ≠ '=' ∧ c ≠ '[' ∧ c ≠ ']'
  nameUnspread : ¬"...".toList <+: param.name
  defaultFilled : ∀ text ∈ param.form.default?, text ≠ []
  defaultTrimmed : ∀ text ∈ param.form.default?, trim text = text
  defaultBalanced : ∀ text ∈ param.form.default?, Balanced '[' ']' text
  bodyTrimmed : trim param.body = param.body
  bodyUndashed : param.body.head? ≠ some '-'

variable {param : WrittenParam}

/-- The type with its marks is a type again. The marks are neither blanks nor brackets or quotes. -/
theorem IsWellFormed.type_text (well : param.IsWellFormed) :
    trim param.typeText = param.typeText ∧ Balanced '{' '}' param.typeText := by
  have dots (isSpread : Bool) :
      trim (if isSpread then "...".toList else []) = (if isSpread then "...".toList else []) ∧
        Balanced '{' '}' (if isSpread then "...".toList else []) := by
    cases isSpread <;> decide
  have mark (isMarked : Bool) :
      trim (if isMarked then ['='] else []) = (if isMarked then ['='] else []) ∧
        Balanced '{' '}' (if isMarked then ['='] else []) := by
    cases isMarked <;> decide
  obtain ⟨dotsTrimmed, dotsBalanced⟩ := dots param.isSpread
  obtain ⟨markTrimmed, markBalanced⟩ := mark param.isMarked
  constructor
  · exact trim_append dotsTrimmed (trim_append well.typeTrimmed markTrimmed)
  · exact dotsBalanced.append (well.typeBalanced.append markBalanced)

/-- The name part does not begin with a blank. -/
theorem IsWellFormed.begins (well : param.IsWellFormed) (rest : List Char) :
    trimStart (param.form.render param.name ++ rest) = param.form.render param.name ++ rest := by
  obtain ⟨type, name, body, form, isSpread, isMarked⟩ := param
  cases form with
  | bare =>
    refine trim_start_of_solid_head fun c first => ?_
    rw [NameForm.render, List.head?_append_of_ne_nil _ well.nameFilled] at first
    exact (well.namePlain c (List.mem_of_mem_head? first)).1
  | bracketed => exact trim_start_cons (by decide)
  | withDefault text => exact trim_start_cons (by decide)

/-- The name part is read as it is written.

Proof: one case for each form. A bare name is a word; in brackets it is a balanced group, in which
the first equals sign separates name and default. -/
theorem IsWellFormed.read_name (well : param.IsWellFormed) (rest : List Char) :
    Comment.readName (param.form.render param.name ++ ' ' :: rest) =
      .ok (param.named, trimStart rest) := by
  obtain ⟨type, name, body, form, isSpread, isMarked⟩ := param
  have solid : ∀ c ∈ name, isBlank c = false := fun c present => (well.namePlain c present).1
  have trimmed : trim name = name := trim_of_solid solid
  have unequal : '=' ∉ name := fun present => (well.namePlain _ present).2.2.1 rfl
  have plain : Balanced '[' ']' name := balanced_of_plain fun c present =>
    have own := well.namePlain c present
    ⟨own.2.1, own.2.2.2.1, own.2.2.2.2⟩
  cases form with
  | bare =>
    refine read_name_word ?_ solid well.nameFilled fun c first => ?_
    · rw [NameForm.render, List.head?_append_of_ne_nil _ well.nameFilled]
      exact fun bracket => (well.namePlain _ (List.mem_of_mem_head? bracket)).2.2.2.1 rfl
    · cases first
      rfl
  | bracketed =>
    have read : optionalName name = { name := String.ofList name, isOptional := true } := by
      rw [optionalName, cut_first?_eq_none unequal, trimmed]
    rw [NameForm.render, List.append_assoc, List.singleton_append, read_name_group plain, read]
    rfl
  | withDefault text =>
    have filled : ¬(trim text).isEmpty = true := by
      rw [well.defaultTrimmed text rfl, List.isEmpty_iff]
      exact well.defaultFilled text rfl
    have read : optionalName (name ++ '=' :: text) =
        { name := String.ofList name, isOptional := true, defaultText := String.ofList text } := by
      rw [optionalName, cut_first?_append unequal]
      dsimp only
      rw [if_neg filled, well.defaultTrimmed text rfl, trimmed]
    have balanced : Balanced '[' ']' (name ++ '=' :: text) :=
      plain.append (.plain (by decide) (by decide) (by decide) (well.defaultBalanced text rfl))
    rw [NameForm.render, List.append_assoc, List.singleton_append, read_name_group balanced, read]
    rfl

/-- Dots before the type are taken off and make the parameter variadic. The type itself does not
begin with dots, so no more are taken off. -/
theorem IsWellFormed.spread_type (well : param.IsWellFormed) (named : TagParam)
    (single : named.isVariadic = false) :
    Comment.spreadType named param.typeText =
      ({ named with isVariadic := param.isSpread },
        param.type ++ if param.isMarked then ['='] else []) := by
  cases spread : param.isSpread with
  | true =>
    have dotted : dropFront? "...".toList param.typeText =
        some (param.type ++ if param.isMarked then ['='] else []) := by
      rw [drop_front?_eq_some_iff, WrittenParam.typeText, spread]
      rfl
    rw [Comment.spreadType, dotted]
  | false =>
    have whole : param.typeText = param.type ++ if param.isMarked then ['='] else [] := by
      rw [WrittenParam.typeText, spread]
      rfl
    have undotted : dropFront? "...".toList param.typeText = none := by
      rw [drop_front?_eq_none_iff, whole]
      split
      · -- The dots cannot reach over the equals sign, which is none of them.
        rw [List.prefix_concat_iff]
        rintro (reaches | within)
        · exact absurd (congrArg List.getLast? reaches) (by simp)
        · exact well.typeUnspread within
      · rw [List.append_nil]
        exact well.typeUnspread
    rw [Comment.spreadType, undotted, whole, ← single]

/-- An equals sign behind the type is taken off and makes the parameter optional. -/
theorem IsWellFormed.optional_type (well : param.IsWellFormed) (named : TagParam) :
    Comment.optionalType named (param.type ++ if param.isMarked then ['='] else []) =
      ({ named with isOptional := named.isOptional || param.isMarked }, param.type) := by
  cases param.isMarked with
  | true =>
    have marked : dropBack? ['='] (param.type ++ ['=']) = some param.type :=
      (drop_back?_eq_some_iff ..).mpr rfl
    rw [if_pos rfl, Comment.optionalType, marked, Bool.or_true]
  | false =>
    have unmarked : dropBack? ['='] param.type = none := by
      rw [drop_back?_eq_none_iff]
      rintro ⟨front, same⟩
      exact well.typeUnmarked (same ▸ List.getLast?_concat)
    rw [if_neg Bool.false_ne_true, List.append_nil, Comment.optionalType, unmarked, Bool.or_false]

/-- The marks are resolved to the tag that the parameter stands for. The name has no dots of its
own, and the body no dash, so both stay. -/
theorem IsWellFormed.param_tag (well : param.IsWellFormed) (kind : TagKind) :
    Comment.paramTag kind param.named (some param.typeText) param.body = param.tag kind := by
  have name : spreadName param.named = param.named := by
    have plain : param.named.name.toList = param.name := String.toList_ofList
    have unspread : dropFront? "...".toList param.named.name.toList = none := by
      rw [drop_front?_eq_none_iff, plain]
      exact well.nameUnspread
    rw [spreadName, unspread]
  have body : stripDash param.body = param.body := by
    rw [stripDash, well.bodyTrimmed]
    split
    · next dashed => exact absurd (congrArg List.head? dashed) well.bodyUndashed
    · rfl
  rw [Comment.paramTag, name, body]
  dsimp only
  rw [well.spread_type _ rfl]
  dsimp only
  rw [well.optional_type, well.typeTrimmed]
  rfl

end WrittenParam

/-- **A parameter is read back as it was written**, in every combination of its marks.

Proof: the type with its marks is balanced and trimmed, so it is split off whole. The name part is
read in its form, and the rest is the body. Resolving the marks then gives the tag. -/
theorem read_param_text {param : WrittenParam} (well : param.IsWellFormed) (kind : TagKind) :
    readParam kind param.text = ⟨param.tag kind, none⟩ := by
  obtain ⟨trimmed, balanced⟩ := well.type_text
  have filled : param.named.name ≠ "" := by
    simpa [WrittenParam.named] using well.nameFilled
  rw [WrittenParam.text,
    read_param_type_first balanced (well.begins _) filled (well.read_name param.body), trimmed,
    trim_start_of_trim well.bodyTrimmed, well.param_tag]

/-- A parameter with all marks, quoted brackets in its type and its default, and an equals sign in
its default. -/
def crowded : WrittenParam where
  type := "Map<'\x7d', \x7ba: \"\x7b\"\x7d>".toList
  name := "opts.list".toList
  body := "The list - or none.".toList
  form := .withDefault "[']', [a=1, \"\\\"]\"]]".toList
  isSpread := true
  isMarked := true

/-- All parts of the crowded parameter are read back. -/
theorem crowded_read_back :
    crowded.IsWellFormed ∧
      readParam .property ("\x7b...Map<'\x7d', \x7ba: \"\x7b\"\x7d>=\x7d ".toList ++
          "[opts.list=[']', [a=1, \"\\\"]\"]]] The list - or none.".toList) =
        ⟨{ kind := .property
           typeExpr := "Map<'\x7d', \x7ba: \"\x7b\"\x7d>"
           param := some {
             name := "opts.list"
             isOptional := true
             defaultText := "[']', [a=1, \"\\\"]\"]]"
             isVariadic := true }
           body := "The list - or none." }, none⟩ := by
  have well : crowded.IsWellFormed :=
    ⟨by decide, by decide, by decide, by decide, by decide,
      List.forall_iff_forall_mem.mp (by decide), by decide, by decide, by decide, by decide,
      by decide, by decide⟩
  exact ⟨well, read_param_text well .property⟩

end Notation

end DocGraph.Comment
