import DocGraph.Comment.Basic
import DocGraph.Source.Basic

/-!
# Documented and code parameters

Documented parameters come first, in the order of the tags. The code supplies types, defaults and
markers that the documentation leaves open, and the parameters it does not mention. Destructured
parameters are listed with their fields, named by dotted paths; a pattern without a name takes the
documented name at its position.

Names decide which documented parameter belongs to which code parameter, and only patterns are told
by their position. The documentation has the last word on a default, with a warning where the code
says something else.
-/

namespace DocGraph

namespace Param

/-- The parameter that a tag documents. The type is that of the tag, and its text is the
description. -/
def ofTag (tag : Tag) (param : TagParam) : Param :=
  { name := param.name
    typeText := tag.typeExpr
    description := tag.body
    defaultText := param.defaultText
    isOptional := param.isOptional
    isVariadic := param.isVariadic }

/-- The parameters documented by the tags of a kind. A tag whose name could not be read has no
parameter and is left out. -/
def documentedBy (doc : DocComment) (kind : TagKind) : List Param :=
  (doc.all kind).filterMap fun tag => tag.param.map (ofTag tag)

/-- A code parameter under a given name. A default makes a parameter optional. -/
def ofCode (name : String) (param : ParamDecl) : Param :=
  { name := name
    typeText := param.typeText
    defaultText := param.defaultText
    isOptional := param.isOptional || param.defaultText.isSome
    isVariadic := param.isRest }

mutual

/-- A code parameter under a given name, followed by its fields. The parameter comes before its
fields, as it would be documented. -/
def flatten (name : String) : Tree ParamDecl → List Param
  | .node param fields => ofCode name param :: flattenFields name fields

/-- The fields of a pattern, named below it. Fields may be patterns again, at any depth. -/
def flattenFields (owner : String) : List (Tree ParamDecl) → List Param
  | [] => []
  | .node field inner :: rest =>
    (ofCode (owner ++ "." ++ field.name) field ::
      flattenFields (owner ++ "." ++ field.name) inner) ++ flattenFields owner rest

end

/-- The documented names that stand for whole parameters. A dotted name is that of a field. -/
def rootNames (documented : List Param) : List String :=
  (documented.map Param.name).filter fun name => !name.toList.contains '.'

/-- The name of the code parameter at a position. Only patterns are written without a name. Past the
documented names one is made up from the position. -/
def codeName (roots : List String) (index : Nat) (param : ParamDecl) : String :=
  if param.name.isEmpty then (roots[index]?).getD ("arg" ++ toString index) else param.name

/-- The code parameters with their fields, in order. It is what the declaration has, under the names
that the documentation would use. -/
def flattenCode (params : List (Tree ParamDecl)) (documented : List Param) : List Param :=
  params.zipIdx.flatMap fun (param, index) =>
    flatten (codeName (rootNames documented) index param.value) param

/-- A value without the quotes around it. Double quotes are tried first, then single and back
quotes. -/
def unquoted (value : String) : List Char :=
  let trimmed := Text.trim value.toList
  let inside (mark : Char) := (Text.dropFront? [mark] trimmed).bind (Text.dropBack? [mark])
  (((inside '"').or (inside '\'')).or (inside '\x60')).getD trimmed

/-- A documented parameter completed by the code parameter of the same name. The name and the
description are those of the documentation. -/
def complete (documented code : Param) : Param :=
  { documented with
    typeText := documented.typeText.or code.typeText
    defaultText := documented.defaultText.or code.defaultText
    isOptional := documented.isOptional || code.isOptional
    isVariadic := documented.isVariadic || code.isVariadic }

/-- The warning about two different defaults of one parameter. Where the values agree but for their
quotes, the kind of the warning says so. -/
def defaultWarning? (location : Location) (documented code : Param) : Option Diagnostic :=
  match documented.defaultText, code.defaultText with
  | some stated, some actual =>
    if stated = actual then none
    else some
      { kind :=
          if unquoted stated = unquoted actual then .defaultTypeMismatch else .defaultMismatch
        message := "parameter `" ++ documented.name ++ "`: documented default " ++ stated ++
          " differs from code default " ++ actual ++ ", using " ++ stated
        location := some location }
  | _, _ => none

/-- The first code parameter of a documented parameter's name. Code can have several parameters of
one name, and then the first one counts. -/
def codeFor? (code : List Param) (documented : Param) : Option Param :=
  code.find? fun candidate => candidate.name = documented.name

/-- Add the code parameters whose names are not there yet. They are added at the end, in the order
of the code. -/
def appendMissing (params code : List Param) : List Param :=
  code.foldl
    (fun collected param =>
      if collected.any fun held => held.name = param.name then collected
      else collected ++ [param]) params

/-- The parameters of a declaration with the given documented and code parameters. Without
documentation the code is listed as it is, even where a name repeats. -/
def reconcile (documented code : List Param) : List Param :=
  if documented.isEmpty then code
  else
    appendMissing
      (documented.map fun param =>
        match codeFor? code param with
        | some found => complete param found
        | none => param)
      code

/-- The warnings about differing defaults, in the order of the documentation. Parameters that only
one side has give no warning. -/
def reconcileWarnings (location : Location) (documented code : List Param) : List Diagnostic :=
  documented.filterMap fun param => (codeFor? code param).bind (defaultWarning? location param)

end Param

end DocGraph
