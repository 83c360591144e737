import DocGraph.Comment.Group
import DocGraph.Comment.Link
import DocGraph.Comment.Paragraph
import DocGraph.Tag.Basic

/-!
# Reading one tag

Each tag is read on its own from its name and its lines, so a fault in one tag cannot reach another.
A faulty tag keeps what was read before the fault and takes the rest of its text as its body.

Most kinds of tags are read alike: an optional type, an argument if the kind takes one, and text.
Parameters, references and examples have a grammar of their own.
-/

namespace DocGraph.Comment

open Text

/-- Why a tag could not be read to its end. All of them leave the tag in the comment. -/
inductive TagFault where
  | unterminatedBrace
  | unterminatedBracket
  | missingName
deriving DecidableEq

/-- The wording of a fault. -/
def TagFault.message : TagFault → String
  | unterminatedBrace => "unterminated `\x7b`"
  | unterminatedBracket => "unterminated `[`"
  | missingName => "missing name"

/-- A tag, with the fault that cut its reading short. There is always a tag, with or without a
fault. -/
structure TagReading where
  tag : Tag
  fault : Option TagFault := none
deriving DecidableEq

/-- Text behind an optional dash. Only one dash is dropped. -/
def stripDash (text : List Char) : List Char :=
  match trim text with
  | '-' :: rest => trimStart rest
  | plain => plain

/-- A tag whose remaining text becomes its body because of a fault. So no text is lost, and the
parts that were read stay. -/
def keptAsText (tag : Tag) (rest : List Char) (fault : TagFault) : TagReading :=
  ⟨{ tag with body := String.ofList (trim rest) }, some fault⟩

/-- A type in braces at the start of a text, and what follows it. A text that begins otherwise has
no type, which is no fault. -/
def readType (text : List Char) : Except TagFault (Option (List Char) × List Char) :=
  match splitBraces text with
  | .absent => .ok (none, text)
  | .found content after => .ok (some (trim content), trimStart after)
  | .unterminated => .error .unterminatedBrace

/-- The argument of a tag. A supertype may also be given as the type alone. A type that stands for
the argument is kept as the type as well. -/
def readArgument (kind : TagKind) (typeExpr : Option (List Char)) (text : List Char) :
    List String × List Char :=
  if kind.takesArgument then
    match splitWord isBlank text, typeExpr with
    | ([], _), some type =>
      if kind = .augments ∨ kind = .implements then ([String.ofList type], text) else ([], text)
    | ([], _), none => ([], text)
    | (word, after), _ => ([String.ofList word], after)
  else ([], text)

/-- A tag with an optional type, an argument if its kind takes one, and text. An open brace is the
only fault. -/
def readTyped (kind : TagKind) (text : List Char) : TagReading :=
  let start := trimStart text
  match readType start with
  | .error fault => keptAsText { kind := kind } start fault
  | .ok (typeExpr, rest) =>
    let (args, after) := readArgument kind typeExpr rest
    { tag := {
        kind := kind
        typeExpr := typeExpr.map String.ofList
        args := args
        body := String.ofList (stripDash after) } }

/-- The name part in square brackets: a name, and a default behind an equals sign. The default runs
to the end of the group and may hold further equals signs. -/
def optionalName (content : List Char) : TagParam :=
  match cutFirst? '=' content with
  | some (name, written) =>
    { name := String.ofList (trim name)
      isOptional := true
      defaultText :=
        if (trim written).isEmpty then none else some (String.ofList (trim written)) }
  | none => { name := String.ofList (trim content), isOptional := true }

/-- The name part of a parameter, and what follows it. A name in square brackets is optional, and a
bare one runs to the next blank. -/
def readName (text : List Char) : Except TagFault (TagParam × List Char) :=
  match splitBrackets text with
  | .found content after => .ok (optionalName content, trimStart after)
  | .unterminated => .error .unterminatedBracket
  | .absent =>
    let (word, after) := splitWord isBlank text
    .ok ({ name := String.ofList word }, after)

/-- Three dots before a name make the parameter variadic. The dots are not part of the name. -/
def spreadName (param : TagParam) : TagParam :=
  match dropFront? "...".toList param.name.toList with
  | some name => { param with name := String.ofList name, isVariadic := true }
  | none => param

/-- Three dots before a type make the parameter variadic. -/
def spreadType (param : TagParam) (type : List Char) : TagParam × List Char :=
  match dropFront? "...".toList type with
  | some plain => ({ param with isVariadic := true }, plain)
  | none => (param, type)

/-- An equals sign after a type makes the parameter optional. -/
def optionalType (param : TagParam) (type : List Char) : TagParam × List Char :=
  match dropBack? ['='] type with
  | some plain => ({ param with isOptional := true }, plain)
  | none => (param, type)

/-- A parameter tag from its complete parts. The marks at the name are read before those at the
type. -/
def paramTag (kind : TagKind) (param : TagParam) (typeExpr : Option (List Char))
    (rest : List Char) : Tag :=
  let named := spreadName param
  let body := String.ofList (stripDash rest)
  match typeExpr with
  | none => { kind := kind, param := some named, body := body }
  | some type =>
    let (spread, unspread) := spreadType named type
    let (marked, plain) := optionalType spread unspread
    { kind := kind
      typeExpr := some (String.ofList (trim plain))
      param := some marked
      body := body }

/-- A parameter or property tag. The type may stand before or after the name. A second type is
looked for only when there is no first one, and each fault keeps the parts before it. -/
def readParam (kind : TagKind) (text : List Char) : TagReading :=
  let start := trimStart text
  match readType start with
  | .error fault => keptAsText { kind := kind } start fault
  | .ok (leading, afterType) =>
    let typed : Tag := { kind := kind, typeExpr := leading.map String.ofList }
    match readName afterType with
    | .error fault => keptAsText typed afterType fault
    | .ok (param, afterName) =>
      if param.name.isEmpty then keptAsText typed afterName .missingName
      else
        match leading with
        | some type => ⟨paramTag kind param (some type) afterName, none⟩
        | none =>
          match readType afterName with
          | .error fault => keptAsText { kind := kind, param := some param } afterName fault
          | .ok (trailing, rest) => ⟨paramTag kind param trailing rest, none⟩

/-- A reference tag: a link, or a word and text. A reference has no faults. -/
def readSee (text : List Char) : Tag :=
  let whole := trim text
  match link? whole with
  | some link =>
    { kind := .see, args := [String.ofList link.target], body := String.ofList link.text }
  | none =>
    let (word, rest) := splitWord isBlank whole
    { kind := .see
      args := if word.isEmpty then [] else [String.ofList word]
      body := String.ofList (stripDash rest) }

/-- Whether nothing follows the name on the tag's own line. Such a tag has no argument, even if
later lines have text. -/
def Block.isBareHead (block : Block) : Bool :=
  match block.lines with
  | [] => true
  | own :: _ => allBlank own

/-- Read a tag. Arguments come from the tag's own line only; text on later lines
is description. -/
def Block.read (block : Block) : TagReading :=
  let kind := TagKind.ofName (String.ofList block.name)
  match kind with
  | .exampleTag => { tag := { kind := kind, body := String.ofList (exampleText block.lines) } }
  | .param | .property => readParam kind (unwrap block.lines)
  | .see => { tag := readSee (unwrap block.lines) }
  | _ =>
    if kind.takesArgument && block.isBareHead then
      { tag := { kind := kind, body := String.ofList (unwrap block.lines) } }
    else readTyped kind (unwrap block.lines)

end DocGraph.Comment
