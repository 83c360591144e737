import DocGraph.Json.Decode
import DocGraph.Source.Basic

/-!
# Source files in JSON

Reading and writing of source records. Writing always gives every field.

Reading is more liberal than writing: a field that has a default may be left out, and fields that
are not known are ignored.
-/

namespace DocGraph

open Json

namespace Visibility

/-- Read a level. -/
def ofJson? (isFiller : Json → Bool) : Json → Option Visibility := word? isFiller ofWord?

/-- Write a level. -/
def toJson (level : Visibility) : Json := .text level.word

end Visibility

namespace Span

/-- Read a range. -/
def ofJson? (value : Json) : Option Span := do
  let fields ← fields? value
  return {
    startLine := ← required fields "start_line" uint32?
    endLine := ← required fields "end_line" uint32?
    startColumn := ← defaulted fields "start_col" 0 uint32?
    endColumn := ← defaulted fields "end_col" 0 uint32? }

/-- Write a range. -/
def toJson (span : Span) : Json :=
  .object [("start_line", ofUInt32 span.startLine), ("end_line", ofUInt32 span.endLine),
    ("start_col", ofUInt32 span.startColumn), ("end_col", ofUInt32 span.endColumn)]

end Span

namespace SourceComment

/-- Read a comment. -/
def ofJson? (value : Json) : Option SourceComment := do
  let fields ← fields? value
  return {
    text := ← required fields "text" text?
    span := ← required fields "span" Span.ofJson? }

/-- Write a comment. -/
def toJson (comment : SourceComment) : Json :=
  .object [("text", .text comment.text), ("span", comment.span.toJson)]

end SourceComment

namespace ParamDecl

/-- Read a parameter without its fields. -/
def ofFields? (fields : Fields) : Option ParamDecl := do
  return {
    name := ← defaulted fields "name" "" text?
    typeText := ← optional fields "type_text" text?
    defaultText := ← optional fields "default_value" text?
    isOptional := ← defaulted fields "is_optional" false bool?
    isRest := ← defaulted fields "is_rest" false bool? }

/-- Write a parameter without its fields. -/
def toFields (param : ParamDecl) : Fields :=
  [("name", .text param.name), ("type_text", ofOption .text param.typeText),
    ("default_value", ofOption .text param.defaultText), ("is_optional", .bool param.isOptional),
    ("is_rest", .bool param.isRest)]

end ParamDecl

namespace TypeParamDecl

/-- Read a type parameter. -/
def ofJson? (value : Json) : Option TypeParamDecl := do
  let fields ← fields? value
  return {
    name := ← required fields "name" text?
    constraint := ← optional fields "constraint" text?
    defaultText := ← optional fields "default" text? }

/-- Write a type parameter. -/
def toJson (param : TypeParamDecl) : Json :=
  .object [("name", .text param.name), ("constraint", ofOption .text param.constraint),
    ("default", ofOption .text param.defaultText)]

end TypeParamDecl

namespace Declaration

/-- Read a declaration without its children. -/
def ofFields? (fields : Fields) : Option Declaration := do
  return {
    kind := ← required fields "kind" (word? isNull (named? DeclKind.all DeclKind.word))
    name := ← optional fields "name" text?
    span := ← required fields "span" Span.ofJson?
    params := ← defaulted fields "params" [] (forest? "fields" ParamDecl.ofFields?)
    typeParams := ← defaulted fields "type_params" [] (list? TypeParamDecl.ofJson?)
    typeText := ← optional fields "type_text" text?
    isStatic := ← defaulted fields "is_static" false bool?
    isAbstract := ← defaulted fields "is_abstract" false bool?
    isOptional := ← defaulted fields "is_optional" false bool?
    isExported := ← defaulted fields "is_exported" false bool?
    modifier := ← optional fields "modifier" (Visibility.ofJson? isNull)
    supertypes := ← defaulted fields "extends" [] (list? text?)
    interfaces := ← defaulted fields "implements" [] (list? text?)
    hasBody := ← defaulted fields "has_body" true bool?
    target := ← optional fields "target" text? }

/-- Write a declaration without its children. -/
def toFields (declaration : Declaration) : Fields :=
  [("kind", .text declaration.kind.word), ("name", ofOption .text declaration.name),
    ("span", declaration.span.toJson),
    ("params", ofForest "fields" ParamDecl.toFields declaration.params),
    ("type_params", ofList TypeParamDecl.toJson declaration.typeParams),
    ("type_text", ofOption .text declaration.typeText),
    ("is_static", .bool declaration.isStatic), ("is_abstract", .bool declaration.isAbstract),
    ("is_optional", .bool declaration.isOptional), ("is_exported", .bool declaration.isExported),
    ("modifier", ofOption Visibility.toJson declaration.modifier),
    ("extends", ofList .text declaration.supertypes),
    ("implements", ofList .text declaration.interfaces), ("has_body", .bool declaration.hasBody),
    ("target", ofOption .text declaration.target)]

end Declaration

namespace SourceFile

/-- Read a file. -/
def ofJson? (value : Json) : Option SourceFile := do
  let fields ← fields? value
  return {
    path := ← required fields "path" text?
    comments := ← defaulted fields "comments" [] (list? SourceComment.ofJson?)
    declarations := ← defaulted fields "declarations" []
      (forest? "children" Declaration.ofFields?) }

/-- Write a file. -/
def toJson (file : SourceFile) : Json :=
  .object [("path", .text file.path), ("comments", ofList SourceComment.toJson file.comments),
    ("declarations", ofForest "children" Declaration.toFields file.declarations)]

end SourceFile

end DocGraph
