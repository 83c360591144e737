import DocGraph.Json.Decode
import DocGraph.Tag.Basic

/-!
# Tags in JSON

A canonical kind is its word. Any other kind is an object with its name under the key `other`, so
that no name can be taken for a canonical kind.

What is written is read back as it was. Where a kind is written as an object, a reader may allow
something in place of null under its word.
-/

namespace DocGraph

open Json

namespace TagKind

/-- Write a kind. Only kinds without a canonical word are written as objects. -/
def toJson : TagKind → Json
  | other name => .object [("other", .text name)]
  | kind => .text kind.word

/-- Read a kind. The object for other kinds is tried first. -/
def ofJson? (isFiller : Json → Bool) : Json → Option TagKind
  | .object [("other", .text name)] => some (other name)
  | value => word? isFiller (named? canonical word) value

end TagKind

namespace TagParam

/-- Write the name part of a tag. -/
def toJson (param : TagParam) : Json :=
  .object [("name", .text param.name), ("optional", .bool param.isOptional),
    ("default", ofOption .text param.defaultText), ("variadic", .bool param.isVariadic)]

/-- Read the name part of a tag. -/
def ofJson? (value : Json) : Option TagParam := do
  let fields ← fields? value
  return {
    name := ← required fields "name" text?
    isOptional := ← required fields "optional" bool?
    defaultText := ← optional fields "default" text?
    isVariadic := ← required fields "variadic" bool? }

end TagParam

namespace Tag

/-- Write a tag. -/
def toJson (tag : Tag) : Json :=
  .object [("kind", tag.kind.toJson), ("type_expr", ofOption .text tag.typeExpr),
    ("param", ofOption TagParam.toJson tag.param), ("args", ofList .text tag.args),
    ("body", .text tag.body)]

/-- Read a tag. -/
def ofJson? (isFiller : Json → Bool) (value : Json) : Option Tag := do
  let fields ← fields? value
  return {
    kind := ← required fields "kind" (TagKind.ofJson? isFiller)
    typeExpr := ← optional fields "type_expr" text?
    param := ← optional fields "param" TagParam.ofJson?
    args := ← required fields "args" (list? text?)
    body := ← required fields "body" text? }

end Tag

end DocGraph
