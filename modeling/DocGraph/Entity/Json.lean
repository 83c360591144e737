import DocGraph.Entity.Basic
import DocGraph.Json.Decode
import DocGraph.NamePath.Json
import DocGraph.Source.Json
import DocGraph.Tag.Json

/-!
# Entities in JSON

Reading and writing of entities and their parts. The fields are written in a fixed order and always
all of them; none has a default on reading, but the path of the parent, the deprecation, the type
and the accessor halves may be missing. The member list of an entity is not part of its record. The
decoders are told what may stand under a word that is written as a key.

What is written here is read back by the readers here, with one exception: a path loses its first
binding. There is no default for a missing field of an entity, apart from those that may be null.
-/

namespace DocGraph

open Json

namespace EntityKind

/-- Write a kind. -/
def toJson (kind : EntityKind) : Json := .text kind.word

/-- Read a kind. -/
def ofJson? (isFiller : Json → Bool) : Json → Option EntityKind :=
  word? isFiller (named? all word)

end EntityKind

namespace Location

/-- Write a location. -/
def toJson (location : Location) : Json :=
  .object [("file", .text location.file), ("line", ofUInt32 location.line)]

/-- Read a location. -/
def ofJson? (value : Json) : Option Location := do
  let fields ← fields? value
  return {
    file := ← required fields "file" text?
    line := ← required fields "line" uint32? }

end Location

namespace SourceOrder

/-- Write a place in the source order. -/
def toJson (order : SourceOrder) : Json :=
  .object [("file", ofUInt32 order.file), ("seq", ofUInt32 order.sequence)]

/-- Read a place in the source order. -/
def ofJson? (value : Json) : Option SourceOrder := do
  let fields ← fields? value
  return {
    file := ← required fields "file" uint32?
    sequence := ← required fields "seq" uint32? }

end SourceOrder

namespace Param

/-- Write a parameter. -/
def toJson (param : Param) : Json :=
  .object [("name", .text param.name), ("type_text", ofOption .text param.typeText),
    ("description", .text param.description), ("default", ofOption .text param.defaultText),
    ("is_optional", .bool param.isOptional), ("is_variadic", .bool param.isVariadic)]

/-- Read a parameter. -/
def ofJson? (value : Json) : Option Param := do
  let fields ← fields? value
  return {
    name := ← required fields "name" text?
    typeText := ← optional fields "type_text" text?
    description := ← required fields "description" text?
    defaultText := ← optional fields "default" text?
    isOptional := ← required fields "is_optional" bool?
    isVariadic := ← required fields "is_variadic" bool? }

end Param

namespace Returns

/-- Write a returned value. -/
def toJson (returned : Returns) : Json :=
  .object [("type_text", ofOption .text returned.typeText),
    ("description", .text returned.description)]

/-- Read a returned value. -/
def ofJson? (value : Json) : Option Returns := do
  let fields ← fields? value
  return {
    typeText := ← optional fields "type_text" text?
    description := ← required fields "description" text? }

end Returns

namespace Throws

/-- Write a raised exception. -/
def toJson (raised : Throws) : Json :=
  .object [("type_text", ofOption .text raised.typeText), ("description", .text raised.description)]

/-- Read a raised exception. -/
def ofJson? (value : Json) : Option Throws := do
  let fields ← fields? value
  return {
    typeText := ← optional fields "type_text" text?
    description := ← required fields "description" text? }

end Throws

namespace TypeParam

/-- Write a type parameter. -/
def toJson (param : TypeParam) : Json :=
  .object [("name", .text param.name), ("constraint", ofOption .text param.constraint),
    ("default", ofOption .text param.defaultText), ("description", .text param.description)]

/-- Read a type parameter. -/
def ofJson? (value : Json) : Option TypeParam := do
  let fields ← fields? value
  return {
    name := ← required fields "name" text?
    constraint := ← optional fields "constraint" text?
    defaultText := ← optional fields "default" text?
    description := ← required fields "description" text? }

end TypeParam

namespace Signature

/-- Write a signature. -/
def toJson (signature : Signature) : Json :=
  .object [("params", ofList Param.toJson signature.params),
    ("returns", ofList Returns.toJson signature.returns),
    ("description", .text signature.description)]

/-- Read a signature. -/
def ofJson? (value : Json) : Option Signature := do
  let fields ← fields? value
  return {
    params := ← required fields "params" (list? Param.ofJson?)
    returns := ← required fields "returns" (list? Returns.ofJson?)
    description := ← required fields "description" text? }

end Signature

namespace AccessorParts

/-- Write the halves of an accessor. -/
def toJson (parts : AccessorParts) : Json :=
  .object [("getter", .bool parts.getter), ("setter", .bool parts.setter)]

/-- Read the halves of an accessor. -/
def ofJson? (value : Json) : Option AccessorParts := do
  let fields ← fields? value
  return {
    getter := ← required fields "getter" bool?
    setter := ← required fields "setter" bool? }

end AccessorParts

namespace RelationKind

/-- Read a kind of relation. -/
def ofJson? (isFiller : Json → Bool) : Json → Option RelationKind :=
  word? isFiller (named? all word)

end RelationKind

namespace Relation

/-- Write a relation. -/
def toJson (relation : Relation) : Json :=
  .object [("kind", .text relation.kind.word), ("target", .text relation.target),
    ("resolved", ofOption NamePath.toJson relation.resolved)]

/-- Read a relation. -/
def ofJson? (isFiller : Json → Bool) (value : Json) : Option Relation := do
  let fields ← fields? value
  return {
    kind := ← required fields "kind" (RelationKind.ofJson? isFiller)
    target := ← required fields "target" text?
    resolved := ← optional fields "resolved" NamePath.ofJson? }

end Relation

namespace Entity

/-- The fields of an entity, in their fixed order. -/
def toFields (entity : Entity) : Fields :=
  [("kind", entity.kind.toJson), ("name", .text entity.name), ("path", entity.path.toJson),
    ("parent", ofOption NamePath.toJson entity.parent), ("location", entity.location.toJson),
    ("order", entity.order.toJson), ("visibility", entity.visibility.toJson),
    ("deprecated", ofOption .text entity.deprecated), ("description", .text entity.description),
    ("tags", ofList Tag.toJson entity.tags), ("params", ofList Param.toJson entity.params),
    ("returns", ofList Returns.toJson entity.returns),
    ("throws", ofList Throws.toJson entity.throws),
    ("type_text", ofOption .text entity.typeText),
    ("type_params", ofList TypeParam.toJson entity.typeParams),
    ("examples", ofList .text entity.examples), ("see_also", ofList .text entity.seeAlso),
    ("properties", ofList Param.toJson entity.properties),
    ("signatures", ofList Signature.toJson entity.signatures),
    ("accessor", ofOption AccessorParts.toJson entity.accessor),
    ("is_static", .bool entity.isStatic), ("is_abstract", .bool entity.isAbstract),
    ("is_optional", .bool entity.isOptional), ("is_constructor", .bool entity.isConstructor),
    ("is_exported", .bool entity.isExported), ("documented", .bool entity.documented),
    ("relations", ofList Relation.toJson entity.relations)]

/-- Write an entity. -/
def toJson (entity : Entity) : Json := .object entity.toFields

/-- Read an entity from its fields. -/
def ofFields? (isFiller : Json → Bool) (fields : Fields) : Option Entity := do
  return {
    kind := ← required fields "kind" (EntityKind.ofJson? isFiller)
    name := ← required fields "name" text?
    path := ← required fields "path" NamePath.ofJson?
    parent := ← optional fields "parent" NamePath.ofJson?
    location := ← required fields "location" Location.ofJson?
    order := ← required fields "order" SourceOrder.ofJson?
    visibility := ← required fields "visibility" (Visibility.ofJson? isFiller)
    deprecated := ← optional fields "deprecated" text?
    description := ← required fields "description" text?
    tags := ← required fields "tags" (list? (Tag.ofJson? isFiller))
    params := ← required fields "params" (list? Param.ofJson?)
    returns := ← required fields "returns" (list? Returns.ofJson?)
    throws := ← required fields "throws" (list? Throws.ofJson?)
    typeText := ← optional fields "type_text" text?
    typeParams := ← required fields "type_params" (list? TypeParam.ofJson?)
    examples := ← required fields "examples" (list? text?)
    seeAlso := ← required fields "see_also" (list? text?)
    properties := ← required fields "properties" (list? Param.ofJson?)
    signatures := ← required fields "signatures" (list? Signature.ofJson?)
    accessor := ← optional fields "accessor" AccessorParts.ofJson?
    isStatic := ← required fields "is_static" bool?
    isAbstract := ← required fields "is_abstract" bool?
    isOptional := ← required fields "is_optional" bool?
    isConstructor := ← required fields "is_constructor" bool?
    isExported := ← required fields "is_exported" bool?
    documented := ← required fields "documented" bool?
    relations := ← required fields "relations" (list? (Relation.ofJson? isFiller)) }

/-- Read an entity. -/
def ofJson? (value : Json) : Option Entity := do ofFields? isNull (← fields? value)

end Entity

namespace ModuleInfo

/-- Write what is said about the module. -/
def toJson (info : ModuleInfo) : Json :=
  .object [("name", .text info.name), ("description", .text info.description),
    ("version", ofOption .text info.version), ("authors", ofList .text info.authors),
    ("license", ofOption .text info.license)]

/-- Read what is said about the module. -/
def ofJson? (value : Json) : Option ModuleInfo := do
  let fields ← fields? value
  return {
    name := ← required fields "name" text?
    description := ← required fields "description" text?
    version := ← optional fields "version" text?
    authors := ← required fields "authors" (list? text?)
    license := ← optional fields "license" text? }

end ModuleInfo

end DocGraph
