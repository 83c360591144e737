import DocGraph.Entity.Json
import DocGraph.Json.Printer
import DocGraph.Json.Reader
import DocGraph.Snapshot.Basic

/-!
# Snapshots as JSON text

Entities stand in an object under their paths. The object of an entity holds its own fields and,
when it has members, the object of its members after them. On reading, the members default to none,
and a path that occurs twice among siblings keeps its first position and its last value. Unlike
elsewhere, a part of an entity's object that denotes no value is a fault even in a field that is not
looked at, and a word that is written as a key may have an empty object under it in place of null.

Reading is refused as a whole when any part is not as it should be. There is no partial graph. What
is written is meant for this reader, but the reader does not rely on it.
-/

namespace DocGraph.Snapshot

open Json

/-- The key under which the members of an entity stand. No field of an entity has this name. -/
def membersKey : String := "members"

mutual

/-- Write an entity with its members. The path of the tree is written as the key around it, so it
does not stand here. -/
def treeJson : Tree (NamePath × Entity) → Json
  | .node (_, entity) members => .object (entity.toFields ++ membersField members)

/-- The field with the members, unless there are none. A reader takes a missing field for no
members. -/
def membersField : List (Tree (NamePath × Entity)) → Fields
  | [] => []
  | first :: rest => [(membersKey, .object (forestFields (first :: rest)))]

/-- Write trees under their paths. -/
def forestFields : List (Tree (NamePath × Entity)) → Fields
  | [] => []
  | .node (path, entity) members :: rest =>
    (path.render, treeJson (.node (path, entity) members)) :: forestFields rest

end

/-- Write a snapshot. Superseded entities are written flat, in their order. -/
def toJson (snapshot : Snapshot) : Json :=
  .object ([("module", snapshot.info.toJson), ("member_order", snapshot.memberOrder.toJson),
    ("entities", .object (forestFields snapshot.entities))] ++
    if snapshot.superseded.isEmpty then []
    else [("superseded", ofList Entity.toJson snapshot.superseded)])

/-- Whether every field of an entity's object but the members can be read throughout. The members
are looked at by the reader of trees in any case. -/
def ownFieldsReadable (fields : Fields) : Bool :=
  fields.all fun field => field.1 = membersKey || field.2.isReadable

mutual

/-- Read an entity with its members, to stand under a given path. The path that the fields give is
read too, and stays with the entity. -/
def tree? (path : NamePath) : Json → Option (Tree (NamePath × Entity))
  | .object fields =>
    if ownFieldsReadable fields then
      match Entity.ofFields? isVacant fields, members? fields with
      | some entity, some members => some (.node (path, entity) members)
      | _, _ => none
    else none
  | _ => none

/-- Read the members out of the fields of an entity. A second field of the name makes the entity
unreadable. -/
def members? : List (String × Json) → Option (List (Tree (NamePath × Entity)))
  | [] => some []
  | (name, value) :: rest =>
    if name = membersKey then
      if rest.any fun field => field.1 = membersKey then none else forest? value
    else members? rest

/-- Read an object of entities under their paths. Repeated keys are settled after all trees were
read. -/
def forest? : Json → Option (List (Tree (NamePath × Entity)))
  | .object fields => (trees? fields).map keyed
  | _ => none

/-- Read the entities of several fields. -/
def trees? : List (String × Json) → Option (List (Tree (NamePath × Entity)))
  | [] => some []
  | (name, value) :: rest =>
    match NamePath.parseOrRoot name with
    | .error _ => none
    | .ok path =>
      match tree? path value, trees? rest with
      | some tree, some trees => some (tree :: trees)
      | _, _ => none

end

/-- Read a snapshot. The module and the entities have to be there. -/
def ofJson? (value : Json) : Option Snapshot := do
  let fields ← fields? value
  return {
    info := ← required fields "module" ModuleInfo.ofJson?
    memberOrder := ← defaulted fields "member_order" .declaration MemberOrder.ofJson?
    entities := ← required fields "entities" forest?
    superseded := ← defaulted fields "superseded" [] (list? Entity.ofJson?) }

/-- The text of a snapshot. -/
def render (snapshot : Snapshot) : String := snapshot.toJson.indented

/-- Read the text of a snapshot. -/
def parse? (text : String) : Option Snapshot := (Json.read text).bind ofJson?

end DocGraph.Snapshot

namespace DocGraph.Graph

/-- The text of a graph. It is the text that a user keeps. -/
def toText (graph : Graph) : String := (Snapshot.ofGraph graph).render

/-- Rebuild a graph from its text. A text that does not hold a snapshot gives nothing. -/
def ofText? (text : String) : Option Graph := (Snapshot.parse? text).map Snapshot.toGraph

end DocGraph.Graph
