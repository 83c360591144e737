import DocGraph.Json.Basic
import DocGraph.Tree

/-!
# Reading records from JSON

A record is an object. Its known fields may stand in any order but at most once each, and fields it
does not know are ignored. A field is required, or has a default that stands in only when the field
is missing, or is optional, in which case null and absence both mean that there is no value.

A decoder gives a value or nothing. There is no message, since the one thing that matters is whether
the text is accepted. Decoders for parts are put together to decoders for records, field by field.
-/

namespace DocGraph.Json

/-- The fields of an object in their written order. Their order matters to the writer only. -/
abbrev Fields := List (String × Json)

/-- The content of a string. -/
def text? : Json → Option String
  | text content => some content
  | _ => none

/-- A truth value. -/
def bool? : Json → Option Bool
  | bool value => some value
  | _ => none

/-- A natural number of at most 32 bits. Larger numbers are refused and not cut off. -/
def uint32? : Json → Option UInt32
  | natural value => if value < UInt32.size then some (UInt32.ofNat value) else none
  | _ => none

/-- An array of items that can all be read. One item that cannot be read spoils the list. -/
def list? {α : Type} (decode : Json → Option α) : Json → Option (List α)
  | array items => items.mapM decode
  | _ => none

/-- The fields of an object. -/
def fields? : Json → Option Fields
  | object fields => some fields
  | _ => none

/-- A value, or null for none. A decoder that accepts null itself is never asked about it. -/
def orNull? {α : Type} (decode : Json → Option α) : Json → Option (Option α)
  | null => some none
  | value => (decode value).map some

/-- The member of a list that a word names. Words of one list are different, so at most one member
is named. -/
def named? {α : Type} (all : List α) (word : α → String) (text : String) : Option α :=
  all.find? fun candidate => word candidate = text

/-- Whether a value is null. -/
def isNull : Json → Bool
  | null => true
  | _ => false

/-- Whether a value holds nothing: null, or an object without fields. It is more liberal than
`isNull`, as some places are. -/
def isVacant : Json → Bool
  | null => true
  | object [] => true
  | _ => false

/-- A word from a fixed list. It may also be written as an object with the word
as its only key, and under it a value that says nothing more. What counts as such
a value depends on the place. -/
def word? {α : Type} (isFiller : Json → Bool) (ofWord : String → Option α) : Json → Option α
  | text word => ofWord word
  | object [(word, value)] => if isFiller value then ofWord word else none
  | _ => none

/-- The value of a field, if the record has it. A field that stands twice makes the record
unreadable. There are three outcomes: the record is at fault, the field is missing, or there is a
value. -/
def field? (fields : Fields) (key : String) : Option (Option Json) :=
  match fields.filter fun field => field.1 = key with
  | [] => some none
  | [(_, value)] => some (some value)
  | _ => none

/-- A field that has to be there. A field that is missing is as bad as one that cannot be read. -/
def required {α : Type} (fields : Fields) (key : String) (decode : Json → Option α) : Option α :=
  match field? fields key with
  | some (some value) => decode value
  | _ => none

/-- A field with a default for its absence. A value that cannot be read is not replaced by the
default. -/
def defaulted {α : Type} (fields : Fields) (key : String) (fallback : α)
    (decode : Json → Option α) : Option α :=
  match field? fields key with
  | some (some value) => decode value
  | some none => some fallback
  | none => none

/-- A field that may be missing or null. -/
def optional {α : Type} (fields : Fields) (key : String) (decode : Json → Option α) :
    Option (Option α) :=
  defaulted fields key none (orNull? decode)

mutual

/-- A tree of records in which the children of a record stand in an array under a fixed key. A
record without that key has no children. The fields of a record are read by one decoder, which
passes over the key of the children. -/
def tree? {α : Type} (key : String) (decode : Fields → Option α) : Json → Option (Tree α)
  | object fields =>
    match decode fields, childTrees? key decode fields with
    | some value, some children => some (.node value children)
    | _, _ => none
  | _ => none

/-- The children of the record with the given fields. The key may stand anywhere among the fields,
but once. -/
def childTrees? {α : Type} (key : String) (decode : Fields → Option α) :
    List (String × Json) → Option (List (Tree α))
  | [] => some []
  | (name, value) :: rest =>
    if name = key then
      if rest.any fun field => field.1 = key then none else forest? key decode value
    else childTrees? key decode rest

/-- An array of trees. -/
def forest? {α : Type} (key : String) (decode : Fields → Option α) :
    Json → Option (List (Tree α))
  | array items => trees? key decode items
  | _ => none

/-- Every item as a tree. -/
def trees? {α : Type} (key : String) (decode : Fields → Option α) :
    List Json → Option (List (Tree α))
  | [] => some []
  | first :: rest =>
    match tree? key decode first, trees? key decode rest with
    | some tree, some trees => some (tree :: trees)
    | _, _ => none

end

mutual

/-- Write a tree of records, the children of each under a fixed key after its own fields. The array
is written even if it is empty. -/
def ofTree {α : Type} (key : String) (encode : α → Fields) : Tree α → Json
  | .node value children => object (encode value ++ [(key, array (ofTrees key encode children))])

/-- Write every tree of a forest. -/
def ofTrees {α : Type} (key : String) (encode : α → Fields) : List (Tree α) → List Json
  | [] => []
  | first :: rest => ofTree key encode first :: ofTrees key encode rest

end

/-- Write a forest as an array. -/
def ofForest {α : Type} (key : String) (encode : α → Fields) (forest : List (Tree α)) : Json :=
  array (ofTrees key encode forest)

/-- A 32-bit number is read back from its written form. Nothing is lost, since the number is below
the bound. -/
@[simp]
theorem uint32?_of_uint32 (value : UInt32) : uint32? (ofUInt32 value) = some value := by
  have small : value.toNat < UInt32.size := value.toNat_lt
  simp [uint32?, ofUInt32, small]

end DocGraph.Json
