/-!
# JSON values

Objects are lists of fields in their written order. The only numbers that carry information here are
naturals; every other numeral is remembered as a numeral and nothing more, since no record of the
model is written with one.

Some texts are well-formed JSON and still denote no value: a string whose escapes name half of a
surrogate pair, a numeral beyond the range of binary64, a bracket nested too deeply. Such a part is
`unreadable`. It does no harm where it is skipped, and makes every record fail that has to look at
it.

A value is a tree of its parts, and functions on values are defined by recursion on it, with one
companion for the items of an array and one for the fields of an object.
-/

namespace DocGraph

/-- A JSON value. Keys of an object may repeat here, since it depends on the reader what that
means. -/
inductive Json where
  | null
  | bool (value : Bool)
  /-- A numeral with neither sign, fraction nor exponent. -/
  | natural (value : Nat)
  /-- Any other numeral within range. -/
  | numeral
  | text (content : String)
  | array (items : List Json)
  | object (fields : List (String × Json))
  /-- A well-formed part of a text that denotes no value. -/
  | unreadable

namespace Json

instance : Inhabited Json := ⟨null⟩

mutual

/-- Whether every part of a value denotes something. It is asked where a reader has to look at
everything. -/
def isReadable : Json → Bool
  | unreadable => false
  | array items => allReadable items
  | object fields => fieldsReadable fields
  | _ => true

/-- Whether every item is readable throughout. -/
def allReadable : List Json → Bool
  | [] => true
  | first :: rest => isReadable first && allReadable rest

/-- Whether the value of every field is readable throughout. -/
def fieldsReadable : List (String × Json) → Bool
  | [] => true
  | (_, value) :: rest => isReadable value && fieldsReadable rest

end

/-- The text of a string, or null. A value, or null where there is none. -/
def ofOption {α : Type} (encode : α → Json) : Option α → Json
  | none => null
  | some value => encode value

/-- An array of encoded items. -/
def ofList {α : Type} (encode : α → Json) (items : List α) : Json := array (items.map encode)

/-- A 32-bit number. -/
def ofUInt32 (value : UInt32) : Json := natural value.toNat

end Json

end DocGraph
