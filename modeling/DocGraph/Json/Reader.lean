import DocGraph.Json.Token

/-!
# Reading JSON

The reader consumes tokens one at a time and keeps the enclosing values that are still open. Its
state says what may come next, so the grammar of JSON is the table of `step`, and reading is a fold.

At most 127 brackets may be open at once. A value opened inside that many others is well-formed and
unreadable.

A value that cannot be represented is delivered as an unreadable one, and reading goes on behind it.
So a fault in the grammar and a part without a value are told apart.
-/

namespace DocGraph.Json

/-- An enclosing value that is not complete, its parts so far in reverse. The innermost one stands
first among those that are open. -/
inductive Enclosing where
  | array (items : List Json)
  /-- The fields, and the key whose value is being read. A key without content
  is one whose escapes name no character. -/
  | object (fields : List (Option String × Json)) (key : Option String)

/-- What may come next. The states in which an end is allowed have it in their names. -/
inductive Expectation where
  | value
  /-- An item, or the end of an array that has none. -/
  | itemOrEnd
  | key
  /-- A key, or the end of an object that has none. -/
  | keyOrEnd
  | colon
  /-- A comma, or the end of the innermost open value. -/
  | commaOrEnd
  /-- Nothing: the whole value has been read. -/
  | finished (value : Json)

/-- The reader between two tokens. It is all that the rest of the text is read with. -/
structure ReaderState where
  enclosing : List Enclosing
  expects : Expectation

/-- How many brackets may be open at once. The reader itself could do without, but the limit is part
of what is accepted. -/
def depthLimit : Nat := 127

/-- Hand a complete value to the innermost value that is still open. When nothing is open any more,
the value is the result. -/
def deliver (enclosing : List Enclosing) (value : Json) : ReaderState :=
  match enclosing with
  | [] => ⟨[], .finished value⟩
  | .array items :: outer => ⟨.array (value :: items) :: outer, .commaOrEnd⟩
  | .object fields key :: outer => ⟨.object ((key, value) :: fields) none :: outer, .commaOrEnd⟩

/-- The fields of an object, if every key has content. One such key spoils the object. -/
def namedFields : List (Option String × Json) → Option (List (String × Json))
  | [] => some []
  | (none, _) :: _ => none
  | (some key, value) :: rest => (namedFields rest).map ((key, value) :: ·)

/-- Close an array inside the given values. Whether it was nested too deeply is decided when it is
complete. -/
def closeArray (outer : List Enclosing) (items : List Json) : ReaderState :=
  deliver outer (if outer.length < depthLimit then .array items.reverse else .unreadable)

/-- Close an object inside the given values. The same holds of an object, which is spoilt by a key
without content as well. -/
def closeObject (outer : List Enclosing) (fields : List (Option String × Json)) : ReaderState :=
  deliver outer
    (if outer.length < depthLimit then
      match namedFields fields.reverse with
      | some named => .object named
      | none => .unreadable
    else .unreadable)

/-- Begin a value with its first token. An opening bracket begins a value that is not complete
yet. -/
def beginValue (enclosing : List Enclosing) : Token → Option ReaderState
  | .beginObject => some ⟨.object [] none :: enclosing, .keyOrEnd⟩
  | .beginArray => some ⟨.array [] :: enclosing, .itemOrEnd⟩
  | .text (some content) => some (deliver enclosing (.text content))
  | .text none => some (deliver enclosing .unreadable)
  | .literal value => some (deliver enclosing value)
  | _ => none

/-- Take the key of the next field. -/
def beginField (enclosing : List Enclosing) (key : Option String) : Option ReaderState :=
  match enclosing with
  | .object fields _ :: outer => some ⟨.object fields key :: outer, .colon⟩
  | _ => none

/-- Take one token. Every token that is not in the table is a fault of the grammar. -/
def step (state : ReaderState) (token : Token) : Option ReaderState :=
  match state.expects, token, state.enclosing with
  | .value, token, enclosing => beginValue enclosing token
  | .itemOrEnd, .endArray, .array items :: outer => some (closeArray outer items)
  | .itemOrEnd, token, enclosing => beginValue enclosing token
  | .key, .text key, enclosing => beginField enclosing key
  | .keyOrEnd, .text key, enclosing => beginField enclosing key
  | .keyOrEnd, .endObject, .object fields _ :: outer => some (closeObject outer fields)
  | .colon, .colon, enclosing => some ⟨enclosing, .value⟩
  | .commaOrEnd, .comma, .array items :: outer => some ⟨.array items :: outer, .value⟩
  | .commaOrEnd, .endArray, .array items :: outer => some (closeArray outer items)
  | .commaOrEnd, .comma, .object fields key :: outer => some ⟨.object fields key :: outer, .key⟩
  | .commaOrEnd, .endObject, .object fields _ :: outer => some (closeObject outer fields)
  | _, _, _ => none

/-- Read a list of tokens as one value. Tokens behind a complete value are a fault, as is a value
that is not complete. -/
def ofTokens (tokens : List Token) : Option Json :=
  match tokens.foldlM step ⟨[], .value⟩ with
  | some ⟨_, .finished value⟩ => some value
  | _ => none

/-- Read a text that holds one JSON value and spaces. -/
def read (text : String) : Option Json := (tokens text.toList).bind ofTokens

end DocGraph.Json
