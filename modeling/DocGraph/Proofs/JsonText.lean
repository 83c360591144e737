import DocGraph.Json.Reader
import DocGraph.Proofs.JsonScalars

/-!
# Reading written JSON values

An indented text is split into the tokens of its value, and the reader puts these together again.
Only the limit on open brackets stands in the way: a value is read back clipped, with every part
that lies too deep replaced by an unreadable one. A value that is not too high is read back as it
was.

The values are those that records are written as, with numbers of at most 32 bits and without parts
that denote nothing.

Only the first half is shown here, from the text to the tokens. It needs no stack: what is written
for a value is cut into the tokens of the value, whatever the depth of its indentation and whatever
follows, as long as that does not prolong a number.
-/

namespace DocGraph.Json

mutual

/-- Whether a value has only parts that can be written and read: no number beyond 32 bits, no other
numeral, and nothing unreadable. Everything that a snapshot is written as is plain; the parser also
gives values that are not. -/
def isPlain : Json → Bool
  | natural value => value < UInt32.size
  | numeral => false
  | unreadable => false
  | array items => allPlain items
  | object fields => fieldsPlain fields
  | _ => true

/-- Whether every item is plain. -/
def allPlain : List Json → Bool
  | [] => true
  | first :: rest => isPlain first && allPlain rest

/-- Whether the value of every field is plain. -/
def fieldsPlain : List (String × Json) → Bool
  | [] => true
  | (_, value) :: rest => isPlain value && fieldsPlain rest

end

mutual

/-- The tokens that a value is written with. It is what the indented and any other layout of the
value have in common. -/
def tokensOf : Json → List Token
  | array items => .beginArray :: itemTokens items ++ [.endArray]
  | object fields => .beginObject :: fieldTokens fields ++ [.endObject]
  | text content => [.text (some content)]
  | scalar => [.literal scalar]

/-- The tokens of items, with a comma between neighbours. -/
def itemTokens : List Json → List Token
  | [] => []
  | [last] => tokensOf last
  | first :: second :: rest => tokensOf first ++ .comma :: itemTokens (second :: rest)

/-- The tokens of fields, with a comma between neighbours. -/
def fieldTokens : List (String × Json) → List Token
  | [] => []
  | [(key, value)] => .text (some key) :: .colon :: tokensOf value
  | (key, value) :: second :: rest =>
    .text (some key) :: .colon :: tokensOf value ++ .comma :: fieldTokens (second :: rest)

end

/-- The tokens of a text, one at a time. The definition goes by the length of the text, and this is
the equation that proofs use. -/
theorem tokens_eq (text : List Char) :
    tokens text =
      match text.dropWhile isSpace with
      | [] => some []
      | c :: rest => (readToken (c :: rest)).bind fun (token, after) =>
          (tokens after).map (token :: ·) := by
  rw [tokens]
  split
  · next start => simp [start]
  · next c rest start =>
    split
    · next refused => simp [start, refused]
    · next token after accepted => simp [start, accepted]

/-- Spaces between tokens do not matter. -/
@[simp]
theorem tokens_space {c : Char} (space : isSpace c = true) (rest : List Char) :
    tokens (c :: rest) = tokens rest := by
  rw [tokens_eq, tokens_eq rest, List.dropWhile_cons_of_pos space]

/-- A line feed and indentation between tokens do not matter. -/
@[simp]
theorem tokens_new_line (depth : Nat) (rest : List Char) :
    tokens (newLine depth ++ rest) = tokens rest := by
  have blanks (count : Nat) : tokens (List.replicate count ' ' ++ rest) = tokens rest := by
    induction count with
    | zero => rfl
    | succ count inductionHypothesis =>
      rw [List.replicate_succ, List.cons_append, tokens_space (by decide), inductionHypothesis]
  rw [newLine, List.cons_append, tokens_space (by decide), blanks]

/-- A token in front of a text is the first of its tokens. All facts about single tokens are
instances of it. -/
theorem tokens_of_read_token {c : Char} {rest after : List Char} {token : Token}
    (solid : isSpace c = false) (reads : readToken (c :: rest) = some (token, after)) :
    tokens (c :: rest) = (tokens after).map (token :: ·) := by
  rw [tokens_eq, List.dropWhile_cons_of_neg (by simp [solid])]
  simp [reads]

/-- A written string is one token. -/
@[simp]
theorem tokens_quote (content : String) (rest : List Char) :
    tokens (quote content ++ rest) = (tokens rest).map (.text (some content) :: ·) :=
  tokens_of_read_token (by decide) (read_token_quote content rest)

/-- A character that would prolong no numeral may follow one. It is checked by evaluation for each
of the characters that are written behind values. -/
theorem ends_numeral_cons {c : Char}
    (harmless : (isDigit c || c = '.' || c = 'e' || c = 'E') = false) (rest : List Char) :
    EndsNumeral (c :: rest) := by
  intro d same
  cases same
  simpa [and_assoc] using harmless

/-- A new line may follow a numeral. -/
theorem ends_numeral_new_line (depth : Nat) (rest : List Char) :
    EndsNumeral (newLine depth ++ rest) :=
  ends_numeral_cons (by decide) _

/-- A plain value without brackets is written as its one token. The premise on the rest is needed
for numbers only. -/
theorem tokens_scalar_chars {value : Json} (plain : value.isPlain = true)
    (flat : (∀ items, value ≠ array items) ∧ ∀ fields, value ≠ object fields)
    {rest : List Char} (ends : EndsNumeral rest) :
    tokens (scalarChars value ++ rest) = (tokens rest).map (tokensOf value ++ ·) := by
  cases value with
  | null => exact tokens_of_read_token (by decide) rfl
  | bool value => cases value <;> exact tokens_of_read_token (by decide) rfl
  | natural value =>
    have small : value < UInt32.size := by simpa [isPlain] using plain
    have reads := read_token_to_digits small ends
    obtain ⟨first, others, written, digit⟩ := exists_to_digits value
    have solid : isSpace first = false := by
      by_contra space
      simp only [isSpace, Bool.not_eq_false, Bool.or_eq_true, decide_eq_true_eq] at space
      rcases space with ((rfl | rfl) | rfl) | rfl <;> exact absurd digit (by decide)
    rw [written] at reads
    rw [scalarChars, written]
    exact tokens_of_read_token solid reads
  | text content => exact tokens_quote content rest
  | numeral => exact absurd plain (by decide)
  | unreadable => exact absurd plain (by decide)
  | array items => exact absurd rfl (flat.1 items)
  | object fields => exact absurd rfl (flat.2 fields)

/-- The tokens after an opening square bracket. -/
@[simp]
theorem tokens_begin_array (rest : List Char) :
    tokens ('[' :: rest) = (tokens rest).map (.beginArray :: ·) :=
  tokens_of_read_token (by decide) rfl

/-- The tokens after a closing square bracket. -/
@[simp]
theorem tokens_end_array (rest : List Char) :
    tokens (']' :: rest) = (tokens rest).map (.endArray :: ·) :=
  tokens_of_read_token (by decide) rfl

/-- The tokens after an opening brace. -/
@[simp]
theorem tokens_begin_object (rest : List Char) :
    tokens ('{' :: rest) = (tokens rest).map (.beginObject :: ·) :=
  tokens_of_read_token (by decide) rfl

/-- The tokens after a closing brace. -/
@[simp]
theorem tokens_end_object (rest : List Char) :
    tokens ('}' :: rest) = (tokens rest).map (.endObject :: ·) :=
  tokens_of_read_token (by decide) rfl

/-- The tokens after a colon. -/
@[simp]
theorem tokens_colon (rest : List Char) :
    tokens (':' :: rest) = (tokens rest).map (.colon :: ·) :=
  tokens_of_read_token (by decide) rfl

/-- The tokens after a comma. -/
@[simp]
theorem tokens_comma (rest : List Char) :
    tokens (',' :: rest) = (tokens rest).map (.comma :: ·) :=
  tokens_of_read_token (by decide) rfl

mutual

/-- The text of a plain value is split into the tokens of the value.

Proof: recursion on the value, with the depth left open because items are indented one level deeper.
Line breaks and spaces between tokens are skipped, and each bracket, colon and comma is a token by
the simp set. -/
theorem tokens_indented_chars : ∀ (value : Json), value.isPlain = true →
    ∀ (depth : Nat) {rest : List Char}, EndsNumeral rest →
      tokens (indentedChars depth value ++ rest) = (tokens rest).map (tokensOf value ++ ·)
  | array [], _, depth, rest, _ => by
    simp [indentedChars, tokensOf, itemTokens, Function.comp_def]
  | array (first :: others), plain, depth, rest, _ => by
    have items := tokens_indented_items (first :: others) plain (depth + 1)
      (ends_numeral_new_line depth (']' :: rest))
    simp [indentedChars, items, tokensOf, Function.comp_def]
  | object [], _, depth, rest, _ => by
    simp [indentedChars, tokensOf, fieldTokens, Function.comp_def]
  | object (first :: others), plain, depth, rest, _ => by
    have fields := tokens_indented_fields (first :: others) plain (depth + 1)
      (ends_numeral_new_line depth ('}' :: rest))
    simp [indentedChars, fields, tokensOf, Function.comp_def]
  | null, plain, depth, rest, ends => tokens_scalar_chars plain ⟨by simp, by simp⟩ ends
  | bool _, plain, depth, rest, ends => tokens_scalar_chars plain ⟨by simp, by simp⟩ ends
  | natural _, plain, depth, rest, ends => tokens_scalar_chars plain ⟨by simp, by simp⟩ ends
  | numeral, plain, depth, rest, ends => tokens_scalar_chars plain ⟨by simp, by simp⟩ ends
  | text _, plain, depth, rest, ends => tokens_scalar_chars plain ⟨by simp, by simp⟩ ends
  | unreadable, plain, depth, rest, ends => tokens_scalar_chars plain ⟨by simp, by simp⟩ ends

/-- The text of plain items is split into the tokens of the items. What follows an item is a comma
or a new line, and neither prolongs a number. -/
theorem tokens_indented_items : ∀ (items : List Json), allPlain items = true →
    ∀ (depth : Nat) {rest : List Char}, EndsNumeral rest →
      tokens (indentedItems depth items ++ rest) = (tokens rest).map (itemTokens items ++ ·)
  | [], _, _, _, _ => by simp [indentedItems, itemTokens]
  | [last], plain, depth, rest, ends => by
    have value := tokens_indented_chars last (by simpa [allPlain] using plain) depth ends
    rw [indentedItems, List.append_assoc, tokens_new_line, value, itemTokens]
  | first :: second :: others, plain, depth, rest, ends => by
    rw [allPlain, Bool.and_eq_true] at plain
    have later := tokens_indented_items (second :: others) plain.2 depth ends
    have boundary : EndsNumeral (',' :: (indentedItems depth (second :: others) ++ rest)) :=
      ends_numeral_cons (by decide) _
    have value := tokens_indented_chars first plain.1 depth boundary
    simp [indentedItems, value, later, itemTokens, Function.comp_def]

/-- The text of plain fields is split into the tokens of the fields. -/
theorem tokens_indented_fields : ∀ (fields : List (String × Json)), fieldsPlain fields = true →
    ∀ (depth : Nat) {rest : List Char}, EndsNumeral rest →
      tokens (indentedFields depth fields ++ rest) = (tokens rest).map (fieldTokens fields ++ ·)
  | [], _, _, _, _ => by simp [indentedFields, fieldTokens]
  | [(key, value)], plain, depth, rest, ends => by
    have reads := tokens_indented_chars value (by simpa [fieldsPlain] using plain) depth ends
    simp [indentedFields, tokens_space (by decide : isSpace ' ' = true), reads, fieldTokens,
      Function.comp_def]
  | (key, value) :: second :: others, plain, depth, rest, ends => by
    rw [fieldsPlain, Bool.and_eq_true] at plain
    have later := tokens_indented_fields (second :: others) plain.2 depth ends
    have boundary : EndsNumeral (',' :: (indentedFields depth (second :: others) ++ rest)) :=
      ends_numeral_cons (by decide) _
    have reads := tokens_indented_chars value plain.1 depth boundary
    simp [indentedFields, tokens_space (by decide : isSpace ' ' = true), reads, later,
      fieldTokens, Function.comp_def]

end

end DocGraph.Json
