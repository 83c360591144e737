import DocGraph.Json.Basic
import DocGraph.Json.Decimal

/-!
# JSON tokens

The text of a JSON value is a sequence of tokens with spaces between them. A string is first read as
pieces, each a plain character or a sixteen-bit unit written as an escape; the units are then
combined, and a unit that is half of a surrogate pair without its other half leaves the string
without a value.

Each reader gives back what follows the token, and that this is shorter than the text is proved
beside it. So cutting a text into tokens ends, whatever the text is.
-/

namespace DocGraph.Json

/-- The smallest units of JSON text. Where tokens may stand is left to the reader of values. -/
inductive Token where
  | beginObject
  | endObject
  | beginArray
  | endArray
  | colon
  | comma
  /-- A string, without content if its escapes name no character. -/
  | text (content : Option String)
  /-- A numeral or one of the three words. -/
  | literal (value : Json)

/-- The four characters that may stand between tokens. Other blanks of Unicode are not admitted. -/
def isSpace (c : Char) : Bool := c = ' ' || c = '\n' || c = '\t' || c = '\r'

/-- The value of a hexadecimal digit. -/
def hexDigit? (c : Char) : Option Nat :=
  if '0' ≤ c ∧ c ≤ '9' then some (c.toNat - '0'.toNat)
  else if 'a' ≤ c ∧ c ≤ 'f' then some (c.toNat - 'a'.toNat + 10)
  else if 'A' ≤ c ∧ c ≤ 'F' then some (c.toNat - 'A'.toNat + 10)
  else none

/-- The unit written by four hexadecimal digits. -/
def hexUnit? (a b c d : Char) : Option Nat := do
  return ((← hexDigit? a) * 16 + (← hexDigit? b)) * 256 + ((← hexDigit? c) * 16 + (← hexDigit? d))

/-- A part of a string: a character, or a unit written as an escape. A character may be written in
either way. -/
inductive Piece where
  | plain (c : Char)
  | unit (value : Nat)

/-- The character that a one-letter escape stands for. -/
def shortEscape? (c : Char) : Option Char :=
  if c = '"' ∨ c = '\\' ∨ c = '/' then some c
  else if c = 'b' then some '\x08'
  else if c = 'f' then some '\x0c'
  else if c = 'n' then some '\n'
  else if c = 'r' then some '\r'
  else if c = 't' then some '\t'
  else none

/-- The pieces of a string up to its closing quote, and what follows. Raw control characters are not
admitted. Whether the units denote characters is not asked here. -/
def readPieces : List Char → Option (List Piece × List Char)
  | [] => none
  | '"' :: rest => some ([], rest)
  | '\\' :: 'u' :: a :: b :: c :: d :: rest =>
    match hexUnit? a b c d with
    | none => none
    | some unit => (readPieces rest).map fun (pieces, after) => (.unit unit :: pieces, after)
  | '\\' :: e :: rest =>
    match shortEscape? e with
    | none => none
    | some c => (readPieces rest).map fun (pieces, after) => (.plain c :: pieces, after)
  | c :: rest =>
    if c.toNat < 0x20 ∨ c = '\\' then none
    else (readPieces rest).map fun (pieces, after) => (.plain c :: pieces, after)

/-- Whether a unit is the first half of a surrogate pair. -/
def isLeadUnit (unit : Nat) : Bool := 0xD800 ≤ unit && unit ≤ 0xDBFF

/-- Whether a unit is the second half of a surrogate pair. -/
def isTrailUnit (unit : Nat) : Bool := 0xDC00 ≤ unit && unit ≤ 0xDFFF

/-- The characters that a list of pieces denotes, if every surrogate unit has its partner. Two units
that are a pair give one character. -/
def assemble : List Piece → Option (List Char)
  | [] => some []
  | .plain c :: rest => (assemble rest).map (c :: ·)
  | .unit lead :: .unit trail :: rest =>
    if isLeadUnit lead then
      if isTrailUnit trail then
        (assemble rest).map
          (Char.ofNat (0x10000 + (lead - 0xD800) * 0x400 + (trail - 0xDC00)) :: ·)
      else none
    else if isTrailUnit lead then none
    else (assemble (.unit trail :: rest)).map (Char.ofNat lead :: ·)
  | .unit unit :: rest =>
    if isLeadUnit unit || isTrailUnit unit then none
    else (assemble rest).map (Char.ofNat unit :: ·)

/-- The digits of an integer part: a zero alone, or digits without a leading zero. A zero ends the
integer part, so a digit behind it is a fault of the grammar. -/
def readWhole : List Char → Option (List Char × List Char)
  | '0' :: rest => some (['0'], rest)
  | chars =>
    match chars.takeWhile isDigit with
    | [] => none
    | digits => some (digits, chars.dropWhile isDigit)

/-- The digits after a decimal point, if there is a point. There has to be a digit behind a
point. -/
def readFraction : List Char → Option (Option (List Char) × List Char)
  | '.' :: rest =>
    match rest.takeWhile isDigit with
    | [] => none
    | digits => some (some digits, rest.dropWhile isDigit)
  | chars => some (none, chars)

/-- The digits of an exponent with its sign in front. -/
def readSigned (negative : Bool) (text : List Char) : Option (Option Int × List Char) :=
  match text.takeWhile isDigit with
  | [] => none
  | digits =>
    let size : Int := ofDigits digits
    some (some (if negative then -size else size), text.dropWhile isDigit)

/-- The exponent, if there is one. The letter may be in either case. -/
def readExponent : List Char → Option (Option Int × List Char)
  | [] => some (none, [])
  | c :: rest =>
    if c = 'e' ∨ c = 'E' then
      match rest with
      | '-' :: digits => readSigned true digits
      | '+' :: digits => readSigned false digits
      | digits => readSigned false digits
    else some (none, c :: rest)

/-- A numeral without its sign: its value, and what follows. The range is checked first. -/
def readUnsigned (negative : Bool) (text : List Char) : Option (Json × List Char) := do
  let (whole, afterWhole) ← readWhole text
  let (fraction, afterFraction) ← readFraction afterWhole
  let (exponent, after) ← readExponent afterFraction
  let value :=
    if Decimal.overflows ⟨whole, fraction.getD [], exponent.getD 0⟩ then unreadable
    else if negative || fraction.isSome || exponent.isSome then numeral
    else natural (ofDigits whole)
  return (value, after)

/-- The token at the start of a text, and what follows it. What begins like no token is tried as a
numeral and fails there. -/
def readToken : List Char → Option (Token × List Char)
  | [] => none
  | '{' :: rest => some (.beginObject, rest)
  | '}' :: rest => some (.endObject, rest)
  | '[' :: rest => some (.beginArray, rest)
  | ']' :: rest => some (.endArray, rest)
  | ':' :: rest => some (.colon, rest)
  | ',' :: rest => some (.comma, rest)
  | '"' :: rest =>
    (readPieces rest).map fun (pieces, after) =>
      (.text ((assemble pieces).map String.ofList), after)
  | 'n' :: 'u' :: 'l' :: 'l' :: rest => some (.literal null, rest)
  | 't' :: 'r' :: 'u' :: 'e' :: rest => some (.literal (bool true), rest)
  | 'f' :: 'a' :: 'l' :: 's' :: 'e' :: rest => some (.literal (bool false), rest)
  | '-' :: rest => (readUnsigned true rest).map fun (value, after) => (.literal value, after)
  | chars => (readUnsigned false chars).map fun (value, after) => (.literal value, after)

/-- What follows a string is shorter than the text from its first character on. Proof by induction
along the reader: each piece takes at least one character. -/
theorem read_pieces_length {text after : List Char} {pieces : List Piece}
    (accepted : readPieces text = some (pieces, after)) : after.length < text.length := by
  fun_induction readPieces text generalizing pieces after with
  | case1 => cases accepted
  | case2 rest => cases accepted; simp
  | case3 => cases accepted
  | case4 a b c d rest unit _ inductionHypothesis =>
    obtain ⟨⟨inside, beyond⟩, deeper, same⟩ := Option.map_eq_some_iff.mp accepted
    cases same
    have shorter := inductionHypothesis deeper
    simp only [List.length_cons]
    omega
  | case5 => cases accepted
  | case6 e rest _ c _ inductionHypothesis =>
    obtain ⟨⟨inside, beyond⟩, deeper, same⟩ := Option.map_eq_some_iff.mp accepted
    cases same
    have shorter := inductionHypothesis deeper
    simp only [List.length_cons]
    omega
  | case7 => cases accepted
  | case8 c rest _ _ _ _ inductionHypothesis =>
    obtain ⟨⟨inside, beyond⟩, deeper, same⟩ := Option.map_eq_some_iff.mp accepted
    cases same
    have shorter := inductionHypothesis deeper
    simp only [List.length_cons]
    omega

/-- A text that starts with a run of characters gets shorter when the run is dropped. It is what
makes readers of digits take something. -/
theorem length_drop_while_lt {p : Char → Bool} {text : List Char}
    (starts : text.takeWhile p ≠ []) : (text.dropWhile p).length < text.length := by
  have whole := congrArg List.length (List.takeWhile_append_dropWhile (p := p) (l := text))
  have positive := List.length_pos_iff.mpr starts
  simp only [List.length_append] at whole
  omega

/-- An integer part takes at least one character. So a numeral is never empty. -/
theorem read_whole_length {text digits after : List Char}
    (accepted : readWhole text = some (digits, after)) : after.length < text.length := by
  unfold readWhole at accepted
  split at accepted
  · cases accepted; simp
  · split at accepted
    · cases accepted
    · next filled =>
      cases accepted
      exact length_drop_while_lt filled

/-- What follows a fraction is no longer than the text. -/
theorem read_fraction_length {text after : List Char} {digits : Option (List Char)}
    (accepted : readFraction text = some (digits, after)) : after.length ≤ text.length := by
  unfold readFraction at accepted
  split at accepted
  · next rest =>
    split at accepted
    · cases accepted
    · cases accepted
      exact Nat.le_succ_of_le (List.dropWhile_sublist isDigit).length_le
  · cases accepted
    exact Nat.le_refl _

/-- What follows the digits of an exponent is no longer than the text. -/
theorem read_signed_length {negative : Bool} {text after : List Char} {exponent : Option Int}
    (accepted : readSigned negative text = some (exponent, after)) :
    after.length ≤ text.length := by
  unfold readSigned at accepted
  split at accepted
  · cases accepted
  · cases accepted
    exact (List.dropWhile_sublist isDigit).length_le

/-- What follows an exponent is no longer than the text. -/
theorem read_exponent_length {text after : List Char} {exponent : Option Int}
    (accepted : readExponent text = some (exponent, after)) : after.length ≤ text.length := by
  unfold readExponent at accepted
  split at accepted
  · cases accepted; simp
  · split at accepted
    · split at accepted <;>
        have bounded := read_signed_length accepted <;>
        simp only [List.length_cons] at bounded ⊢ <;>
        omega
    · cases accepted
      exact Nat.le_refl _

/-- A numeral takes at least one character. -/
theorem read_unsigned_length {negative : Bool} {text after : List Char} {value : Json}
    (accepted : readUnsigned negative text = some (value, after)) :
    after.length < text.length := by
  simp only [readUnsigned, bind, Option.bind_eq_some_iff, pure, Option.some.injEq,
    Prod.mk.injEq, Prod.exists] at accepted
  obtain ⟨_, _, whole, _, _, fraction, _, _, exponent, _, rfl⟩ := accepted
  have first := read_whole_length whole
  have second := read_fraction_length fraction
  have third := read_exponent_length exponent
  omega

/-- Every token takes at least one character. -/
theorem read_token_length {text after : List Char} {token : Token}
    (accepted : readToken text = some (token, after)) : after.length < text.length := by
  unfold readToken at accepted
  split at accepted
  · cases accepted
  iterate 6 (cases accepted; simp)
  · obtain ⟨⟨pieces, beyond⟩, found, same⟩ := Option.map_eq_some_iff.mp accepted
    cases same
    exact Nat.lt_succ_of_lt (read_pieces_length found)
  iterate 3 (cases accepted; simp only [List.length_cons]; omega)
  · obtain ⟨⟨value, beyond⟩, found, same⟩ := Option.map_eq_some_iff.mp accepted
    cases same
    exact Nat.lt_succ_of_lt (read_unsigned_length found)
  · obtain ⟨⟨value, beyond⟩, found, same⟩ := Option.map_eq_some_iff.mp accepted
    cases same
    exact read_unsigned_length found

/-- All tokens of a text, if it consists of tokens and spaces. -/
def tokens (text : List Char) : Option (List Token) :=
  match start : text.dropWhile isSpace with
  | [] => some []
  | c :: rest =>
    match accepted : readToken (c :: rest) with
    | none => none
    | some (token, after) =>
      have : after.length < text.length :=
        Nat.lt_of_lt_of_le (read_token_length accepted)
          (start ▸ (List.dropWhile_sublist isSpace).length_le)
      (tokens after).map (token :: ·)
termination_by text.length

end DocGraph.Json
