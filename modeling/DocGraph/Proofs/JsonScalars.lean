import Mathlib
import DocGraph.Json.Printer
import DocGraph.Json.Token

/-!
# Reading written JSON scalars

A written string is one token with its content, whatever characters it holds: short escapes, escapes
by number and characters that stand for themselves are all read back. A written number of at most 32
bits is one token with its value, unless what follows would prolong the numeral. Numbers beyond that
range are not considered here.

Written strings use only a few of the escapes that can be read, and written numbers are whole and
without sign. The lemmas here are about these and do not describe what else a reader accepts.
-/

namespace DocGraph.Json

/-- Two hexadecimal digits give a control character back. There are thirty-two of them, which are
checked one by one. -/
theorem hex_unit?_hex_char {value : Nat} (small : value < 0x20) :
    hexUnit? '0' '0' (hexChar (value / 16)) (hexChar (value % 16)) = some value := by
  have every : ∀ number : Fin 0x20,
      hexUnit? '0' '0' (hexChar (number / 16)) (hexChar (number % 16)) = some number.val := by
    decide
  exact every ⟨value, small⟩

/-- A unit below the surrogates is a character of its own, whatever follows. Surrogates would have
to be joined in pairs, but nothing in that range is ever escaped. -/
theorem assemble_unit {value : Nat} (small : value < 0x20) (pieces : List Piece) :
    assemble (.unit value :: pieces) = (assemble pieces).map (Char.ofNat value :: ·) := by
  have noLead : isLeadUnit value = false := by simp [isLeadUnit]; omega
  have noTrail : isTrailUnit value = false := by simp [isTrailUnit]; omega
  rcases pieces with _ | ⟨⟨c⟩ | ⟨unit⟩, rest⟩
  · simp [assemble, noLead, noTrail]
  · simp [assemble, noLead, noTrail]
  · simp [assemble, noLead, noTrail]

/-- What is written for a character is read as one piece, which denotes the character. The piece
depends on the character alone, so a text can be read piece by piece. -/
theorem exists_piece (c : Char) :
    ∃ piece : Piece,
      (∀ tail, readPieces (escapeChar c ++ tail) =
        (readPieces tail).map fun (pieces, after) => (piece :: pieces, after)) ∧
      ∀ pieces, assemble (piece :: pieces) = (assemble pieces).map (c :: ·) := by
  by_cases short : c = '"' ∨ c = '\\' ∨ c = '\x08' ∨ c = '\x0c' ∨ c = '\n' ∨ c = '\r' ∨ c = '\t'
  · refine ⟨.plain c, ?_, fun _ => rfl⟩
    intro tail
    rcases short with rfl | rfl | rfl | rfl | rfl | rfl | rfl <;> rfl
  · simp only [not_or] at short
    obtain ⟨quote, backslash, backspace, feed, line, carriage, tab⟩ := short
    by_cases control : c.toNat < 0x20
    · refine ⟨.unit c.toNat, ?_, ?_⟩
      · intro tail
        simp [escapeChar, quote, backslash, backspace, feed, line, carriage, tab, control,
          readPieces, hex_unit?_hex_char control]
      · intro pieces
        rw [assemble_unit control, Char.ofNat_toNat]
    · refine ⟨.plain c, ?_, fun _ => rfl⟩
      intro tail
      simp [escapeChar, quote, backslash, backspace, feed, line, carriage, tab, control, readPieces]

/-- The content of a written string is read back up to the closing quote. No escape holds a bare
quote, so the first one that is found is the closing one. -/
theorem exists_pieces (content rest : List Char) :
    ∃ pieces, readPieces (content.flatMap escapeChar ++ '"' :: rest) = some (pieces, rest) ∧
      assemble pieces = some content := by
  induction content with
  | nil => exact ⟨[], rfl, rfl⟩
  | cons c tail inductionHypothesis =>
    obtain ⟨pieces, reads, denotes⟩ := inductionHypothesis
    obtain ⟨piece, readsFirst, denotesFirst⟩ := exists_piece c
    refine ⟨piece :: pieces, ?_, ?_⟩
    · rw [List.flatMap_cons, List.append_assoc, readsFirst, reads]
      rfl
    · rw [denotesFirst, denotes]
      rfl

/-- A written string is one token with its content. -/
theorem read_token_quote (content : String) (rest : List Char) :
    readToken (quote content ++ rest) = some (.text (some content), rest) := by
  obtain ⟨pieces, reads, denotes⟩ := exists_pieces content.toList rest
  simp [quote, readToken, reads, denotes]

/-- Every character of a written number is a digit. -/
theorem is_digit_of_mem_to_digits {value : Nat} {c : Char} (present : c ∈ Nat.toDigits 10 value) :
    isDigit c = true := by
  have digit := Nat.isDigit_of_mem_toDigits (by decide) (by decide) present
  simp only [Char.isDigit, Bool.and_eq_true, decide_eq_true_eq] at digit
  simp only [isDigit, Bool.and_eq_true, decide_eq_true_eq]
  exact digit

/-- A number is read back from its digits. It relates the model to the library, where the digits of
a number are known to denote it. -/
theorem of_digits_to_digits (value : Nat) : ofDigits (Nat.toDigits 10 value) = value := by
  have same : ofDigits (Nat.toDigits 10 value) =
      Nat.ofDigitChars 10 (Nat.toDigits 10 value) 0 := by
    rw [Nat.ofDigitChars_eq_foldl, ofDigits]
    congr 1
    funext number c
    rw [appendDigit, Nat.mul_comm]
  rw [same, Nat.ofDigitChars_ten_toDigits]

/-- Only zero is written with a zero in front. A numeral with a leading zero and more digits would
not be read. -/
theorem to_digits_eq_zero_of_head {value : Nat} {rest : List Char}
    (written : Nat.toDigits 10 value = '0' :: rest) : value = 0 ∧ rest = [] := by
  induction value using Nat.strongRecOn generalizing rest with
  | ind value inductionHypothesis =>
    by_cases single : value < 10
    · rw [Nat.toDigits_of_lt_base single, List.cons.injEq, Nat.digitChar_eq_zero] at written
      exact ⟨written.1, written.2.symm⟩
    · rw [Nat.toDigits_of_base_le (by decide) (by omega)] at written
      obtain ⟨first, others, front⟩ := List.exists_cons_of_ne_nil
        (Nat.toDigits_ne_nil : Nat.toDigits 10 (value / 10) ≠ [])
      rw [front, List.cons_append, List.cons.injEq] at written
      obtain ⟨rfl, _⟩ := written
      have smaller := (inductionHypothesis (value / 10) (by omega) front).1
      omega

/-- What may follow a numeral: nothing that would prolong it. In a written value a numeral is
followed by a comma, a line break or the end of the text. -/
def EndsNumeral (rest : List Char) : Prop :=
  ∀ c ∈ rest.head?, isDigit c = false ∧ c ≠ '.' ∧ c ≠ 'e' ∧ c ≠ 'E'

/-- The digits of a written number are read up to the end of the numeral. -/
theorem read_whole_to_digits (value : Nat) {rest : List Char} (ends : EndsNumeral rest) :
    readWhole (Nat.toDigits 10 value ++ rest) = some (Nat.toDigits 10 value, rest) := by
  obtain ⟨first, others, written⟩ := List.exists_cons_of_ne_nil
    (Nat.toDigits_ne_nil : Nat.toDigits 10 value ≠ [])
  by_cases zero : first = '0'
  · subst zero
    obtain ⟨_, rfl⟩ := to_digits_eq_zero_of_head written
    rw [written]
    rfl
  · have stops : rest.takeWhile isDigit = [] ∧ rest.dropWhile isDigit = rest := by
      cases rest with
      | nil => exact ⟨rfl, rfl⟩
      | cons c tail =>
        have stop := (ends c rfl).1
        simp [stop]
    have takes : (Nat.toDigits 10 value ++ rest).takeWhile isDigit = Nat.toDigits 10 value := by
      rw [List.takeWhile_append_of_pos fun c => is_digit_of_mem_to_digits, stops.1,
        List.append_nil]
    have drops : (Nat.toDigits 10 value ++ rest).dropWhile isDigit = rest := by
      rw [List.dropWhile_append_of_pos fun c => is_digit_of_mem_to_digits, stops.2]
    rw [written] at takes drops ⊢
    rw [List.cons_append] at takes drops ⊢
    unfold readWhole
    split
    · next same => exact absurd (List.cons.inj same).1 zero
    · rw [takes, drops]

/-- Digits of a number within 64 bits all fit. Digits that do not fit are counted apart when a
numeral is judged for its size. -/
theorem append_fitting_eq (digits : List Char) {value : Nat}
    (small : digits.foldl appendDigit value < UInt64.size) :
    appendFitting value digits = (digits.foldl appendDigit value, []) := by
  induction digits generalizing value with
  | nil => rfl
  | cons c rest inductionHypothesis =>
    have grows (others : List Char) (number : Nat) : number ≤ others.foldl appendDigit number := by
      induction others generalizing number with
      | nil => exact Nat.le_refl _
      | cons d others grows =>
        refine Nat.le_trans ?_ (grows (appendDigit number d))
        rw [appendDigit]
        omega
    have fits : appendDigit value c < UInt64.size := Nat.lt_of_le_of_lt (grows rest _) small
    rw [appendFitting, if_pos fits]
    exact inductionHypothesis small

/-- A number of at most 32 bits is not too large for a numeral. The comparison with the nearest
double is exact for numbers as small as these. -/
theorem overflows_to_digits {value : Nat} (small : value < UInt32.size) :
    Decimal.overflows ⟨Nat.toDigits 10 value, [], 0⟩ = false := by
  have digits : (Nat.toDigits 10 value).foldl appendDigit 0 = value := of_digits_to_digits value
  have fits : appendFitting 0 (Nat.toDigits 10 value) = (value, []) := by
    rw [append_fitting_eq _ (by rw [digits]; exact Nat.lt_trans small (by decide)), digits]
  have ownNearest : nearest53 value = value :=
    nearest53_eq_self (Nat.lt_trans small (by decide))
  have oneNearest : nearest53 (Nat.pow 10 0) = 1 := by decide
  have large : UInt32.size ≤ outOfRange := by decide +kernel
  have inRange : ¬outOfRange ≤ value := by omega
  have scale : Decimal.scaled ⟨Nat.toDigits 10 value, [], 0⟩ = (value, 0) := by
    simp [Decimal.scaled, fits, appendFitting]
  rw [Decimal.overflows, scale]
  dsimp only
  split
  · rfl
  · rw [if_neg (by decide), Int.toNat_zero, ownNearest, oneNearest, Nat.mul_one]
    exact decide_eq_false inRange

/-- A written number of at most 32 bits is read back with its value.

Proof: the digits are the whole part; what follows is neither a fraction nor an exponent, by the
premise; and the number fits, so it is read as the natural number that its digits denote. -/
theorem read_unsigned_to_digits {value : Nat} (small : value < UInt32.size) {rest : List Char}
    (ends : EndsNumeral rest) :
    readUnsigned false (Nat.toDigits 10 value ++ rest) = some (natural value, rest) := by
  have noFraction : readFraction rest = some (none, rest) := by
    unfold readFraction
    split
    · next tail => exact absurd rfl (ends '.' rfl).2.1
    · rfl
  have noExponent : readExponent rest = some (none, rest) := by
    cases rest with
    | nil => rfl
    | cons c tail =>
      obtain ⟨_, _, lower, upper⟩ := ends c rfl
      simp [readExponent, lower, upper]
  simp [readUnsigned, read_whole_to_digits value ends, noFraction, noExponent,
    overflows_to_digits small, of_digits_to_digits]

/-- A written number begins with a digit. -/
theorem exists_to_digits (value : Nat) :
    ∃ first rest, Nat.toDigits 10 value = first :: rest ∧ isDigit first = true := by
  obtain ⟨first, rest, written⟩ := List.exists_cons_of_ne_nil
    (Nat.toDigits_ne_nil : Nat.toDigits 10 value ≠ [])
  exact ⟨first, rest, written, is_digit_of_mem_to_digits (written ▸ List.mem_cons_self)⟩

/-- A written number of at most 32 bits is one token with its value. -/
theorem read_token_to_digits {value : Nat} (small : value < UInt32.size) {rest : List Char}
    (ends : EndsNumeral rest) :
    readToken (Nat.toDigits 10 value ++ rest) = some (.literal (natural value), rest) := by
  have reads := read_unsigned_to_digits small ends
  obtain ⟨first, others, written, digit⟩ := exists_to_digits value
  rw [written, List.cons_append] at reads ⊢
  have differs (c : Char) (other : isDigit c = false) : first ≠ c := by
    rintro rfl
    exact absurd digit (by simp [other])
  unfold readToken
  split
  · next same => cases same
  iterate 11 (next same => exact absurd (List.cons.inj same).1 (differs _ (by decide)))
  · rw [reads]
    rfl

end DocGraph.Json
