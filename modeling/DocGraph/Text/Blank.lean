/-!
# Blank characters and trimming

Text is trimmed by the White_Space property of Unicode, which has exactly the twenty-five characters
listed here. Line-oriented patterns use two narrower classes: a space or tab for indentation, and
the six ASCII spaces inside inline links. Keeping the three apart matters, since a no-break space
ends a word but is never indentation.
-/

namespace DocGraph.Text

/-- The White_Space property. -/
def isBlank (c : Char) : Bool :=
  ('\x09' ≤ c && c ≤ '\x0d') || c = ' ' || c = '\u0085' || c = '\u00a0' || c = '\u1680' ||
    ('\u2000' ≤ c && c ≤ '\u200a') || c = '\u2028' || c = '\u2029' || c = '\u202f' ||
    c = '\u205f' || c = '\u3000'

/-- A space or a tab, the only characters that indent a line. -/
def isIndent (c : Char) : Bool := c = ' ' || c = '\t'

/-- The six ASCII spaces: tab, line feed, vertical tab, form feed, carriage return, space. -/
def isAsciiSpace (c : Char) : Bool := ('\x09' ≤ c && c ≤ '\x0d') || c = ' '

/-- Drop leading blanks. -/
def trimStart (text : List Char) : List Char := text.dropWhile isBlank

/-- Drop trailing blanks. It is the other function on the text turned around. -/
def trimEnd (text : List Char) : List Char := (text.reverse.dropWhile isBlank).reverse

/-- Drop blanks on both sides. What is inside the text stays as it is. -/
def trim (text : List Char) : List Char := trimEnd (trimStart text)

/-- Whether a text has no character but blanks. -/
def allBlank (text : List Char) : Bool := text.all isBlank

/-- Everything that indents is blank. The converse fails, as there are many more blanks. -/
theorem is_blank_of_is_indent {c : Char} (indents : isIndent c = true) : isBlank c = true := by
  rcases Bool.or_eq_true_iff.mp indents with space | tab
  · simp [of_decide_eq_true space, isBlank]
  · simp [of_decide_eq_true tab, isBlank]

/-- A text that starts with no blank is left alone at its start. It is the rule by which trimming
stops. -/
@[simp]
theorem trim_start_cons {c : Char} {rest : List Char} (solid : isBlank c = false) :
    trimStart (c :: rest) = c :: rest := by
  simp [trimStart, solid]

end DocGraph.Text
