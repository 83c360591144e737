import DocGraph.Text.Blank
import DocGraph.Text.Cut

/-!
# Inline links

A link is written in braces with its target behind the word `@link`, `@linkcode` or `@linkplain`,
and may give a label behind a bar. Only ASCII spaces separate the parts. Text may follow the closing
brace, as long as it stays on one line.

A text that is almost a link is plain text. There are no faults here, only links that are found or
not found.
-/

namespace DocGraph.Comment

open Text

/-- The parts of a leading link. -/
structure Link where
  target : List Char
  label : List Char
  /-- What follows the link. -/
  trailing : List Char
deriving DecidableEq

/-- What follows the word that opens a link. The three words differ in how the link is to be set,
which does not matter to its target. -/
def linkStart? (text : List Char) : Option (List Char) := do
  let rest ← dropFront? ('{' :: "@link".toList) text
  return ((dropFront? "code".toList rest).orElse fun _ =>
    dropFront? "plain".toList rest).getD rest

/-- The label of a link and what follows the closing brace. A label runs to the first closing
brace. -/
def linkLabel? : List Char → Option (List Char × List Char)
  | '}' :: rest => some ([], rest)
  | '|' :: rest =>
    match cutFirst? '}' (rest.dropWhile isAsciiSpace) with
    | some (label, after) => some (label, after)
    | none => none
  | _ => none

/-- Whether a character can stand in the target of a link. So a target has no spaces, and it cannot
be quoted. -/
def isTargetChar (c : Char) : Bool := c ≠ '}' && c ≠ '|' && !isAsciiSpace c

/-- The link that a text starts with, if the rest of the text is on its line. There has to be a
space behind the word, and the target must not be empty. -/
def link? (text : List Char) : Option Link := do
  let rest ← linkStart? text
  let start := rest.dropWhile isAsciiSpace
  let target := start.takeWhile isTargetChar
  let (label, after) ← linkLabel? ((start.dropWhile isTargetChar).dropWhile isAsciiSpace)
  let trailing := after.dropWhile isAsciiSpace
  if (rest.takeWhile isAsciiSpace).isEmpty || target.isEmpty || trailing.contains '\n' then none
  else some ⟨target, label, trailing⟩

/-- The text of a link: what follows it, or else its label. A link with neither has no text. -/
def Link.text (link : Link) : List Char :=
  if link.trailing.isEmpty then trim link.label else link.trailing

end DocGraph.Comment
