import DocGraph.Comment.Line

/-!
# Lines into text

Three ways lead from lines to one text. A description keeps its line breaks and loses the
indentation that all its lines share. The text of a tag is unwrapped: continuation lines are joined
by single spaces, blank lines become paragraph breaks, and fenced blocks stay as they are. An
example is kept verbatim.

Which way is taken is decided by where the lines stand: in front of all tags, in a tag, or in an
example. Fenced blocks keep their line breaks in all of them, since code is meant to be kept as it
was written.
-/

namespace DocGraph.Comment

open Text

/-- Remove blank lines at both ends. Blank lines inside are kept. -/
def dropBlankEdges (lines : List (List Char)) : List (List Char) :=
  ((lines.dropWhile allBlank).reverse.dropWhile allBlank).reverse

/-- The number of spaces and tabs at the start of a line. -/
def indentWidth (line : List Char) : Nat := (line.takeWhile isIndent).length

/-- Remove at most a given number of spaces and tabs. Other blanks count as text. So a line that is
indented less loses what it has. -/
def dropIndent : Nat → List Char → List Char
  | 0, line => line
  | _, [] => []
  | width + 1, c :: rest => if isIndent c then dropIndent width rest else c :: rest

/-- The least indentation of a line that is not blank. Blank lines are not asked, since they would
always allow nothing. -/
def commonIndent (lines : List (List Char)) : Nat :=
  (((lines.filter fun line => !allBlank line).map indentWidth).min?).getD 0

/-- A description: no blank lines around it, and no shared indentation. The order matters: blank
lines at the ends have no say in the indentation. -/
def dedent (lines : List (List Char)) : List Char :=
  let body := dropBlankEdges lines
  joinLines (body.map (dropIndent (commonIndent body)))

/-- Where the unwrapping of a text stands between two lines. It is all that the text of the next
line depends on. -/
structure Flow where
  /-- Whether anything was written. -/
  started : Bool := false
  inFence : Bool := false
  /-- Whether a blank line has to be made up for. -/
  paragraphBreak : Bool := false
  /-- Whether the last line written closed a fenced block. -/
  afterFence : Bool := false

/-- What separates the next line of plain text from the text before it. Nothing is put in front of
the first line. -/
def Flow.separator (flow : Flow) : List Char :=
  if !flow.started then []
  else if flow.paragraphBreak then ['\n', '\n']
  else if flow.afterFence then ['\n']
  else [' ']

/-- The text that lines contribute from a given state on. There are three kinds of lines here, and
the fenced ones are looked for first. -/
def unwrapFrom (flow : Flow) : List (List Char) → List Char
  | [] => []
  | line :: rest =>
    if flow.inFence || isFence line then
      let inFence := flow.inFence != isFence line
      (if flow.started then ['\n'] else []) ++ line ++
        unwrapFrom { flow with started := true, inFence := inFence, afterFence := !inFence } rest
    else if allBlank line then
      unwrapFrom { flow with paragraphBreak := flow.started } rest
    else
      flow.separator ++ trim line ++
        unwrapFrom { flow with started := true, paragraphBreak := false, afterFence := false } rest

/-- The unwrapped text of a tag. -/
def unwrap (lines : List (List Char)) : List Char := unwrapFrom {} lines

/-- The text of an example. Text on the tag's own line is its first line. Indentation is kept, as it
is part of the code. -/
def exampleText : List (List Char) → List Char
  | [] => []
  | own :: rest => joinLines (dropBlankEdges (trim own :: rest))

end DocGraph.Comment
