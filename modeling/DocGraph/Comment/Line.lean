import DocGraph.Text.Blank
import DocGraph.Text.Cut
import DocGraph.Text.Line

/-!
# The lines of a comment

A comment is cut into lines after its opening and closing marks are removed. Each line loses its
gutter, a star behind indentation with at most one space after it, and its trailing blanks. What
remains is read line by line: a line may open a tag, mark the edge of a fenced block, or be text.

What a line is does not depend on what is written in other lines, but for one thing: inside of a
fenced block it is text. So the state that is carried from line to line is whether a block is open.
-/

namespace DocGraph.Comment

open Text

/-- Remove the star at the left edge of a line, if there is one. Of several spaces behind the star
only one is dropped. -/
def dropGutter (line : List Char) : List Char :=
  match line.dropWhile isIndent with
  | '*' :: ' ' :: rest => rest
  | '*' :: rest => rest
  | _ => line

/-- The content lines of a raw comment. The opening and closing marks are removed if they are there,
so a text without them is read as well. -/
def contentLines (raw : List Char) : List (List Char) :=
  let whole := trim raw
  let opened := (dropFront? "/**".toList whole).getD whole
  let inside := (dropBack? "*/".toList opened).getD opened
  (lines inside).map fun line => trimEnd (dropGutter line)

/-- Whether a character can begin a tag name. Only ASCII letters count. -/
def isNameStart (c : Char) : Bool := ('A' ≤ c && c ≤ 'Z') || ('a' ≤ c && c ≤ 'z')

/-- Whether a character can continue a tag name. -/
def isNameRest (c : Char) : Bool := isNameStart c || ('0' ≤ c && c ≤ '9') || c = '_'

/-- The name of the tag that a line opens, and what follows the name. Indentation before the mark is
allowed, and what follows the name is not trimmed here. -/
def tagLine? (line : List Char) : Option (List Char × List Char) :=
  match line.dropWhile isIndent with
  | '@' :: first :: rest =>
    if isNameStart first then some (first :: rest.takeWhile isNameRest, rest.dropWhile isNameRest)
    else none
  | _ => none

/-- Whether a line begins or ends a fenced block: three backticks or three tildes behind
indentation. Longer fences count as well, and whatever follows on the line. -/
def isFence (line : List Char) : Bool :=
  match line.dropWhile isIndent with
  | '\x60' :: '\x60' :: '\x60' :: _ => true
  | '~' :: '~' :: '~' :: _ => true
  | _ => false

/-- The part that a line plays in a comment. A fence is text as well: it belongs to what stands
before it. -/
inductive Role where
  /-- The line opens a tag; `own` is the text after the name. -/
  | opening (name own : List Char)
  /-- The line belongs to what stands before it. -/
  | text (line : List Char)

/-- The role of each line. Inside a fenced block no line opens a tag. A line that opens a tag does
not turn the state, even if what follows the name looks like a fence. -/
def roles (inFence : Bool) : List (List Char) → List Role
  | [] => []
  | line :: rest =>
    match if inFence then none else tagLine? line with
    | some (name, own) => .opening name own :: roles inFence rest
    | none => .text line :: roles (inFence != isFence line) rest

/-- A tag with its lines; the first is what follows the name on the tag's own line. There is always
a first line, though it may be empty. -/
structure Block where
  name : List Char
  lines : List (List Char)

/-- The text lines before the first tag, and the tags with the lines that follow each of them. The
free lines are those in front of the first tag. -/
def gather : List Role → List (List Char) × List Block
  | [] => ([], [])
  | .text line :: rest =>
    let (free, blocks) := gather rest
    (line :: free, blocks)
  | .opening name own :: rest =>
    let (free, blocks) := gather rest
    ([], ⟨name, own :: free⟩ :: blocks)

end DocGraph.Comment
