/-!
# Lines

A line ends at a line feed, and a carriage return directly before that line feed belongs to the line
end. A text that stops without a line feed still has its last line, and a final line feed opens no
further one.

The two functions undo each other only up to line ends: what is joined has line feeds alone, and a
text that ended in one has lost it.
-/

namespace DocGraph.Text

/-- The lines of a text, without their line ends. A carriage return anywhere else belongs to the
text. -/
def lines : List Char → List (List Char)
  | [] => []
  | '\n' :: rest => [] :: lines rest
  | '\r' :: '\n' :: rest => [] :: lines rest
  | c :: rest =>
    match lines rest with
    | [] => [[c]]
    | line :: others => (c :: line) :: others

/-- Put one line feed between neighbouring lines. No line feed follows the last line. -/
def joinLines (lines : List (List Char)) : List Char := ['\n'].intercalate lines

end DocGraph.Text
