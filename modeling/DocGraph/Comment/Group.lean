/-!
# Bracketed groups

A group runs from an opening bracket to the bracket that closes it. Brackets of the same kind nest.
Stretches in single, double or back quotes are skipped, and inside them a backslash keeps the next
character from closing the stretch.

The scan keeps count of brackets and remembers whether it is inside quotes. A quote that is never
closed hides all brackets behind it, and then the group is not closed either.
-/

namespace DocGraph.Comment

/-- A text in view of a leading group. The three outcomes exclude each other, and readers treat them
differently. -/
inductive Group where
  /-- The text does not start with the opening bracket. -/
  | absent
  /-- The content of the group and what follows it. -/
  | found (content after : List Char)
  /-- The opening bracket is never closed. -/
  | unterminated
deriving DecidableEq

/-- Whether a scan stands inside quotes. Inside quotes only the mark that opened them and
backslashes count. -/
inductive Quoting where
  | outside
  | inside (mark : Char)
  /-- Behind a backslash inside quotes. -/
  | escaped (mark : Char)
deriving DecidableEq

/-- Whether a character opens a quoted stretch. -/
def isQuote (c : Char) : Bool := c = '"' || c = '\'' || c = '\x60'

/-- The content up to the closing bracket and what follows it. `depth` counts the brackets that have
to be closed before that one. Everything that is passed becomes content, quotes and inner brackets
too. -/
def scanGroup (opening closing : Char) (depth : Nat) (quoting : Quoting) :
    List Char → Option (List Char × List Char)
  | [] => none
  | c :: rest =>
    let keep (depth : Nat) (quoting : Quoting) :=
      (scanGroup opening closing depth quoting rest).map fun (content, after) =>
        (c :: content, after)
    match quoting with
    | .escaped mark => keep depth (.inside mark)
    | .inside mark =>
      if c = '\\' then keep depth (.escaped mark)
      else if c = mark then keep depth .outside
      else keep depth (.inside mark)
    | .outside =>
      if isQuote c then keep depth (.inside c)
      else if c = opening then keep (depth + 1) .outside
      else if c = closing then
        match depth with
        | 0 => some ([], rest)
        | outer + 1 => keep outer .outside
      else keep depth .outside

/-- Split a leading group off a text. Only the first character decides whether there is a group at
all. -/
def splitGroup (opening closing : Char) : List Char → Group
  | [] => .absent
  | c :: rest =>
    if c = opening then
      match scanGroup opening closing 0 .outside rest with
      | some (content, after) => .found content after
      | none => .unterminated
    else .absent

/-- Split off a group in braces. -/
def splitBraces : List Char → Group := splitGroup '{' '}'

/-- Split off a group in square brackets. -/
def splitBrackets : List Char → Group := splitGroup '[' ']'

end DocGraph.Comment
