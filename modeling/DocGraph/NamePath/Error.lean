/-!
# Faults in written name-paths

Each fault carries the whole text in which it was found.

The fault that is met first is the one that is reported.
-/

namespace DocGraph

/-- Why a text is no name-path. An empty segment of an empty text is reported as an empty text. -/
inductive PathError where
  /-- The text is empty. -/
  | empty
  /-- A quoted name is not closed. -/
  | unterminatedQuote (text : String)
  /-- A segment contributes no character and is not quoted. -/
  | emptySegment (text : String)
deriving DecidableEq

/-- The wording of a fault. -/
def PathError.message : PathError → String
  | empty => "empty name-path"
  | unterminatedQuote text => "unterminated quote in name-path: " ++ text
  | emptySegment text => "empty segment in name-path: " ++ text

end DocGraph
