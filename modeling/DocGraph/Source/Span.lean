/-!
# Source ranges

Positions are ordered by line and then by column. Lines count from one; columns may all be zero, in
which case positions on one line are not told apart.

Without columns, what stands on one line counts as standing at one place, and then nothing on it is
before anything else.
-/

namespace DocGraph

/-- A place in a source text. -/
structure Position where
  line : UInt32
  column : UInt32
deriving DecidableEq

/-- Whether a position comes before another. Two positions on one line without columns are the same
position. -/
def Position.before (left right : Position) : Bool :=
  left.line < right.line || (left.line == right.line && left.column < right.column)

/-- Whether a position comes no later than another. The order is total, so this is the same as not
coming after. -/
def Position.upTo (left right : Position) : Bool := !right.before left

/-- A range of a source text. The end is a position of its own, and may be given as one before the
start. -/
structure Span where
  startLine : UInt32
  endLine : UInt32
  startColumn : UInt32 := 0
  endColumn : UInt32 := 0
deriving DecidableEq, Inhabited

namespace Span

/-- Where a range begins. -/
def start (span : Span) : Position := ⟨span.startLine, span.startColumn⟩

/-- Where a range ends. -/
def stop (span : Span) : Position := ⟨span.endLine, span.endColumn⟩

/-- Whether another range lies entirely inside this one. A range contains itself. -/
def contains (outer within : Span) : Bool :=
  outer.start.upTo within.start && within.stop.upTo outer.stop

end Span

end DocGraph
