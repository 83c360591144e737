import DocGraph.Entity.Basic
import DocGraph.Text.Blank
import DocGraph.Text.Cut
import DocGraph.Text.Quoted

/-!
# Default values in parameter lists

A default is shown as it was written, except that the default of a parameter whose first type is
`string` is shown as a string literal, quoted unless it already is.

This is for showing a parameter only. What is stored is the default as it was written.
-/

namespace DocGraph.Param

/-- Whether a value stands in a pair of equal quotes. A single quote is not a pair. -/
def isQuotedValue (value : List Char) : Bool :=
  match value, value.getLast? with
  | first :: _ :: _, some last => (first = '"' || first = '\'' || first = '\x60') && first = last
  | _, _ => false

/-- Whether the first alternative of a type is `string`. The other alternatives do not matter. -/
def isStringFirst (typeText : String) : Bool :=
  match Text.pieces '|' typeText.toList with
  | first :: _ => Text.trim first = "string".toList
  | [] => false

/-- The default as it follows the equals sign in a parameter list. The value is escaped where it is
quoted. -/
def formattedDefault (param : Param) : Option String :=
  param.defaultText.map fun value =>
    if param.typeText.any isStringFirst && !isQuotedValue value.toList then Text.quoted value
    else value

end DocGraph.Param
