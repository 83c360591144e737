import DocGraph.NamePath.Text
import DocGraph.Json.Basic

/-!
# Name-paths in JSON

A path is a string in its written form, and the empty string is the root.

The first binding of a path is not written, so a path that begins otherwise than statically is read
back as one that does.
-/

namespace DocGraph

namespace Binding

/-- The word for a binding. It is for places where no separator would be understood. -/
def word : Binding → String
  | static => "static"
  | onInstance => "instance"
  | inner => "inner"

/-- Every binding. -/
def all : List Binding := [static, onInstance, inner]

end Binding

namespace NamePath

/-- Write a path. -/
def toJson (path : NamePath) : Json := .text path.render

/-- Read a path. A text that is no path is refused, and so is any other value. -/
def ofJson? : Json → Option NamePath
  | .text written =>
    match parseOrRoot written with
    | .ok path => some path
    | .error _ => none
  | _ => none

end NamePath

end DocGraph
