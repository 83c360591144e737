import DocGraph.NamePath.Text

/-!
# References by name

A reference names an entity as it is written in documentation and code. Type arguments and array
brackets are cut off first. A reference is resolved by an exact match of the whole path, and
otherwise by the only path that ends in it.

The meaning of a reference depends on the set of the paths and not on their order: an exact match is
unique, and an ambiguous end leads nowhere.
-/

namespace DocGraph.Reference

open Text

/-- Cut a type expression down to the name that it starts with. What follows the first bracket is
dropped, whether it is closed or not. -/
def withoutTypeArguments (text : List Char) : List Char :=
  trimEnd (text.takeWhile fun c => c ≠ '<' && c ≠ '[')

/-- The name that a reference asks for. Blanks around a reference do not count. -/
def subject (text : String) : String := String.ofList (withoutTypeArguments (trim text.toList))

/-- The only member of a list. Several candidates are as good as none. -/
def only? {α : Type} : List α → Option α
  | [single] => some single
  | _ => none

/-- The path among `keys` that a reference leads to. A subject that starts with a separator has to
match the first binding too. A text that is no path leads nowhere. -/
def resolve? (keys : List NamePath) (text : String) : Option NamePath :=
  let asked := subject text
  match NamePath.parse asked with
  | .error _ => none
  | .ok query =>
    if keys.contains query then some query
    else only? (keys.filter fun key => key.endsWith query (NamePath.startsWithSeparator asked))

end DocGraph.Reference
