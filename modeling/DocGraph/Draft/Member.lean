import DocGraph.Draft.Accessor
import DocGraph.Draft.Overload

/-!
# Members of one container

Overload sets collapse first and accessors pair up afterwards. A member that a method assigns to its
own object joins the members of the class last.

The order matters. Accessors are never overloaded, but a set of overloads may stand between the
halves of a pair, and what is handed up must find the final members in order to know whether its
name is taken.
-/

namespace DocGraph.Draft

/-- Merge the drafts declared in one container. It is applied in every body and at the top level. -/
def mergeMembers (drafts : List (Tree Draft)) : List (Tree Draft) :=
  mergeAccessors (mergeOverloads drafts)

/-- Add a member found in a method to the members of its class. It yields to a member of the same
name and binding, unless only the newcomer is documented. A member that gives way is dropped with
everything nested in it. -/
def adopt : List (Tree Draft) → Tree Draft → List (Tree Draft)
  | [], member => [member]
  | held :: rest, member =>
    if held.value.entity.name = member.value.entity.name ∧
        held.value.binding = member.value.binding then
      (if !held.value.entity.documented && member.value.entity.documented then member
        else held) :: rest
    else held :: adopt rest member

/-- Add the members found in methods one after the other. They are tried in the order of the source,
so of two documented ones the first one stays. -/
def adoptAll (members found : List (Tree Draft)) : List (Tree Draft) := found.foldl adopt members

end DocGraph.Draft
