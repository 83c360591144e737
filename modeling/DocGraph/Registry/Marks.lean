import DocGraph.Diagnostic
import DocGraph.Registry.Basic

/-!
# Final visibility

An entity is as visible as the most restrictive of its explicit marks allows, and public without
marks. Different marks on one entity are reported.

The warnings are taken from the same marks as the visibility, before anything is lent. Superseded
entities are not looked at.
-/

namespace DocGraph.Registry

/-- The visibility marks given for a path. Those of the code come before those of the comment. -/
def marks (registry : Registry) (path : NamePath) : List Visibility :=
  ((registry.directives.get? path).map Directives.visibility).getD []

/-- The warning about different marks on one entity. Repeating one mark is no conflict. -/
def conflict? (path : NamePath) (location : Location) (marks : List Visibility) :
    Option Diagnostic :=
  let levels := Visibility.distinct marks
  if levels.length ≤ 1 then none
  else some
    { kind := .visibilityConflict
      message := path.render ++ ": conflicting visibility [" ++
        ", ".intercalate (levels.map Visibility.title) ++ "], using " ++
        (Visibility.strictest marks).title
      location := some location }

/-- The warnings about different marks, in registry order. There is one at most for each entity. -/
def visibilityWarnings (registry : Registry) : List Diagnostic :=
  registry.live.entries.filterMap fun (path, entity) =>
    conflict? path entity.location (registry.marks path)

/-- Give every live entity the visibility that its marks ask for. What an entity said of its
visibility before does not count. -/
def settleVisibility (registry : Registry) : Registry :=
  { registry with
    live := registry.live.mapValues fun path entity =>
      { entity with visibility := Visibility.strictest (registry.marks path) } }

end DocGraph.Registry
