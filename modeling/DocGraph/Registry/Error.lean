import DocGraph.Entity.Basic
import DocGraph.NamePath.Text

/-!
# Faults that stop a build

Only structural problems stop a build. Everything else is a warning.

A fault carries the data of its message, so that it can be told which paths, entities or files it is
about.
-/

namespace DocGraph

/-- Why a build has no result. Each of them leaves no sensible way to go on. -/
inductive BuildError where
  /-- Members are lent in a circle, or into the part that lends them. The chain
  leads from the lending entity to the place where the circle closes. -/
  | lendsCycle (chain : List NamePath)
  /-- Two declarations of one path have the same place in the source order. -/
  | pathCollision (path : NamePath) (first second : Entity)
  /-- Two files have the same path. -/
  | duplicateSource (path : String)
deriving DecidableEq

namespace BuildError

/-- An entity by name and location. -/
def sighting (entity : Entity) : String :=
  entity.name ++ " (" ++ entity.location.file ++ ":" ++ toString entity.location.line.toNat ++ ")"

/-- The wording of a fault. Paths are written as everywhere else. -/
def message : BuildError → String
  | lendsCycle chain =>
    "cyclic @lends redirection: " ++ " -> ".intercalate (chain.map NamePath.render)
  | pathCollision path first second =>
    "name-path collision at " ++ path.render ++ ": " ++ sighting first ++ " and " ++
      sighting second ++ " have no deterministic order"
  | duplicateSource path => "source file given more than once: " ++ path

end BuildError

end DocGraph
