import DocGraph.Entity.Basic
import DocGraph.Tree

/-!
# Drafts

A draft is an entity whose path is not known yet. It records how the entity binds to the container
it was declared in, and what its documentation asks of the later passes. Drafts nest as trees.

Everything that can be said of a declaration by looking at its own file is in its draft. What is
left open is the path, since it may depend on what is declared in other files.
-/

namespace DocGraph

/-- What a declaration asks of the later passes. They are kept beside the entities while paths are
settled, and are not part of the graph. -/
structure Directives where
  /-- Every explicit visibility mark, in order. -/
  visibility : List Visibility := []
  /-- Where the members are to be lent, as written. -/
  lends : Option String := none
deriving DecidableEq, Inhabited

/-- An entity before it has a path, without the drafts nested in it. The binding, the target and the
container are what the path is made from. -/
structure Draft where
  entity : Entity
  binding : Binding := .static
  /-- The expression that was assigned to. -/
  target : Option String := none
  /-- A container named by the documentation. -/
  memberOf : Option String := none
  directives : Directives := {}
  /-- Whether this is a callable without a body. -/
  isSignature : Bool := false
deriving DecidableEq

namespace Draft

/-- Change the entity of a draft. -/
def modifyEntity (draft : Draft) (f : Entity → Entity) : Draft :=
  { draft with entity := f draft.entity }

/-- Add a visibility mark after the present ones. The order of the marks is that of the source,
though in the end only the strictest one counts. -/
def mark (draft : Draft) (level : Visibility) : Draft :=
  { draft with
    directives := { draft.directives with visibility := draft.directives.visibility ++ [level] } }

/-- Add visibility marks after the present ones. -/
def markAll (draft : Draft) (levels : List Visibility) : Draft :=
  { draft with
    directives := { draft.directives with visibility := draft.directives.visibility ++ levels } }

end Draft

end DocGraph
