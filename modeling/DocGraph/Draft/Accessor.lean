import DocGraph.Draft.Basic

/-!
# Accessor pairs

A getter and a setter of one name and binding become one draft, wherever they stand among their
siblings. The pair takes the place of the half that comes first in the list and the location of the
half that comes first in the source.

The source may have further accessors of the name after a pair is complete. They are joined to it in
the same way, and each of them adds what the pair still leaves open.
-/

namespace DocGraph.Draft

/-- Whether a draft is the reading half of an accessor. A pair is one as well, so a later setter is
joined to its getter. -/
def isGetter (draft : Draft) : Bool := draft.entity.accessor.any AccessorParts.getter

/-- Whether two drafts are accessors of the same name and binding. Two halves that bind differently
are members of different things. -/
def samePair (left right : Draft) : Bool :=
  left.entity.kind = .accessor && right.entity.kind = .accessor &&
    left.entity.name = right.entity.name && left.binding = right.binding

/-- The halves that either of two drafts has. A draft without parts counts as having neither. -/
def unionParts (left right : Option AccessorParts) : AccessorParts :=
  let a := left.getD {}
  let b := right.getD {}
  ⟨a.getter || b.getter, a.setter || b.setter⟩

/-- The entity of a pair. What the main half leaves open comes from the other half. Lists of both
halves are put together, those of the main half first. -/
def pairEntity (main other : Entity) (earlier : Entity) : Entity :=
  { main with
    location := earlier.location
    order := earlier.order
    documented := main.documented || other.documented
    description := if main.description.isEmpty then other.description else main.description
    deprecated := main.deprecated.or other.deprecated
    typeText := main.typeText.or other.typeText
    tags := main.tags ++ other.tags
    examples := main.examples ++ other.examples
    seeAlso := main.seeAlso ++ other.seeAlso
    throws := main.throws ++ other.throws
    isStatic := main.isStatic || other.isStatic
    isAbstract := main.isAbstract || other.isAbstract
    isExported := main.isExported || other.isExported
    accessor := some (unionParts main.accessor other.accessor) }

/-- Complete a main half by the other half, at the place of the earlier one. Of the directives only
the visibility marks of the other half are taken over. -/
def pairWith (main other : Tree Draft) (earlier : Entity) : Tree Draft :=
  .node
    ((main.value.markAll other.value.directives.visibility).modifyEntity fun entity =>
      pairEntity entity other.value.entity earlier)
    (main.children ++ other.children)

/-- One draft for two halves. The getter is the main half; without one, or with two, it is the half
that stands first. So for a getter and a setter it does not matter which of them was written first,
but for their place. -/
def combineAccessor (first second : Tree Draft) : Tree Draft :=
  let earlier :=
    if first.value.entity.order.upTo second.value.entity.order then first.value.entity
    else second.value.entity
  if isGetter first.value || !isGetter second.value then pairWith first second earlier
  else pairWith second first earlier

/-- Take a draft into a list of siblings, joining it to its other half if that is there. A list made
in this way has one draft at most for each name and binding of accessors. -/
def addMember (siblings : List (Tree Draft)) (draft : Tree Draft) : List (Tree Draft) :=
  if siblings.any fun held => samePair held.value draft.value then
    siblings.map fun held =>
      if samePair held.value draft.value then combineAccessor held draft else held
  else siblings ++ [draft]

/-- Pair the accessors of a list of siblings. -/
def mergeAccessors (drafts : List (Tree Draft)) : List (Tree Draft) := drafts.foldl addMember []

end DocGraph.Draft
