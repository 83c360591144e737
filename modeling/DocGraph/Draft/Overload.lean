import DocGraph.Draft.Basic
import DocGraph.Text.Blank
import DocGraph.Text.Cut

/-!
# Overload sets

Neighbouring drafts of one function, all bodiless signatures except possibly the last, form an
overload set and become one draft. It stands for the union of the signatures; the documentation
comes from the documented signatures, and from the implementation only when no signature is
documented.

The merged draft keeps each signature for itself as well, with its own parameters, so that nothing
is lost by the union. What is nested in the implementation is what is nested in the draft.
-/

namespace DocGraph.Draft

/-- Whether two drafts are functions of the same name and binding. Functions that bind differently
are never overloads of each other. -/
def sameCallable (left right : Draft) : Bool :=
  left.entity.kind = .function && right.entity.kind = .function &&
    left.entity.name = right.entity.name && left.binding = right.binding

/-- Whether a draft continues the overload set of its left neighbour. An implementation ends its
set: what comes behind it is not a neighbour any more. -/
def continues (left right : Tree Draft) : Bool :=
  left.value.isSignature && sameCallable left.value right.value

/-- The alternatives of a type, trimmed. The type is cut at every bar. -/
def alternatives (typeText : String) : List (List Char) :=
  (Text.pieces '|' typeText.toList).map Text.trim

/-- Join two types as a union. Alternatives that are already there are not added. A missing type
adds nothing. -/
def joinTypes : Option String → Option String → Option String
  | existing, none => existing
  | none, some other => some other
  | some existing, some other =>
    let joined := (alternatives other).foldl
      (fun parts part => if parts.contains part then parts else parts ++ [part])
      (alternatives existing)
    some (String.ofList (" | ".toList.intercalate joined))

/-- A parameter after another signature's parameter of the same name is taken in. The first
parameter keeps its name and its place. -/
def absorbParam (existing param : Param) : Param :=
  { existing with
    typeText := joinTypes existing.typeText param.typeText
    description := if existing.description.isEmpty then param.description else existing.description
    defaultText := existing.defaultText.or param.defaultText
    isOptional := existing.isOptional || param.isOptional
    isVariadic := existing.isVariadic || param.isVariadic }

/-- Take a parameter into a list that has each name once. The name decides which parameters are
one. -/
def addParam (collected : List Param) (param : Param) : List Param :=
  if collected.any fun held => held.name = param.name then
    collected.map fun held => if held.name = param.name then absorbParam held param else held
  else collected ++ [param]

/-- A parameter is optional when some signature lacks it, and without a description of its own takes
one from the documenting parameters. A parameter that is missing in a signature can be left out, so
it is optional in the union. -/
def completeParam (lists : List (List Param)) (documenting : List Param) (param : Param) : Param :=
  { param with
    isOptional :=
      param.isOptional || lists.any fun list => !list.any fun other => other.name = param.name
    description :=
      if param.description.isEmpty then
        match documenting.find? fun doc =>
          doc.name = param.name && !doc.description.isEmpty with
        | some doc => doc.description
        | none => param.description
      else param.description }

/-- The parameters of all signatures by name, in the order of first occurrence. -/
def unionParams (lists : List (List Param)) (documenting : List Param) : List Param :=
  (lists.flatten.foldl addParam []).map (completeParam lists documenting)

/-- Take a returned value into a list that has each type once. Two values without a type are one as
well. -/
def addReturns (collected : List Returns) (returned : Returns) : List Returns :=
  if collected.any fun held => held.typeText = returned.typeText then
    collected.map fun held =>
      if held.typeText = returned.typeText && held.description.isEmpty then
        { held with description := returned.description }
      else held
  else collected ++ [returned]

/-- The returned values of all signatures by type, in the order of first occurrence. -/
def unionReturns (lists : List (List Returns)) : List Returns :=
  lists.flatten.foldl addReturns []

/-- Add the relations that are not there yet. They are compared as a whole, kind and target and
all. -/
def unionRelations (existing added : List Relation) : List Relation :=
  added.foldl
    (fun relations relation =>
      if relations.contains relation then relations else relations ++ [relation]) existing

/-- A draft after the marks, flags and relations of another part are taken in. A flag of any part is
a flag of the whole. -/
def absorbFlags (draft part : Draft) : Draft :=
  (draft.markAll part.directives.visibility).modifyEntity fun entity =>
    { entity with
      isStatic := entity.isStatic || part.entity.isStatic
      isAbstract := entity.isAbstract || part.entity.isAbstract
      isExported := entity.isExported || part.entity.isExported
      relations := unionRelations entity.relations part.entity.relations }

/-- The parts whose documentation counts for the whole set. An implementation repeats its
signatures, so its comment counts only where they have none. -/
def documentingParts (signatures : List Draft) (implementation : Option Draft) : List Draft :=
  if signatures.any fun part => part.entity.documented then
    signatures.filter fun part => part.entity.documented
  else implementation.toList.filter fun part => part.entity.documented

/-- The entity of an overload set, before flags and relations are taken in. What is listed by
several parts is put together in their order. -/
def overloadEntity (first : Entity) (signatures documenting : List Entity) : Entity :=
  { first with
    signatures := signatures.map fun part => ⟨part.params, part.returns, part.description⟩
    params := unionParams (signatures.map Entity.params) (documenting.flatMap Entity.params)
    returns := unionReturns (signatures.map Entity.returns)
    documented := !documenting.isEmpty
    description :=
      ((documenting.map Entity.description).find? fun text => !text.isEmpty).getD ""
    deprecated := documenting.findSome? Entity.deprecated
    tags := documenting.flatMap Entity.tags
    examples := documenting.flatMap Entity.examples
    seeAlso := documenting.flatMap Entity.seeAlso
    throws := documenting.flatMap Entity.throws }

/-- One draft for an overload set, given its first signature and its other parts. The result is not
a signature, so it is not taken into another set. -/
def combineOverloads (first : Tree Draft) (others : List (Tree Draft)) : Tree Draft :=
  let laterSignatures := (others.filter fun part => part.value.isSignature).map Tree.value
  let implementation := others.find? fun part => !part.value.isSignature
  let signatures := first.value :: laterSignatures
  let documenting := documentingParts signatures (implementation.map Tree.value)
  let merged := first.value.modifyEntity fun entity =>
    overloadEntity entity (signatures.map Draft.entity) (documenting.map Draft.entity)
  let flagged := (laterSignatures ++ (implementation.map Tree.value).toList).foldl
    absorbFlags merged
  .node { flagged with isSignature := false }
    (match implementation with
    | some part => part.children
    | none => first.children)

/-- A run of neighbours as one draft. A single draft is left as it is, even if it is a signature. -/
def combineRun : List (Tree Draft) → List (Tree Draft)
  | first :: second :: rest => [combineOverloads first (second :: rest)]
  | short => short

/-- Collapse every overload set of a list of siblings. Runs are cut at every neighbour that does not
continue. -/
def mergeOverloads (drafts : List (Tree Draft)) : List (Tree Draft) :=
  (drafts.splitBy continues).flatMap combineRun

end DocGraph.Draft
