import DocGraph.Draft.Basic
import DocGraph.Draft.Parameter

/-!
# What a comment says about an entity

A comment is applied to a draft tag by tag, in order. Each tag adds to a list, fills what is still
open, or sets a directive for the later passes; tags that say nothing about an entity only stay in
its list of tags.

The code was applied before. So supertypes that it names are not added again, type parameters that
it has are described where they stand, and the marks of the comment come after the modifier of the
code.
-/

namespace DocGraph.Draft

/-- Add a supertype unless it is already named. The code may have named it already, and then nothing
is added. -/
def addSupertype (draft : Draft) (kind : RelationKind) (target : String) : Draft :=
  draft.modifyEntity fun entity =>
    if entity.relations.any fun relation => relation.kind = kind && relation.target = target then
      entity
    else entity.addRelation { kind := kind, target := target }

/-- Describe a type parameter, or add it when the code does not have it. Only the first one of the
name is described. The constraint in the code takes precedence over the documented one. -/
def describeTypeParam (name : String) (tag : Tag) : List TypeParam → List TypeParam
  | [] => [{ name := name, constraint := tag.typeExpr, description := tag.body }]
  | param :: rest =>
    if param.name = name then
      { param with description := tag.body, constraint := param.constraint.or tag.typeExpr } :: rest
    else param :: describeTypeParam name tag rest

/-- Apply one tag. Each kind has one effect, which does not depend on the other tags but through the
draft. -/
def applyTag (draft : Draft) (tag : Tag) : Draft :=
  match tag.kind with
  | .returns =>
    draft.modifyEntity fun entity =>
      { entity with returns := entity.returns ++ [⟨tag.typeExpr, tag.body⟩] }
  | .throws =>
    draft.modifyEntity fun entity =>
      { entity with throws := entity.throws ++ [⟨tag.typeExpr, tag.body⟩] }
  | .exampleTag =>
    draft.modifyEntity fun entity => { entity with examples := entity.examples ++ [tag.body] }
  | .deprecated =>
    draft.modifyEntity fun entity =>
      { entity with deprecated := entity.deprecated.or (some tag.body) }
  | .see =>
    draft.modifyEntity fun entity =>
      { entity with seeAlso := entity.seeAlso ++ tag.args.head?.toList }
  | .privateTag => draft.mark .privateAccess
  | .protectedTag => draft.mark .protectedAccess
  | .publicTag => draft.mark .publicAccess
  | .access => draft.markAll (tag.target?.bind Visibility.ofWord?).toList
  | .lends => { draft with directives := { draft.directives with lends := tag.target? } }
  | .memberof => { draft with memberOf := tag.target? }
  | .static => draft.modifyEntity fun entity => { entity with isStatic := true }
  | .abstract => draft.modifyEntity fun entity => { entity with isAbstract := true }
  | .type | .member =>
    draft.modifyEntity fun entity => { entity with typeText := tag.typeExpr.or entity.typeText }
  | .property =>
    draft.modifyEntity fun entity =>
      { entity with properties := entity.properties ++ (tag.param.map (Param.ofTag tag)).toList }
  | .augments =>
    match tag.args with
    | target :: _ => draft.addSupertype .extending target
    | [] => draft
  | .implements =>
    match tag.args with
    | target :: _ => draft.addSupertype .implementing target
    | [] => draft
  | .template =>
    match tag.args with
    | name :: _ =>
      draft.modifyEntity fun entity =>
        { entity with typeParams := describeTypeParam name tag entity.typeParams }
    | [] => draft
  | .classdesc =>
    draft.modifyEntity fun entity =>
      { entity with
        description := if entity.description.isEmpty then tag.body else entity.description }
  | _ => draft

/-- Apply a whole comment. The tags are kept as a list besides, in the order of the comment. -/
def document (draft : Draft) (doc : DocComment) : Draft :=
  let described := draft.modifyEntity fun entity =>
    { entity with documented := true, description := doc.description }
  (doc.tags.foldl applyTag described).modifyEntity fun entity => { entity with tags := doc.tags }

/-- Apply the comment of a draft that may have none. A draft without a comment stays
undocumented. -/
def documentWith (draft : Draft) : Option DocComment → Draft
  | some doc => draft.document doc
  | none => draft

end DocGraph.Draft
