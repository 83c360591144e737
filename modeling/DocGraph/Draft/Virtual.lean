import DocGraph.Draft.Documentation

/-!
# Drafts of comments alone

A comment with a type definition or a callback that documents no declaration becomes an entity of
its own. A type definition is an interface when it documents properties and a variable otherwise; a
callback is a function.

Such a draft has no declaration that could say anything, so everything about it comes from the
comment. It is placed like the others, and stands behind them in the source order.
-/

namespace DocGraph.Draft

/-- The tag that makes a comment an entity, and the kind of that entity. A type definition takes
precedence over a callback in the same comment. -/
def definingTag? (doc : DocComment) : Option (Tag × EntityKind) :=
  match doc.first? .typedef with
  | some tag => some (tag, if doc.has .property then .interface else .variableEntity)
  | none => (doc.first? .callback).map fun tag => (tag, .function)

/-- The defining tag of a comment with the name that it gives. A defining tag without a name defines
nothing. -/
def definition? (doc : DocComment) : Option (String × Tag × EntityKind) :=
  match definingTag? doc with
  | some (tag, kind) => tag.args.head?.map fun name => (name, tag, kind)
  | none => none

/-- The draft of a comment with a given definition. The comment is applied as any other, and then
the defining tag fills what is open. -/
def ofDefinition (doc : DocComment) (name : String) (tag : Tag) (kind : EntityKind)
    (location : Location) (order : SourceOrder) : Draft :=
  let start : Draft :=
    { entity := { kind := kind, name := name, location := location, order := order } }
  (start.document doc).modifyEntity fun entity =>
    { entity with
      description := if entity.description.isEmpty then tag.body else entity.description
      typeText := entity.typeText.or tag.typeExpr
      params := if kind = .function then Param.documentedBy doc .param else entity.params }

end DocGraph.Draft
