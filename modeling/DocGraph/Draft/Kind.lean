import DocGraph.Comment.Basic
import DocGraph.Source.Basic

/-!
# From declaration shapes to entity kinds

The kind of an entity follows from the shape of its declaration, and some tags override it.
Accessors and constructors keep their kind whatever the tags say.

The tags are asked in a fixed order, whatever their order in the comment is: interfaces come before
classes, and these before namespaces and functions. So two tags that contradict each other have a
definite outcome.
-/

namespace DocGraph

namespace Declaration

/-- Whether a declaration assigns directly to a member of its own object. A longer chain such as
`this.a.b` is a path like any other. -/
def isThisMember (declaration : Declaration) : Bool :=
  declaration.kind = .assignment &&
    match declaration.target.bind fun target => Text.dropFront? "this.".toList target.toList with
    | some member => !member.isEmpty && !member.contains '.'
    | none => false

/-- The kind by shape, for a declaration whose tags are known through `tagged`. A variable that
holds a function is one, and an assignment is one also when its comment says so. -/
def shapeKind (declaration : Declaration) (tagged : TagKind → Bool) : EntityKind :=
  match declaration.kind with
  | .function | .constructor | .method => .function
  | .classDecl => .classEntity
  | .interface => .interface
  | .namespaceDecl => .namespaceEntity
  | .property => .property
  | .getter | .setter => .accessor
  | .variableDecl => if declaration.params.isEmpty then .variableEntity else .function
  | .objectLiteral => if tagged .classTag || tagged .lends then .classEntity else .variableEntity
  | .assignment =>
    if !declaration.params.isEmpty || tagged .function || tagged .param || tagged .returns then
      .function
    else if declaration.target.any fun target => target.toList.contains '.' then .property
    else .variableEntity

/-- The kind of the entity that a declaration becomes under a comment. A tag for functions does not
turn a class or a namespace into one. -/
def entityKind (declaration : Declaration) (doc : Option DocComment) : EntityKind :=
  let tagged (kind : TagKind) := doc.any fun comment => comment.has kind
  let shape := declaration.shapeKind tagged
  match declaration.kind with
  | .getter | .setter | .constructor => shape
  | _ =>
    if tagged .interface then .interface
    else if tagged .classTag then .classEntity
    else if tagged .namespaceTag then .namespaceEntity
    else if tagged .function && (shape = .variableEntity || shape = .property) then .function
    else shape

end Declaration

end DocGraph
