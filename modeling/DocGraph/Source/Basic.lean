import DocGraph.Source.Span
import DocGraph.Text.Blank
import DocGraph.Text.Cut
import DocGraph.Tree
import DocGraph.Visibility

/-!
# Parsed source files

A source file arrives already parsed: its raw comments, markers included, and its declarations,
which nest. Both carry their ranges. Everything the builder knows about the code is in these
records.

Ranges are taken as they are given. Nothing here relies on their being well formed, or on
declarations standing in the order of the text.
-/

namespace DocGraph

/-- A raw comment. The text includes the opening and the closing mark. -/
structure SourceComment where
  text : String
  span : Span
deriving DecidableEq

/-- Documentation comments open with exactly two stars. A banner with three or more, an empty
comment and any other comment document nothing. Leading blanks do not count. -/
def SourceComment.isDocText (text : String) : Bool :=
  let start := Text.trimStart text.toList
  (Text.dropFront? "/**".toList start).isSome && (Text.dropFront? "/***".toList start).isNone &&
    start ≠ "/**/".toList

/-- Whether a comment is documentation. -/
def SourceComment.isDoc (comment : SourceComment) : Bool := isDocText comment.text

/-- The shapes of declarations. It says how something is written, and the kind of its entity says
what it is. -/
inductive DeclKind where
  | function
  | classDecl
  | interface
  | namespaceDecl
  | constructor
  | method
  | property
  | getter
  | setter
  | variableDecl
  /-- A variable that holds a literal object; its children are the members. -/
  | objectLiteral
  /-- An assignment to a dotted target. -/
  | assignment
deriving DecidableEq

namespace DeclKind

/-- The word for a shape. -/
def word : DeclKind → String
  | function => "function"
  | classDecl => "class"
  | interface => "interface"
  | namespaceDecl => "namespace"
  | constructor => "constructor"
  | method => "method"
  | property => "property"
  | getter => "getter"
  | setter => "setter"
  | variableDecl => "variable"
  | objectLiteral => "object_literal"
  | assignment => "assignment"

/-- Every shape. -/
def all : List DeclKind :=
  [function, classDecl, interface, namespaceDecl, constructor, method, property, getter, setter,
    variableDecl, objectLiteral, assignment]

end DeclKind

/-- A parameter as written in code. Its name is empty for a destructuring pattern without a name of
its own; the fields of a pattern are its children. The text of a type or a default is kept as it is
written. -/
structure ParamDecl where
  name : String := ""
  typeText : Option String := none
  defaultText : Option String := none
  isOptional : Bool := false
  isRest : Bool := false
deriving DecidableEq, Inhabited

/-- A type parameter as written in code. -/
structure TypeParamDecl where
  name : String
  constraint : Option String := none
  defaultText : Option String := none
deriving DecidableEq, Inhabited

/-- A declaration without its nested declarations. A field that does not apply to a shape has its
default. -/
structure Declaration where
  kind : DeclKind
  name : Option String := none
  span : Span
  params : List (Tree ParamDecl) := []
  typeParams : List TypeParamDecl := []
  /-- The return type of callables, the value type of everything else. -/
  typeText : Option String := none
  isStatic : Bool := false
  isAbstract : Bool := false
  isOptional : Bool := false
  isExported : Bool := false
  /-- The access modifier written in code. -/
  modifier : Option Visibility := none
  supertypes : List String := []
  interfaces : List String := []
  /-- False for overload signatures and constructors without a body. -/
  hasBody : Bool := true
  /-- The left-hand side of an assignment. -/
  target : Option String := none

namespace Declaration

/-- The text after the last dot of a dotted expression. A text without dots is its own last
identifier. -/
def lastIdentifier (target : String) : String :=
  match Text.cutLast? '.' target.toList with
  | some (_, last) => String.ofList last
  | none => target

/-- The name as written, or else the last identifier of the assignment target. A declaration without
any name is not documented. -/
def displayName? (declaration : Declaration) : Option String :=
  match declaration.name with
  | some name => some name
  | none =>
    match declaration.target with
    | some target =>
      if (lastIdentifier target).isEmpty then none else some (lastIdentifier target)
    | none => none

end Declaration

/-- A parsed file. The path is a name, and is not looked up anywhere. -/
structure SourceFile where
  path : String
  comments : List SourceComment := []
  declarations : List (Tree Declaration) := []

end DocGraph
