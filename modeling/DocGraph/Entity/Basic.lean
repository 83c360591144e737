import DocGraph.NamePath.Basic
import DocGraph.Tag.Basic
import DocGraph.Visibility

/-!
# Documentation entities

An entity is one documented program element in uniform form. It knows its path, its place in the
source, everything its documentation and its code say about it, and its relations to other entities
by name. The list of its direct members is filled in when a graph is built and is not part of its
own record.

Everything in the record is data that can be written and compared. Relations and references are kept
as they were written besides what they lead to, so that an unresolved one still says what was meant.
-/

namespace DocGraph

/-- The kinds of entities. Every declaration shape becomes one of these. Kinds differ in what they
list: only functions and classes have parameters, for instance. -/
inductive EntityKind where
  | function
  | classEntity
  | interface
  | property
  | accessor
  | variableEntity
  | namespaceEntity
deriving DecidableEq, Inhabited

namespace EntityKind

/-- The word for a kind. -/
def word : EntityKind → String
  | function => "function"
  | classEntity => "class"
  | interface => "interface"
  | property => "property"
  | accessor => "accessor"
  | variableEntity => "variable"
  | namespaceEntity => "namespace"

/-- Every kind. -/
def all : List EntityKind :=
  [function, classEntity, interface, property, accessor, variableEntity, namespaceEntity]

end EntityKind

/-- Where an entity was declared. It is for readers. The order of declarations is kept apart from
it. -/
structure Location where
  file : String := ""
  line : UInt32 := 0
deriving DecidableEq, Inhabited

/-- A place in the order of all declarations: the file's place among the files, then the
declaration's place in its file. It is what decides between two declarations of one path. -/
structure SourceOrder where
  file : UInt32 := 0
  sequence : UInt32 := 0
deriving DecidableEq, Inhabited

namespace SourceOrder

/-- File first, then sequence. -/
def compare (left right : SourceOrder) : Ordering :=
  (Ord.compare left.file right.file).then (Ord.compare left.sequence right.sequence)

instance : Ord SourceOrder := ⟨compare⟩

/-- Whether a place comes no later than another. Places are totally ordered, so of two one comes no
later than the other. -/
def upTo (left right : SourceOrder) : Bool := (compare left right).isLE

end SourceOrder

/-- A formal parameter or a documented property. The name of a field is the dotted path to it. -/
@[ext]
structure Param where
  name : String := ""
  typeText : Option String := none
  description : String := ""
  defaultText : Option String := none
  isOptional : Bool := false
  isVariadic : Bool := false
deriving DecidableEq, Inhabited

/-- One kind of value that a function can return. A function may have several, from its comment or
from its overloads. -/
@[ext]
structure Returns where
  typeText : Option String := none
  description : String := ""
deriving DecidableEq, Inhabited

/-- One kind of exception that a function can raise. -/
structure Throws where
  typeText : Option String := none
  description : String := ""
deriving DecidableEq, Inhabited

/-- A type parameter. The constraint is what it has to extend. -/
structure TypeParam where
  name : String := ""
  constraint : Option String := none
  defaultText : Option String := none
  description : String := ""
deriving DecidableEq, Inhabited

/-- One signature of an overloaded function. What the signatures have in common is kept in the
entity itself. -/
structure Signature where
  params : List Param := []
  returns : List Returns := []
  description : String := ""
deriving DecidableEq, Inhabited

/-- Which halves of an accessor were declared. -/
structure AccessorParts where
  getter : Bool := false
  setter : Bool := false
deriving DecidableEq, Inhabited

/-- The kinds of links between entities. The first two come from the source, the other two from
placing and lending. -/
inductive RelationKind where
  | extending
  | implementing
  | lending
  | shadowing
deriving DecidableEq, Inhabited

namespace RelationKind

/-- The word for a kind. -/
def word : RelationKind → String
  | extending => "extends"
  | implementing => "implements"
  | lending => "lends"
  | shadowing => "shadow"

/-- Every kind. -/
def all : List RelationKind := [extending, implementing, lending, shadowing]

/-- Whether a link of this kind leads to a supertype. Only such links are followed when members are
inherited. -/
def isSupertype : RelationKind → Bool
  | extending | implementing => true
  | lending | shadowing => false

end RelationKind

/-- A link to another entity by name, resolved when the name is known. An unresolved one names
something that is not there, or not yet. -/
structure Relation where
  kind : RelationKind
  target : String
  resolved : Option NamePath := none
deriving DecidableEq

/-- A documented program element. Most fields are empty for most kinds. -/
structure Entity where
  kind : EntityKind
  name : String
  path : NamePath := .root
  /-- The path of the container, none at top level. -/
  parent : Option NamePath := none
  location : Location := {}
  order : SourceOrder := {}
  visibility : Visibility := .publicAccess
  /-- The reason of a deprecation, empty when none was given. -/
  deprecated : Option String := none
  description : String := ""
  tags : List Tag := []
  params : List Param := []
  returns : List Returns := []
  throws : List Throws := []
  /-- The value type of properties, variables and accessors. -/
  typeText : Option String := none
  typeParams : List TypeParam := []
  examples : List String := []
  seeAlso : List String := []
  properties : List Param := []
  signatures : List Signature := []
  accessor : Option AccessorParts := none
  isStatic : Bool := false
  isAbstract : Bool := false
  isOptional : Bool := false
  isConstructor : Bool := false
  isExported : Bool := false
  /-- Whether a comment documents the entity. -/
  documented : Bool := false
  relations : List Relation := []
  /-- The direct members, filled in by the graph. -/
  members : List NamePath := []
deriving DecidableEq

namespace Entity

/-- Whether an entity is deprecated. -/
def isDeprecated (entity : Entity) : Bool := entity.deprecated.isSome

/-- The relations of one kind. -/
def relationsOf (entity : Entity) (kind : RelationKind) : List Relation :=
  entity.relations.filter fun relation => relation.kind = kind

/-- Put an entity at a path. Its parent is that path's parent. The two are always changed
together. -/
def movedTo (entity : Entity) (path : NamePath) : Entity :=
  { entity with path := path, parent := path.parent? }

/-- Add a relation after the present ones. The order is that in which they came to be known. -/
def addRelation (entity : Entity) (relation : Relation) : Entity :=
  { entity with relations := entity.relations ++ [relation] }

end Entity

/-- What is said about the whole module. It is joined from the comments of all files. -/
structure ModuleInfo where
  name : String := ""
  description : String := ""
  version : Option String := none
  authors : List String := []
  license : Option String := none
deriving DecidableEq, Inhabited

end DocGraph
