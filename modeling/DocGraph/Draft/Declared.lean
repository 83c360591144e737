import DocGraph.Attachment
import DocGraph.Draft.Documentation
import DocGraph.Draft.Kind
import DocGraph.Draft.Member

/-!
# Drafts of declarations

Every declaration with a name becomes a draft, and one without a name is left out together with
everything below it. The remaining declarations are numbered in preorder and joined with their
comments; the drafts then follow from the tree of these sites alone.

A method that assigns to `this.x` gives its class the member `x`. Such members are handed up from
the method to the class and join its other members last.

A site carries everything that the draft of its declaration depends on, but for what is nested in it
and the body that it stands in. So drafting is a recursion on the tree of sites, with the scope
handed down and the contributions handed up.
-/

namespace DocGraph

/-- A named declaration with its place in the source order and its comment. The place in the source
order tells sites apart, even when they have the same name. -/
structure Site where
  name : String
  declaration : Declaration
  location : Location
  order : SourceOrder
  doc : Option DocComment

/-- The body that a declaration stands in. It decides how a declaration binds and whether an
assignment is handed up. -/
inductive Scope where
  | topLevel
  /-- A class or interface body. -/
  | classBody
  /-- A namespace or object literal. -/
  | namespaceBody
  /-- A function body, directly inside a class member or not. -/
  | functionBody (inMethod : Bool)
deriving DecidableEq

/-- The name under which a declaration becomes an entity. A constructor has the same name in every
class. -/
def Declaration.entityName? (declaration : Declaration) : Option String :=
  if declaration.kind = .constructor then some "constructor" else declaration.displayName?

namespace Site

/-- The kind of the entity at a site. The comment is asked too, since a tag can change the kind. -/
def kind (site : Site) : EntityKind := site.declaration.entityKind site.doc

/-- The scope of what is nested in a declaration. Only the bodies of class members count as being in
a method; a function inside of one does not. -/
def childScope (site : Site) (scope : Scope) : Scope :=
  match site.declaration.kind with
  | .classDecl | .interface => .classBody
  | .constructor | .method | .getter | .setter => .functionBody (scope = .classBody)
  | .function => .functionBody false
  | _ => if site.kind = .function then .functionBody false else .namespaceBody

/-- Whether the member declared here belongs to the class around the method. Elsewhere such an
assignment stays where it is. -/
def isHoisted (site : Site) (scope : Scope) : Bool :=
  site.declaration.isThisMember && scope = .functionBody true

/-- The documented parameters of a site. Without a comment there are none. -/
def documentedParams (site : Site) : List Param :=
  match site.doc with
  | some doc => Param.documentedBy doc .param
  | none => []

/-- The code parameters of a site, flattened. The documentation is asked for the names of patterns
that have none. -/
def codeParams (site : Site) : List Param :=
  Param.flattenCode site.declaration.params site.documentedParams

/-- Whether the parameters of a site are listed on its entity. The parameter of a setter gives its
type instead. -/
def listsParams (site : Site) : Bool :=
  match site.declaration.kind with
  | .getter | .setter => false
  | _ => site.kind = .function || site.kind = .classEntity

/-- The warnings about the defaults of a site's parameters. They are given for the same parameters
that are listed. -/
def warnings (site : Site) : List Diagnostic :=
  if site.listsParams then
    Param.reconcileWarnings site.location site.documentedParams site.codeParams
  else []

/-- The halves of an accessor that a site declares. A pair is made of two such drafts later. -/
def accessorParts (site : Site) : Option AccessorParts :=
  if site.kind = .accessor then
    some ⟨site.declaration.kind = .getter, site.declaration.kind = .setter⟩
  else none

/-- The entity as the code alone gives it. Whatever is documented is filled in afterwards. -/
def codeEntity (site : Site) : Entity :=
  let declaration := site.declaration
  { kind := site.kind
    name := site.name
    location := site.location
    order := site.order
    isStatic := declaration.isStatic
    isAbstract := declaration.isAbstract
    isOptional := declaration.isOptional
    isExported := declaration.isExported
    isConstructor := declaration.kind = .constructor
    accessor := site.accessorParts
    typeParams := declaration.typeParams.map fun param =>
      { name := param.name, constraint := param.constraint, defaultText := param.defaultText }
    relations :=
      (declaration.supertypes.map fun target => { kind := .extending, target := target }) ++
        declaration.interfaces.map fun target => { kind := .implementing, target := target } }

/-- The type of a documented setter parameter. The first parameter tag is meant, whatever its
name. -/
def setterType? (site : Site) : Option String :=
  (site.doc.bind fun doc => doc.first? .param).bind Tag.typeExpr

/-- The returned value that the code declares. A documented return value takes precedence, and
`void` counts as none. -/
def codeReturns (site : Site) (entity : Entity) : List Returns :=
  if entity.kind = .function && !entity.isConstructor && entity.returns.isEmpty then
    match site.declaration.typeText with
    | some type => if type = "void" then [] else [{ typeText := some type }]
    | none => []
  else []

/-- Fill in the types and parameters that the code knows and the comment does not. What is
documented takes precedence: the code is asked only for what is missing. -/
def completeEntity (site : Site) (entity : Entity) : Entity :=
  match site.declaration.kind with
  | .getter =>
    { entity with
      returns := []
      typeText := (entity.typeText.or (entity.returns.findSome? Returns.typeText)).or
        site.declaration.typeText }
  | .setter =>
    { entity with
      typeText := (entity.typeText.or site.setterType?).or
        (site.declaration.params.head?.bind fun param => param.value.typeText) }
  | _ =>
    if site.listsParams then
      { entity with
        params := Param.reconcile site.documentedParams site.codeParams
        returns := entity.returns ++ site.codeReturns entity }
    else { entity with typeText := entity.typeText.or site.declaration.typeText }

/-- How an entity binds to the body that it is declared in. A constructor belongs to the instances
even if it is marked as static. -/
def binding (site : Site) (scope : Scope) (entity : Entity) : Binding :=
  match scope with
  | .topLevel | .namespaceBody => .static
  | .classBody => if !entity.isConstructor && entity.isStatic then .static else .onInstance
  | .functionBody _ => if site.declaration.isThisMember then .onInstance else .inner

/-- Whether a site is a callable without a body. Other declarations without a body are complete as
they are. -/
def isSignature (site : Site) : Bool :=
  !site.declaration.hasBody &&
    (site.declaration.kind = .function || site.declaration.kind = .method ||
      site.declaration.kind = .constructor)

/-- The draft of a site, without what is nested in it. The code comes first, then the comment, and
then the code again for what the comment leaves open. -/
def draft (site : Site) (scope : Scope) : Draft :=
  let start : Draft :=
    { entity := site.codeEntity, directives := { visibility := site.declaration.modifier.toList } }
  let documented := start.documentWith site.doc
  let entity := site.completeEntity documented.entity
  { documented with
    entity := entity
    binding := site.binding scope entity
    target := if site.declaration.isThisMember then none else site.declaration.target
    isSignature := site.isSignature }

end Site

namespace Draft

/-- What sites contribute to the body around them: their own drafts, and the members to be handed up
to the class. The two parts are kept apart because they are put into different bodies. -/
structure Contribution where
  drafts : List (Tree Draft) := []
  hoisted : List (Tree Draft) := []

/-- Contributions one after the other. -/
def Contribution.append (left right : Contribution) : Contribution :=
  ⟨left.drafts ++ right.drafts, left.hoisted ++ right.hoisted⟩

/-- A declaration with its nested drafts. A class keeps the members handed up to it. Handed up
members pass through everything but classes. -/
def enclose (site : Site) (scope : Scope) (nested : Contribution) : Contribution :=
  let members := mergeMembers nested.drafts
  let opensClass := site.childScope scope = .classBody
  let tree : Tree Draft :=
    .node (site.draft scope) (if opensClass then adoptAll members nested.hoisted else members)
  let passed := if opensClass then [] else nested.hoisted
  if site.isHoisted scope then ⟨[], passed ++ [tree]⟩ else ⟨[tree], passed⟩

mutual

/-- What one declaration contributes to its scope. What is nested is drafted in the scope that the
declaration opens. -/
def ofSite (scope : Scope) : Tree Site → Contribution
  | .node site nested => enclose site scope (ofSites (site.childScope scope) nested)

/-- What several declarations contribute to their scope. -/
def ofSites (scope : Scope) : List (Tree Site) → Contribution
  | [] => {}
  | first :: rest => (ofSite scope first).append (ofSites scope rest)

end

/-- The drafts of the declarations of a file. At the top level there is no class, so nothing is
handed up to it. -/
def declared (sites : List (Tree Site)) : List (Tree Draft) :=
  mergeMembers (ofSites .topLevel sites).drafts

end Draft

end DocGraph
