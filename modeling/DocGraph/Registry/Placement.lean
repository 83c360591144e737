import DocGraph.Registry.Basic
import DocGraph.Text.Cut

/-!
# Giving drafts their paths

Drafts are registered one after the other, each before those nested in it. Its path comes from a
container that the documentation names, or else from the expression it was assigned to, or else from
the place where it was declared. The drafts nested in one that arrives superseded are superseded
with it.

Identifiers in assignment targets are looked up among what has been registered so far. So the order
of the declarations matters to them, as it does where the script itself runs.
-/

namespace DocGraph

/-- A container as it is written, and the binding that the notation implies: a prototype or a
trailing hash names the instances of a class. A plain name says nothing about the binding. -/
def splitContainer (text : List Char) : List Char × Option Binding :=
  let trimmed := Text.trim text
  match Text.dropBack? ".prototype".toList trimmed with
  | some owner => (owner, some .onInstance)
  | none =>
    match Text.dropBack? ['#'] trimmed with
    | some owner => (owner, some .onInstance)
    | none => (trimmed, none)

namespace Registry

/-- The path of a container named by the documentation. A text that is no path is taken as a plain
name. So every text names some container. -/
def ownerPath (text : List Char) : NamePath :=
  match NamePath.parse (String.ofList text) with
  | .ok path => path
  | .error _ => NamePath.root.child .static (String.ofList text)

/-- The entity that an identifier means: the innermost visible one of that name, or else a global.
Scopes are listed from the inside out. A name that is not known yet is taken to be a global one. -/
def resolveHead (registry : Registry) (scopes : List NamePath) (identifier : String) : NamePath :=
  ((scopes ++ [NamePath.root]).findSome? fun scope =>
    registry.childNamed? scope identifier).getD (NamePath.root.child .static identifier)

/-- The member that an identifier means inside a known owner. A member that is not known yet is
taken to be static. -/
def resolveMember (registry : Registry) (owner : NamePath) (identifier : String) : NamePath :=
  (registry.childNamed? owner identifier).getD (owner.child .static identifier)

/-- The path of an assignment target. The last identifier is the name of the draft itself, and what
is before it is looked up from left to right. -/
def targetPath (registry : Registry) (target : String) (scopes : List NamePath)
    (name : String) : NamePath :=
  let expression := ((Text.cutLast? '.' target.toList).map Prod.fst).getD []
  let (owner, binding) := splitContainer expression
  let identifiers := ((Text.pieces '.' owner).filter fun piece => !piece.isEmpty).map String.ofList
  match identifiers with
  | [] => NamePath.root.child .static name
  | head :: rest =>
    (rest.foldl registry.resolveMember (registry.resolveHead scopes head)).child
      (binding.getD .static) name

/-- The path that a draft gets inside a container. The scopes play a part for assignments only. -/
def pathFor (registry : Registry) (draft : Draft) (container : NamePath)
    (scopes : List NamePath) : NamePath :=
  match draft.memberOf, draft.target with
  | some memberOf, _ =>
    let (owner, binding) := splitContainer memberOf.toList
    (ownerPath owner).child (binding.getD draft.binding) draft.entity.name
  | none, some target => registry.targetPath target scopes draft.entity.name
  | none, none => container.child draft.binding draft.entity.name

mutual

/-- The entities of a draft whose container is superseded, at the paths of their declarations. Named
containers and assignment targets are not looked at here. -/
def displaced (container : NamePath) : Tree Draft → List Entity
  | .node draft nested =>
    let path := container.child draft.binding draft.entity.name
    draft.entity.movedTo path :: displacedAll path nested

/-- The entities of several such drafts. -/
def displacedAll (container : NamePath) : List (Tree Draft) → List Entity
  | [] => []
  | first :: rest => displaced container first ++ displacedAll container rest

end

mutual

/-- Register a draft and everything nested in it. The nested drafts see the draft around them as
their innermost scope. -/
def place (registry : Registry) (container : NamePath) (scopes : List NamePath) :
    Tree Draft → Except BuildError Registry
  | .node draft nested =>
    let path := registry.pathFor draft container scopes
    match registry.insert (draft.entity.movedTo path) draft.directives with
    | .error error => .error error
    | .ok (next, true) => placeAll next path (path :: scopes) nested
    | .ok (next, false) =>
      .ok { next with superseded := next.superseded ++ displacedAll path nested }

/-- Register several drafts of one container in order. A fault ends the placement, and no registry
is left of it. -/
def placeAll (registry : Registry) (container : NamePath) (scopes : List NamePath) :
    List (Tree Draft) → Except BuildError Registry
  | [] => .ok registry
  | first :: rest =>
    match place registry container scopes first with
    | .error error => .error error
    | .ok next => placeAll next container scopes rest

end

/-- Register the drafts of all files, file by file. It starts from nothing, and the files only
matter through the order of their drafts. -/
def assign (files : List (List (Tree Draft))) : Except BuildError Registry :=
  placeAll .empty .root [] files.flatten

end Registry

end DocGraph
