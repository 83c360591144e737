import DocGraph.Graph.Basic
import DocGraph.Unseen

/-!
# Queries on the entity graph

Most queries see public entities only. A look-up by text finds the entity at that path, or else the
only public entity whose path ends in it.

The effective members of an entity are its own and those it inherits along resolved supertypes,
nearest first. A nearer member hides one of the same name and binding, and a supertype reached twice
counts once.

A query never fails because of what the graph holds. Cycles of supertypes and links that lead
nowhere are passed over, and only a look-up by text has an error for its result.
-/

namespace DocGraph

/-- Why a look-up has no result. The three say different things to the one who asks: nothing is
there, something more is needed, or the text is no path. -/
inductive LookupError where
  | notFound (text : String)
  /-- Several paths end in the text; they are listed in order. -/
  | ambiguous (text : String) (candidates : List String)
  | invalidPath (error : PathError)
deriving DecidableEq

/-- The wording of a failed look-up. -/
def LookupError.message : LookupError → String
  | notFound text => "no entity path ends in " ++ text
  | ambiguous text candidates =>
    "ambiguous path " ++ text ++ ": could be any of " ++ ", ".intercalate candidates
  | invalidPath error => error.message

/-- The kinds of references between entities. -/
inductive ReferenceKind where
  | seeAlso
  | extending
  | implementing
  | lending
deriving DecidableEq

namespace ReferenceKind

/-- The word for a kind. -/
def word : ReferenceKind → String
  | seeAlso => "see"
  | extending => "extends"
  | implementing => "implements"
  | lending => "lends"

/-- The reference that a relation makes. Shadowing refers to nothing. It names the path that was
taken over, which is the path of the entity itself. -/
def ofRelation? : RelationKind → Option ReferenceKind
  | .extending => some extending
  | .implementing => some implementing
  | .lending => some lending
  | .shadowing => none

end ReferenceKind

/-- A reference to a name that is not in the graph. It is where a reader of the documentation would
meet a dead link. -/
structure UnresolvedReference where
  source : NamePath
  kind : ReferenceKind
  target : String
deriving DecidableEq

/-- Keep the first item of each key. The order of the list is the order of precedence. -/
def firstPerKey {α κ : Type} [DecidableEq κ] (key : α → κ) (taken : List κ) : List α → List α
  | [] => []
  | item :: rest =>
    if taken.contains (key item) then firstPerKey key taken rest
    else item :: firstPerKey key (taken ++ [key item]) rest

namespace Graph

/-- The public entity at a path. -/
def get? (graph : Graph) (path : NamePath) : Option Entity :=
  if graph.visible.contains path then graph.live.get? path else none

/-- The entity at a path, private ones included. -/
def getAny? (graph : Graph) (path : NamePath) : Option Entity := graph.live.get? path

/-- The public entities in source order. -/
def entities (graph : Graph) : List Entity := graph.visible.filterMap graph.live.get?

/-- Every live entity in source order. -/
def allEntities (graph : Graph) : List Entity := graph.live.values

/-- The number of public entities. -/
def size (graph : Graph) : Nat := graph.visible.length

/-- The public direct members of a container, in the configured order. Private members are listed in
the index and left out here. -/
def membersOf (graph : Graph) (container : NamePath) : List Entity :=
  ((graph.byContainer.get? container).getD []).filterMap graph.get?

/-- The public entities of a kind. -/
def ofKind (graph : Graph) (kind : EntityKind) : List Entity :=
  ((graph.byKind.get? kind).getD []).filterMap graph.get?

/-- The entities that refer to a path. Different texts may lead to one path, so an entity could be
met several times. -/
def referrersOf (graph : Graph) (path : NamePath) : List Entity :=
  let referrers := (graph.seeIndex.values.filter fun entry => entry.resolved = some path).flatMap
    SeeEntry.referrers
  (firstPerKey id [] referrers).filterMap graph.live.get?

/-- The references of one entity that name nothing in the graph. References to be seen come before
relations. -/
def unresolvedOf (graph : Graph) (path : NamePath) (entity : Entity) : List UnresolvedReference :=
  let seen := entity.seeAlso.filter fun target =>
    (graph.seeIndex.get? target).any fun entry => entry.resolved.isNone
  let related := (entity.relations.filter fun relation => relation.resolved.isNone).filterMap
    fun relation => (ReferenceKind.ofRelation? relation.kind).map fun kind =>
      (⟨path, kind, relation.target⟩ : UnresolvedReference)
  (seen.map fun target => ⟨path, .seeAlso, target⟩) ++ related

/-- All references that name nothing in the graph. -/
def unresolvedReferences (graph : Graph) : List UnresolvedReference :=
  graph.live.entries.flatMap fun (path, entity) => graph.unresolvedOf path entity

/-- The resolved supertypes of an entity in the order of its relations. Unresolved ones lead nowhere
and are left out. -/
def supertypes (entity : Entity) : List NamePath :=
  (entity.relations.filter fun relation => relation.kind.isSupertype).filterMap Relation.resolved

/-- The live paths reachable along supertypes, breadth first. `visited` lists the paths that were
taken from the queue before. Every path is taken once, and so a cycle of supertypes does no harm. -/
def lineage (graph : Graph) (visited : List NamePath) (queue : List NamePath) : List NamePath :=
  match queue with
  | [] => []
  | current :: rest =>
    if seen : current ∈ visited then lineage graph visited rest
    else
      match found : graph.live.get? current with
      | none => lineage graph (visited ++ [current]) rest
      | some entity =>
        have : (unseen graph.live.keys (visited ++ [current])).length <
            (unseen graph.live.keys visited).length :=
          unseen_length_lt (Table.mem_keys_of_get? found) seen
        current :: lineage graph (visited ++ [current]) (rest ++ supertypes entity)
termination_by ((unseen graph.live.keys visited).length, queue.length)
decreasing_by
  · exact .right _ (Nat.lt_succ_self _)
  · rcases Nat.lt_or_eq_of_le (unseen_length_le graph.live.keys visited current) with less | same
    · exact .left _ _ less
    · rw [same]
      exact .right _ (Nat.lt_succ_self _)
  · exact .left _ _ this

/-- Own public members followed by inherited ones. Members of the entity itself come first, and so
they hide what is inherited. -/
def effectiveMembers (graph : Graph) (path : NamePath) : List Entity :=
  firstPerKey (fun member => (member.name, member.path.binding?)) []
    ((graph.lineage [] [path]).flatMap graph.membersOf)

/-- The public paths that end in a query. A text with a leading separator has to match the binding
of its first name. -/
def candidates (graph : Graph) (text : String) (query : NamePath) : List NamePath :=
  graph.visible.filter fun path => path.endsWith query (NamePath.startsWithSeparator text)

/-- The only public entity whose path ends in a text. Of several, one that matches exactly is meant.
The candidates of an ambiguous text are listed in the order of their written form. -/
def lookupSuffix (graph : Graph) (text : String) : Except LookupError Entity :=
  match NamePath.parse text with
  | .error error => .error (.invalidPath error)
  | .ok query =>
    match graph.candidates text query with
    | [] => .error (.notFound text)
    | [single] =>
      match graph.live.get? single with
      | some entity => .ok entity
      | none => .error (.notFound text)
    | several =>
      match if several.contains query then graph.live.get? query else none with
      | some entity => .ok entity
      | none =>
        .error (.ambiguous text
          ((several.map NamePath.render).mergeSort fun left right => (compare left right).isLE))

/-- The public entity at a written path, or else the only one whose path ends in it. An exact match
is taken even where other paths end in the text. -/
def find (graph : Graph) (text : String) : Except LookupError Entity :=
  match NamePath.parse text with
  | .error error => .error (.invalidPath error)
  | .ok path =>
    match graph.get? path with
    | some entity => .ok entity
    | none => graph.lookupSuffix text

end Graph

end DocGraph
