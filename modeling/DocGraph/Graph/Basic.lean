import DocGraph.Config
import DocGraph.Registry.Reference
import DocGraph.Entity.Basic
import DocGraph.Table
import DocGraph.Text.Lowercase

/-!
# The entity graph

A graph holds every live entity by path, in source order, and the superseded ones. Its indexes are
computed once: the members of each container, the entities of each kind, the public paths, and what
every reference to be seen leads to.

An entity is public when neither it nor a live entity on the way to it is private.

All indexes are made from the table of live entities and from nothing else, so a graph is determined
by its entities and its settings. The queries rely on this, and so does reading a snapshot back,
where the indexes are made anew.
-/

namespace DocGraph

/-- What a reference leads to, and the entities that refer so. There is one for each text that is
referred to, whether it leads anywhere or not. -/
structure SeeEntry where
  resolved : Option NamePath
  referrers : List NamePath
deriving DecidableEq

/-- The live entities with their indexes, and the superseded entities. It is made by `ofEntities`
only, which keeps the indexes in step with the entities. -/
structure Graph where
  info : ModuleInfo
  memberOrder : MemberOrder
  live : Table NamePath Entity
  /-- The public paths in source order. -/
  visible : List NamePath
  byKind : Table EntityKind (List NamePath)
  /-- The direct members of each container. Top-level entities are under the root. -/
  byContainer : Table NamePath (List NamePath)
  seeIndex : Table String SeeEntry
  superseded : List Entity

namespace Graph

/-- Whether an entity comes no later than another in the source. It is not strict, so that it can be
sorted by. -/
def earlier (left right : Entity) : Bool := left.order.upTo right.order

/-- Whether a member comes no later than another in alphabetical order: by lower-case name, then by
name, then by path. The three stages leave no two different paths equal. -/
def alphabetical (left right : NamePath) : Bool :=
  (((compare (Text.lowercase left.lastName) (Text.lowercase right.lastName)).then
    (compare left.lastName right.lastName)).then (compare left right)).isLE

/-- Put the members of a container in the configured order. Declaration order is the order in which
the members are given. -/
def orderMembers (order : MemberOrder) (members : List NamePath) : List NamePath :=
  match order with
  | .declaration => members
  | .alphabetical => members.mergeSort alphabetical

/-- The paths of a table by the container of their entities. A container need not be live itself. -/
def containers (live : Table NamePath Entity) : Table NamePath (List NamePath) :=
  .group (live.entries.map fun (path, entity) => (entity.parent.getD .root, path))

/-- The paths of a table by the kind of their entities. Private entities are listed as well, and the
queries leave them out. -/
def kinds (live : Table NamePath Entity) : Table EntityKind (List NamePath) :=
  .group (live.entries.map fun (path, entity) => (entity.kind, path))

/-- Whether a path holds a private entity. A path at which nothing is live holds nothing private. -/
def holdsPrivate (live : Table NamePath Entity) (path : NamePath) : Bool :=
  (live.get? path).any fun entity => entity.visibility = .privateAccess

/-- Whether nothing private is at a path or on the way to it. The way to a path is made of its
beginnings, without the root. -/
def isPublic (live : Table NamePath Entity) (path : NamePath) : Bool :=
  !path.chain.any (holdsPrivate live)

/-- The references of a table by their text. What a text leads to is looked up once for all entities
that use it. -/
def references (live : Table NamePath Entity) : Table String SeeEntry :=
  let keys := live.keys
  (Table.group (live.entries.flatMap fun (path, entity) =>
    entity.seeAlso.map fun target => (target, path))).mapValues
      fun target referrers => ⟨Reference.resolve? keys target, referrers⟩

/-- The graph of some live and superseded entities. The entities are sorted first, so all lists are
in source order from then on. -/
def ofEntities (entities : Table NamePath Entity) (superseded : List Entity) (info : ModuleInfo)
    (memberOrder : MemberOrder) : Graph :=
  let sorted := entities.sortValues earlier
  let byContainer := (containers sorted).mapValues fun _ => orderMembers memberOrder
  let live := sorted.mapValues fun path entity =>
    { entity with members := (byContainer.get? path).getD [] }
  { info := info
    memberOrder := memberOrder
    live := live
    visible := live.keys.filter (isPublic live)
    byKind := kinds live
    byContainer := byContainer
    seeIndex := references live
    superseded := superseded }

/-- Whether two lists without repetition have the same members. So it compares sets that are kept as
lists. -/
def sameMembers (left right : List NamePath) : Bool :=
  left.length == right.length && left.all right.contains

/-- Whether two graphs hold the same. The order of keys does not count; the order of every list that
is held under a key does. It is the comparison of maps, for which the order of keys is a matter of
presentation. -/
def same (left right : Graph) : Bool :=
  left.info == right.info && left.memberOrder == right.memberOrder &&
    left.live.agrees right.live && sameMembers left.visible right.visible &&
    left.byKind.agrees right.byKind && left.byContainer.agrees right.byContainer &&
    left.seeIndex.agrees right.seeIndex && left.superseded == right.superseded

end Graph

end DocGraph
