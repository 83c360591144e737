import DocGraph.Graph.Basic
import DocGraph.Tree

/-!
# Snapshots

A snapshot nests every live entity under its container, each with its path, and lists the superseded
entities after them. Entities whose container is not live stand at the top. Taking a snapshot and
building the graph of a snapshot are meant to undo each other.

The nesting follows the lists of members, not the paths. So a graph whose lists do not fit its paths
can be written, too, and the depth is bounded in order that a circle of members does no harm.
-/

namespace DocGraph

/-- The content of a graph without its indexes. The lists of members are left out of the entities,
since the nesting says them. -/
structure Snapshot where
  info : ModuleInfo
  memberOrder : MemberOrder
  /-- The live entities by their paths, below their containers. -/
  entities : List (Tree (NamePath × Entity))
  superseded : List Entity

namespace Snapshot

/-- Siblings with one tree per path. A later tree of the same path takes the place of an earlier
one. The written form is an object, in which a key stands once. -/
def keyed (trees : List (Tree (NamePath × Entity))) : List (Tree (NamePath × Entity)) :=
  (Table.ofList (trees.map fun tree => (tree.value.1, tree))).values

/-- An entity with its members, nested at most `depth` deep. A member that is not live is left
out. -/
def nest (live : Table NamePath Entity) : Nat → Entity → Tree (NamePath × Entity)
  | 0, entity => .node (entity.path, { entity with members := [] }) []
  | depth + 1, entity =>
    .node (entity.path, { entity with members := [] })
      (keyed ((entity.members.filterMap live.get?).map (nest live depth)))

/-- Whether the container of an entity is not live. Such an entity would not be reached from
above. -/
def isTop (live : Table NamePath Entity) (entity : Entity) : Bool :=
  match entity.parent with
  | none => true
  | some parent => !live.contains parent

/-- The snapshot of a graph. No entity is nested deeper than there are entities. So the bound never
cuts off anything in a graph where members are below their containers. -/
def ofGraph (graph : Graph) : Snapshot :=
  { info := graph.info
    memberOrder := graph.memberOrder
    entities := keyed ((graph.live.values.filter (isTop graph.live)).map
      (nest graph.live graph.live.size))
    superseded := graph.superseded }

/-- The entities of a snapshot by their paths, each before those below it. Of two entities at one
path the later one counts. -/
def flatten (snapshot : Snapshot) : Table NamePath Entity :=
  .ofList (Tree.forestPreorder snapshot.entities)

/-- The graph of a snapshot. The indexes are computed as for a graph that was built. -/
def toGraph (snapshot : Snapshot) : Graph :=
  .ofEntities snapshot.flatten snapshot.superseded snapshot.info snapshot.memberOrder

end Snapshot

end DocGraph
