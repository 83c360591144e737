import DocGraph.Draft.Basic
import DocGraph.Registry.Error
import DocGraph.Table

/-!
# The registry of live entities

The registry holds the entity that is live at each path, the directives given with it, and every
entity that has lost its path to another. A declaration from later in the source order takes a path
over, together with everything below it; one from earlier arrives superseded. Two declarations with
one place in the source order cannot be decided between.

Four operations change the live entities: `put`, `remove`, `supersedeSubtree` and `addSuperseded`.
All that happens to a registry is put together from these, and directives are kept at the same paths
as entities throughout.
-/

namespace DocGraph

/-- Live entities by path, their directives, and the superseded entities in the order in which they
lost their paths. An entity is in one of the two collections as soon as it was registered. -/
structure Registry where
  live : Table NamePath Entity := .empty
  superseded : List Entity := []
  directives : Table NamePath Directives := .empty

namespace Registry

/-- The registry without entities. -/
def empty : Registry := {}

/-- Whether a path is another one or lies below it. Being below goes by segments, so `ab` is not
within `a`. -/
def isWithin (root path : NamePath) : Bool := path = root || path.isBelow root

/-- The live paths at and below a path, in registry order. The path itself comes first only if it
was registered first. -/
def subtree (registry : Registry) (path : NamePath) : List NamePath :=
  registry.live.keys.filter (isWithin path)

/-- Take a path and everything below it out of the live entities and add what was there to the
superseded ones. The entities keep their records, and only their paths are free again. -/
def supersedeSubtree (registry : Registry) (path : NamePath) : Registry :=
  let lost := registry.live.filterKeys (isWithin path)
  { live := registry.live.filterKeys fun key => !isWithin path key
    superseded := registry.superseded ++ lost.values
    directives := registry.directives.filterKeys fun key => !lost.keys.contains key }

/-- Add an entity to the superseded ones. It is for an entity that was never live or has just been
removed. -/
def addSuperseded (registry : Registry) (entity : Entity) : Registry :=
  { registry with superseded := registry.superseded ++ [entity] }

/-- Make an entity live at its path. The path is that of the entity itself, so the table is keyed by
what its entities say. -/
def put (registry : Registry) (entity : Entity) (directives : Directives) : Registry :=
  { registry with
    live := registry.live.insert entity.path entity
    directives := registry.directives.insert entity.path directives }

/-- Take one path out, without a trace. The caller takes care of what was there. -/
def remove (registry : Registry) (path : NamePath) : Registry :=
  { registry with
    live := registry.live.erase path
    directives := registry.directives.erase path }

/-- Mark an entity as the one that took its path over. The mark stays with the entity, even if it is
superseded later. -/
def shadowing (entity : Entity) : Entity :=
  entity.addRelation { kind := .shadowing, target := entity.path.render }

/-- An entity that takes its path over stays the entity of this path. -/
@[simp]
theorem path_shadowing (entity : Entity) : (shadowing entity).path = entity.path := rfl

section LookUps

variable (registry : Registry) (path : NamePath)

/-- What is live at a path after an entity became live at its own. It holds whether or not the path
was held before. -/
@[simp]
theorem get?_live_put (entity : Entity) (directives : Directives) :
    (registry.put entity directives).live.get? path =
      if path = entity.path then some entity else registry.live.get? path :=
  Table.get?_insert ..

/-- The directives at a path after an entity became live at its own. Directives follow their
entity. -/
@[simp]
theorem get?_directives_put (entity : Entity) (directives : Directives) :
    (registry.put entity directives).directives.get? path =
      if path = entity.path then some directives else registry.directives.get? path :=
  Table.get?_insert ..

/-- What is live at a path after a path was taken out. What is below the path stays. -/
@[simp]
theorem get?_live_remove (old : NamePath) : (registry.remove old).live.get? path =
    if path = old then none else registry.live.get? path :=
  Table.get?_erase ..

/-- The directives at a path after a path was taken out. So the two tables have the same keys as
before. -/
@[simp]
theorem get?_directives_remove (old : NamePath) : (registry.remove old).directives.get? path =
    if path = old then none else registry.directives.get? path :=
  Table.get?_erase ..

/-- What is live at a path after a subtree was superseded: nothing within the subtree. Everything
else is as it was. -/
@[simp]
theorem get?_live_supersede_subtree (root : NamePath) :
    (registry.supersedeSubtree root).live.get? path =
      if isWithin root path = true then none else registry.live.get? path := by
  rw [supersedeSubtree, Table.get?_filter_keys]
  cases isWithin root path <;> rfl

end LookUps

/-- Register an entity under its path. The result says whether it is live now; it is not when a
later declaration already holds the path. The order decides, and not which of the two arrives
first. -/
def insert (registry : Registry) (entity : Entity) (directives : Directives) :
    Except BuildError (Registry × Bool) :=
  match registry.live.get? entity.path with
  | none => .ok (registry.put entity directives, true)
  | some existing =>
    match compare existing.order entity.order with
    | .eq => .error (.pathCollision entity.path existing entity)
    | .gt => .ok (registry.addSuperseded entity, false)
    | .lt =>
      .ok ((registry.supersedeSubtree entity.path).put (shadowing entity) directives, true)

/-- A live member of a container by name: inner first, then static, then instance. Inner names are
the nearest to the code that uses them. -/
def childNamed? (registry : Registry) (container : NamePath) (name : String) : Option NamePath :=
  ([Binding.inner, .static, .onInstance].map fun binding => container.child binding name).find?
    registry.live.contains

end Registry

end DocGraph
