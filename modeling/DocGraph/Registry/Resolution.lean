import DocGraph.Registry.Lends
import DocGraph.Registry.Marks

/-!
# Resolving a registry

Three passes follow the placement of all drafts: visibility is settled, members are lent, and
supertypes are linked. A fault in lending ends the resolution; the warnings given before it and the
changes made before it remain.

Supertypes come last, since lending moves what they may name. What is seen by a query is the
registry behind all three passes.
-/

namespace DocGraph.Registry

/-- A supertype that is not linked yet, linked to the entity that it names. A supertype that is
linked already is left alone. -/
def linkRelation (keys : List NamePath) (relation : Relation) : Relation :=
  if relation.kind.isSupertype && relation.resolved.isNone then
    { relation with resolved := Reference.resolve? keys relation.target }
  else relation

/-- Link the supertypes of all live entities. All of them are linked to the same layout. -/
def linkSupertypes (registry : Registry) : Registry :=
  let keys := registry.live.keys
  { registry with
    live := registry.live.mapValues fun _ entity =>
      { entity with relations := entity.relations.map (linkRelation keys) } }

/-- A resolved registry, the warnings, and the fault that ended the resolution. It is a result in
either case, so that the state at a fault can be looked at. -/
structure Resolution where
  registry : Registry
  diagnostics : List Diagnostic
  failure : Option BuildError

/-- Settle visibility, lend members and link supertypes. Warnings about lending are given before the
lending, for every lender at once. -/
def resolve (registry : Registry) : Resolution :=
  let settled := registry.settleVisibility
  let warnings := registry.visibilityWarnings ++ settled.lendsWarnings
  match settled.lendMembers with
  | ⟨stopped, some error⟩ => ⟨stopped, warnings, some error⟩
  | ⟨redirected, none⟩ => ⟨redirected.linkSupertypes, warnings, none⟩

end DocGraph.Registry
