import DocGraph.Diagnostic
import DocGraph.Registry.Placement
import DocGraph.Registry.Reference
import DocGraph.Unseen

/-!
# Lending members

An entity may lend its members to another one. Where each lender lends is resolved before anything
moves. A lender whose target lends in turn sends its members to the end of the chain; coming back to
an entity of the chain, or into the lender itself, is a cycle. Lending to oneself only rebinds the
members.

Moves are carried out lender by lender and stop at the first fault. What was moved before the fault
stays moved.

Two notions of target have to be told apart. The hop of a lender is where its directive leads, and
its destination is where its members come to rest, at the end of the hops. Both are settled before
the first member is moved, so the order of the lenders does not matter to them.
-/

namespace DocGraph.Registry

/-- Where members are lent, and how they bind there. The binding applies to direct members only. -/
structure Hop where
  target : NamePath
  binding : Binding
deriving DecidableEq

/-- A registry after some steps, with the fault that stopped them. The registry is that of the
moment of the fault. -/
structure Outcome where
  registry : Registry
  failure : Option BuildError := none

/-- The lenders in registry order, with their targets as written. A lender that was superseded has
no directives any more. -/
def lenders (registry : Registry) : List (NamePath × String) :=
  registry.live.keys.filterMap fun path =>
    ((registry.directives.get? path).bind Directives.lends).map fun text => (path, text)

/-- The entity that a written target leads to. A prototype or a trailing hash binds to the
instances, and a plain name binds statically. -/
def hop? (registry : Registry) (text : String) : Option Hop :=
  let (owner, binding) := splitContainer text.toList
  (Reference.resolve? registry.live.keys (String.ofList owner)).map fun target =>
    ⟨target, binding.getD .static⟩

/-- The hop of every lender whose target exists. They are a function of the registry before the
lending. -/
def hops (registry : Registry) : Table NamePath Hop :=
  .ofList (registry.lenders.filterMap fun (path, text) =>
    (registry.hop? text).map fun hop => (path, hop))

/-- The lenders whose target does not exist. Their members stay where they are. -/
def strayLenders (registry : Registry) : List (NamePath × String) :=
  registry.lenders.filter fun (_, text) => (registry.hop? text).isNone

/-- The warnings about targets that do not exist. There is one for each of these lenders. -/
def lendsWarnings (registry : Registry) : List Diagnostic :=
  registry.strayLenders.filterMap fun (path, text) =>
    (registry.live.get? path).map fun entity =>
      { kind := .unresolvedLendsTarget
        message := path.render ++ ": @lends target " ++ text ++ " not found, members left in place"
        location := some entity.location }

/-- Record the targets that do not exist as unresolved relations. The relation says what was meant,
and it leads nowhere. -/
def recordStrays (registry : Registry) : Registry :=
  { registry with
    live := registry.strayLenders.foldl
      (fun live (path, text) =>
        live.modify path (·.addRelation { kind := .lending, target := text }))
      registry.live }

/-- Follow hops from a target on. `chain` lists the lender and the targets passed. The chain only
grows, so the walk ends at a target that does not lend, lends to itself, or closes a circle. -/
def follow (hops : Table NamePath Hop) (lender : NamePath) (chain : List NamePath) (hop : Hop) :
    Except BuildError Hop :=
  if closed : hop.target ∈ chain ∨ hop.target.isBelow lender = true then
    .error (.lendsCycle (chain ++ [hop.target]))
  else
    match found : hops.get? hop.target with
    | none => .ok hop
    | some next =>
      if next.target = hop.target then .ok next
      else
        have : (unseen hops.keys (chain ++ [hop.target])).length <
            (unseen hops.keys chain).length :=
          unseen_length_lt (Table.mem_keys_of_get? found) fun seen => closed (.inl seen)
        follow hops lender (chain ++ [hop.target]) next
termination_by (unseen hops.keys chain).length

/-- Where the members of a lender finally go. A hop to oneself ends at once. Such a hop changes how
the members bind. -/
def destination (hops : Table NamePath Hop) (lender : NamePath) (hop : Hop) :
    Except BuildError Hop :=
  if hop.target = lender then .ok hop else follow hops lender [lender] hop

/-- The path of a member after a move. Direct members take the new binding, deeper ones keep theirs.
The names of the member stay the same. -/
def relocate (old lender : NamePath) (hop : Hop) : NamePath :=
  match old.segments.drop lender.segments.length with
  | [] => hop.target
  | first :: rest =>
    rest.foldl (fun path segment => path.child segment.binding segment.name)
      (hop.target.child hop.binding first.name)

/-- Move the listed paths one after the other. `lost` lists the new paths at which a member was
superseded on arrival; what belongs below them is superseded too. The list is fixed beforehand, and
a path that is not live any more at its turn is passed over. -/
def moveEach (lender : NamePath) (hop : Hop) (lost : List NamePath) (registry : Registry) :
    List NamePath → Outcome
  | [] => ⟨registry, none⟩
  | old :: rest =>
    match registry.live.get? old with
    | none => moveEach lender hop lost registry rest
    | some entity =>
      let removed := registry.remove old
      let directives := (registry.directives.get? old).getD {}
      let moved := entity.movedTo (relocate old lender hop)
      if lost.any moved.path.isBelow then
        moveEach lender hop lost (removed.addSuperseded moved) rest
      else
        match removed.insert moved directives with
        | .error error => ⟨removed, some error⟩
        | .ok (next, true) => moveEach lender hop lost next rest
        | .ok (next, false) => moveEach lender hop (lost ++ [moved.path]) next rest

/-- Move everything below a lender. Members come in the order of the registry, so a member may be
moved before the one above it. -/
def moveMembers (registry : Registry) (lender : NamePath) (hop : Hop) : Outcome :=
  moveEach lender hop [] registry ((registry.subtree lender).filter (· ≠ lender))

/-- Record where a lender's members went. A lender that is private or has nothing to say is
superseded. Superseding it leaves no empty shell behind in the graph. -/
def retire (registry : Registry) (lender target : NamePath) (text : String) : Registry :=
  match registry.live.get? lender with
  | none => registry
  | some entity =>
    if target = lender then registry
    else
      let recorded :=
        { registry with
          live := registry.live.modify lender
            (·.addRelation { kind := .lending, target := text, resolved := some target }) }
      if entity.visibility = .privateAccess ∨ Text.allBlank entity.description.toList then
        recorded.supersedeSubtree lender
      else recorded

/-- Carry out the lending of one entity. A fault of its destination is reported even if the lender
was superseded meanwhile. -/
def lend (hops : Table NamePath Hop) (registry : Registry) (lender : NamePath) (text : String) :
    Outcome :=
  match hops.get? lender with
  | none => ⟨registry, none⟩
  | some hop =>
    match destination hops lender hop with
    | .error error => ⟨registry, some error⟩
    | .ok final =>
      if registry.live.contains lender then
        match moveMembers registry lender final with
        | ⟨moved, some error⟩ => ⟨moved, some error⟩
        | ⟨moved, none⟩ => ⟨moved.retire lender final.target text, none⟩
      else ⟨registry, none⟩

/-- Carry out the lending of several entities, up to the first fault. The lenders are those of the
beginning. -/
def lendAll (hops : Table NamePath Hop) (registry : Registry) :
    List (NamePath × String) → Outcome
  | [] => ⟨registry, none⟩
  | (lender, text) :: rest =>
    match lend hops registry lender text with
    | ⟨next, some error⟩ => ⟨next, some error⟩
    | ⟨next, none⟩ => lendAll hops next rest

/-- Carry out all lending of a registry. It is the second pass of a resolution, and the only one
that can fail. -/
def lendMembers (registry : Registry) : Outcome :=
  lendAll registry.hops registry.recordStrays registry.lenders

end DocGraph.Registry
