import DocGraph.Proofs.Coherence

/-!
# The parts of a registry agree

A registry keeps live entities and their directives in two tables, and every entity records its own
path and parent besides. All three are written separately: when a draft is placed, when a subtree is
superseded, and when members are lent. They agree all the same. Every live entity stands at its key,
every entity that was ever superseded stands where its record says, and directives are held at
exactly the live paths.

That entities stand where they are held is coherence. What is added here is that no operation writes
to one table without the other. Registries whose resolution stopped at a fault are left out, since a
move may have been cut short there.

A property of the two tables needs no more than a look at each operation, since all of them go
through the same two: an entity becomes live with its directives, and paths are taken out of both
tables with one and the same filter.
-/

namespace DocGraph.Registry

variable {registry : Registry}

/-- Directives are held at exactly the live paths. It is about keys alone; which directives an
entity has is stated where lending is followed. -/
def Directed (registry : Registry) : Prop :=
  ∀ path, path ∈ registry.directives.keys ↔ path ∈ registry.live.keys

/-- The registry without entities has no directives. -/
theorem directed_empty : empty.Directed := fun _ => Iff.rfl

/-- An entity becomes live together with its directives. If the path was there already, it stays
where it was in both tables. -/
theorem Directed.put (directed : registry.Directed) (entity : Entity)
    (directives : Directives) : (registry.put entity directives).Directed := by
  intro path
  simp [Registry.put, directed path]

/-- A path is taken out together with its directives. The same key is erased twice. -/
theorem Directed.remove (directed : registry.Directed) (path : NamePath) :
    (registry.remove path).Directed := by
  intro held
  simp [Registry.remove, directed held]

/-- A subtree loses its directives with its entities. Both tables are filtered by the keys outside
of the subtree. -/
theorem Directed.supersede_subtree (directed : registry.Directed) (path : NamePath) :
    (registry.supersedeSubtree path).Directed := by
  intro held
  rw [Registry.supersedeSubtree, Table.mem_keys_filter_keys, Table.mem_keys_filter_keys,
    directed held]
  refine and_congr_right ?_
  intro present
  have lost : held ∈ (registry.live.filterKeys (isWithin path)).keys ↔
      isWithin path held = true := by
    rw [Table.mem_keys_filter_keys, and_iff_right present]
  rw [Bool.not_eq_true', Bool.not_eq_true', ← Bool.not_eq_true, ← Bool.not_eq_true,
    List.contains_iff_mem, lost]

/-- Changing the live entities in place does not touch any key. -/
theorem Directed.map_values (directed : registry.Directed) (f : NamePath → Entity → Entity) :
    { registry with live := registry.live.mapValues f }.Directed := by
  intro path
  simp [directed path]

/-- Registering an entity keeps both tables in step, whichever of the three outcomes it has. An
entity that arrives superseded leaves both of them alone. -/
theorem Directed.insert (directed : registry.Directed) {next : Registry} {entity : Entity}
    {directives : Directives} {live : Bool}
    (inserted : registry.insert entity directives = .ok (next, live)) : next.Directed := by
  obtain ⟨_, rfl, _⟩ | ⟨_, _, _, rfl, _⟩ | ⟨_, _, _, rfl, _⟩ := insert_cases inserted
  · exact directed.put entity directives
  · exact directed
  · exact (directed.supersede_subtree entity.path).put (shadowing entity) directives

/-- An elementary step of lending keeps both tables in step. A member that is put back brings along
the directives it had, or none at all, and either way its key is there. -/
theorem Step.directed {before after : Registry} (step : Step before after)
    (directed : before.Directed) : after.Directed := by
  cases step with
  | @displaced old _ _ _ _ _ => exact directed.remove old
  | @reinserted _ old _ _ _ _ _ _ inserted => exact (directed.remove old).insert inserted
  | related path relation => exact directed.map_values _
  | dropped path => exact directed.supersede_subtree path

/-- Placing drafts keeps both tables in step. Superseding does not touch the tables, so placing is a
matter of registrations. -/
theorem directed_kept_by_placing : KeptByPlacing Directed :=
  ⟨fun directed _ => directed.insert, fun directed _ => directed⟩

/-- The parts of a registry agree when every live entity records the path under which it is held,
when the record of every entity, live or superseded, is about a path below the root that ends in the
entity's name and has its parent above it, and when directives are held at exactly the live paths.
It is coherence and direction taken together, with what a record says written out. -/
structure Agrees (registry : Registry) : Prop where
  keyed : ∀ {path entity}, registry.live.get? path = some entity → entity.path = path
  recorded : ∀ entity, entity ∈ registry.live.values ∨ entity ∈ registry.superseded →
    entity.path ≠ .root ∧ entity.path.name? = some entity.name ∧
      entity.parent = entity.path.parent?
  directed : registry.Directed

/-- An entity that stands where its record says has a record of the required form. -/
theorem recorded_of_stands_at {entity : Entity} (stands : entity.StandsAt entity.path) :
    entity.path ≠ .root ∧ entity.path.name? = some entity.name ∧
      entity.parent = entity.path.parent? :=
  ⟨stands.ne_root, stands.named, stands.parented⟩

/-- A coherent registry whose tables are in step agrees in all its parts. A live entity stands where
it is held, and therefore where its own record says. -/
theorem Coherent.agrees (coherent : registry.Coherent) (directed : registry.Directed) :
    registry.Agrees := by
  refine ⟨fun found => (coherent.live found).recorded, ?_, directed⟩
  rintro entity (live | lost)
  · obtain ⟨path, entry⟩ := Table.mem_values_iff.mp live
    have stands := coherent.live (Table.get?_eq_some_iff.mpr entry)
    exact recorded_of_stands_at (stands.recorded.symm ▸ stands)
  · exact recorded_of_stands_at (coherent.superseded entity lost)

/-- The registry of all files keeps its tables in step. -/
theorem directed_of_assign {files : List (List (Tree Draft))} {placed : Registry}
    (assigned : assign files = .ok placed) : placed.Directed :=
  directed_kept_by_placing.place_all _ directed_empty assigned

/-- The registry of any drafts that can be placed agrees in all its parts, and it does so again when
its visibility was settled, its members were lent and its supertypes were linked without a fault.
The second half asks for a resolution without a fault; a fault may leave a member taken out and not
put back.

Proof: placing keeps coherence and direction, from the empty registry on. Settling and linking
change live entities in place, and lending is a sequence of elementary steps, each of which keeps
both. -/
theorem agrees_throughout {files : List (List (Tree Draft))} {placed : Registry}
    (assigned : assign files = .ok placed) :
    placed.Agrees ∧ (placed.resolve.failure = none → placed.resolve.registry.Agrees) := by
  have directed := directed_of_assign assigned
  refine ⟨(coherent_of_assign assigned).agrees directed, ?_⟩
  intro finished
  obtain ⟨redirected, steps, resolved⟩ := resolve_steps finished
  have settled : placed.settleVisibility.Directed := directed.map_values _
  have moved : redirected.Directed := steps.keep Step.directed settled
  rw [resolved]
  exact (coherent_of_stages assigned steps).agrees (moved.map_values _)

/-- Two files in which a declaration is shadowed with its member, another arrives too late
together with what is nested in it, an assignment goes to a member, a container is
missing, and a lender is dropped after its members took a path over. -/
def contested : List (List (Tree Draft)) :=
  [[.node { entity := { kind := .classEntity, name := "Base", order := { sequence := 0 } } }
      [.node { entity := { kind := .function, name := "run", order := { sequence := 1 } },
               binding := .onInstance } []],
    .node { entity := { kind := .function, name := "late", order := { sequence := 9 } } } [],
    .node { entity := { kind := .function, name := "late", order := { sequence := 2 } } }
      [.node { entity := { kind := .variableEntity, name := "x", order := { sequence := 3 } },
               binding := .inner } []]],
   [.node { entity := { kind := .classEntity, name := "mixin", order := { file := 1 } },
            directives := { lends := some "Base#" } }
      [.node { entity := { kind := .function, name := "run",
                           order := { file := 1, sequence := 1 } } }
        [.node { entity := { kind := .variableEntity, name := "y",
                             order := { file := 1, sequence := 2 } },
                 binding := .inner } []]],
    .node { entity := { kind := .property, name := "extra",
                        order := { file := 1, sequence := 3 } },
            target := some "Base.prototype.extra" } [],
    .node { entity := { kind := .variableEntity, name := "orphan",
                        order := { file := 1, sequence := 4 } },
            memberOf := some "#Gone.inner" } []]]

/-- The contested declarations can be placed and resolved, and so their registry agrees in all its
parts before and after. The placing and the resolution are evaluated once, and the theorem is
applied to them. -/
theorem contested_agrees_throughout :
    ∃ placed, assign contested = .ok placed ∧ placed.Agrees ∧
      placed.resolve.failure = none ∧ placed.resolve.registry.Agrees := by
  have succeeds : (assign contested).toOption.any (fun placed =>
      placed.resolve.failure.isNone) = true := by
    decide +kernel
  obtain ⟨placed, assigned, finished⟩ := exists_ok_of_any succeeds
  rw [Option.isNone_iff_eq_none] at finished
  have agrees := agrees_throughout assigned
  exact ⟨placed, assigned, agrees.1, finished, agrees.2 finished⟩

end DocGraph.Registry
