import DocGraph.Proofs.BreadthFirst
import DocGraph.Proofs.Indexing
import DocGraph.Proofs.Nesting

/-!
# Own and inherited members

The effective members of a path are the public members of its ancestors, the path itself being the
first of them. Members that agree in name and binding hide each other, and the one that is shown
comes from the ancestor that is met first in breadth-first order. Relations between supertypes may
form circles and diamonds, and they may lead to private or to missing entities. A private supertype
is met like any other, only its members are not public; a missing one leads nowhere.

In the graph of a build, the members of one container never agree in name and binding, since their
paths end in both. So a live path shows all its own members, and shows them first. In other graphs a
container may have members that hide each other.

The effective members are the first ones of their key in a list, which is the members of all
ancestors in the order of the walk. So the four parts about hiding are facts about first
occurrences, and what is known of the walk says whose members come first.
-/

namespace DocGraph

/-- Children of one path are equal if they end in the same name and binding. A path is its parent
and one more segment, and the two determine the segment. -/
theorem NamePath.eq_of_same_parent {left right parent : NamePath}
    (inLeft : left.parent? = some parent) (inRight : right.parent? = some parent)
    (named : left.name? = right.name?) (bound : left.binding? = right.binding?) :
    left = right := by
  obtain ⟨_, leftLast, leftGrows⟩ := parent?_eq_some_iff.mp inLeft
  obtain ⟨_, rightLast, rightGrows⟩ := parent?_eq_some_iff.mp inRight
  simp only [name?, binding?, leftGrows, rightGrows, List.getLast?_concat, Option.map_some,
    Option.some.injEq] at named bound
  have same : leftLast = rightLast := by
    cases leftLast
    cases rightLast
    cases named
    cases bound
    rfl
  exact eq_of_segments (by rw [leftGrows, rightGrows, same])

namespace Graph

variable {graph : Graph} {path source : NamePath} {member : Entity}
  {entities : Table NamePath Entity} {superseded : List Entity} {info : ModuleInfo}
  {order : MemberOrder}

/-- What two members agree in when one hides the other. A path without segments has no binding;
entities there have one key for each name. -/
def hidingKey (member : Entity) : String × Option Binding := (member.name, member.path.binding?)

/-- A public entity is a member of the container that its record names. The path under which the
entity is held need not be the one that it records. -/
def PublicMember (graph : Graph) (member : Entity) (source : NamePath) : Prop :=
  ∃ path, graph.live.get? path = some member ∧ Unhidden graph.live path ∧
    container member = source

/-- The effective members of a path are composed of the members of its ancestors. The walk along
supertypes ends and lists the ancestors; no two effective members hide each other; each is a public
member of an ancestor; and for every public member of an ancestor one is shown that agrees with it
and is the member of an ancestor that comes no later. The number of turns in the first part is a
bound that is reached: the walk handles the start and every path that it puts into the queue. -/
structure Composes (graph : Graph) (path : NamePath) : Prop where
  ends : ∃ visited, graph.turn^[1 +
    ((graph.lineage [] [path]).flatMap graph.supertypesAt).length] ⟨[], [path], []⟩ =
      ⟨visited, [], graph.lineage [] [path]⟩
  ancestors : ∀ source, source ∈ graph.lineage [] [path] ↔ graph.Ancestor path source
  distinct : ((graph.effectiveMembers path).map hidingKey).Nodup
  inherited : ∀ member ∈ graph.effectiveMembers path, ∃ source,
    graph.Ancestor path source ∧ graph.PublicMember member source
  nearest : ∀ source member, graph.Ancestor path source → graph.PublicMember member source →
    ∃ shown ∈ graph.effectiveMembers path, hidingKey shown = hidingKey member ∧
      ∃ nearer, graph.Ancestor path nearer ∧ graph.PublicMember shown nearer ∧
        graph.NoLater path nearer source

/-- The members of a container are the public ones that name it. Members are listed by the index of
containers and then looked up, and both agree with the record. -/
theorem mem_members_of_of_entities_iff :
    member ∈ (ofEntities entities superseded info order).membersOf source ↔
      (ofEntities entities superseded info order).PublicMember member source := by
  have shown (path : NamePath) : path ∈ (ofEntities entities superseded info order).visible ↔
      path ∈ (ofEntities entities superseded info order).live.keys ∧
        Unhidden (ofEntities entities superseded info order).live path :=
    List.mem_filter.trans (and_congr_right fun _ => is_public_iff)
  simp only [membersOf, List.mem_filterMap, mem_by_container_iff, get?_eq_some_iff, shown]
  constructor
  · rintro ⟨path, ⟨entity, held, named⟩, ⟨_, unhidden⟩, found⟩
    cases held.symm.trans found
    exact ⟨path, found, unhidden, named⟩
  · rintro ⟨path, found, unhidden, named⟩
    exact ⟨path, ⟨member, found, named⟩, ⟨Table.mem_keys_of_get? found, unhidden⟩, found⟩

/-- For every member of an ancestor, a member is shown that agrees with it and belongs to an
ancestor that comes no later.

Proof: the list is split where the members of the ancestor begin. Either the key occurs before that,
and the first one with it is shown, or the member is shown itself or one before it in the same
list. -/
theorem exists_shown_member (ancestor : source ∈ graph.lineage [] [path])
    (own : member ∈ graph.membersOf source) :
    ∃ shown ∈ graph.effectiveMembers path, hidingKey shown = hidingKey member ∧
      ∃ nearer ∈ graph.lineage [] [path], shown ∈ graph.membersOf nearer ∧
        graph.NoLater path nearer source := by
  obtain ⟨early, late, walk, inside, noLater⟩ := exists_split_lineage ancestor
  have whole : graph.effectiveMembers path = firstPerKey hidingKey []
      (early.flatMap graph.membersOf ++ late.flatMap graph.membersOf) := by
    rw [← List.flatMap_append, ← walk]
    rfl
  have listed : member ∈ early.flatMap graph.membersOf := List.mem_flatMap.mpr ⟨source, inside, own⟩
  obtain ⟨shown, kept, agrees⟩ : ∃ shown ∈ firstPerKey hidingKey [] (early.flatMap graph.membersOf),
      hidingKey shown = hidingKey member :=
    List.mem_map.mp (mem_keys_first_per_key.mpr ⟨List.mem_map_of_mem listed, List.not_mem_nil⟩)
  obtain ⟨nearer, before, present⟩ := List.mem_flatMap.mp (first_per_key_subset kept)
  refine ⟨shown, ?_, agrees, nearer, ?_, present, noLater nearer before⟩
  · rw [whole, first_per_key_append]
    exact List.mem_append_left _ kept
  · rw [walk]
    exact List.mem_append_left late before

/-- Where the members of each container are its public members, the effective members of a path are
composed of them. The premise on members holds for every graph that is made of entities; here it is
all that is asked. -/
theorem composes (members : ∀ source member,
      member ∈ graph.membersOf source ↔ graph.PublicMember member source) (path : NamePath) :
    graph.Composes path where
  ends := by
    obtain ⟨visited, ended⟩ := graph.exists_iterate_turn [] [path] []
    exact ⟨visited, ended⟩
  ancestors source := mem_lineage_iff
  distinct := nodup_keys_first_per_key
  inherited member listed := by
    obtain ⟨source, ancestor, present⟩ := List.mem_flatMap.mp (first_per_key_subset listed)
    exact ⟨source, mem_lineage_iff.mp ancestor, (members source member).mp present⟩
  nearest source member ancestor isMember := by
    obtain ⟨shown, listed, agrees, nearer, before, present, noLater⟩ :=
      exists_shown_member (mem_lineage_iff.mpr ancestor) ((members source member).mpr isMember)
    exact ⟨shown, listed, agrees, nearer, mem_lineage_iff.mp before,
      (members nearer shown).mp present, noLater⟩

/-- In a graph of standing entities, the members of a live path differ in name or binding. Entities
that stand at their paths and have one parent are told apart by name and binding. -/
theorem nodup_hiding_keys_members_of
    (stands : ∀ {path entity}, entities.get? path = some entity → entity.StandsAt path)
    (superseded : List Entity) (info : ModuleInfo) (order : MemberOrder)
    (live : path ∈ (ofEntities entities superseded info order).live.keys) :
    (((ofEntities entities superseded info order).membersOf path).map hidingKey).Nodup := by
  have nested := nested_of_entities stands superseded info order
  have indexed : (ofEntities entities superseded info order).Indexed :=
    indexed_of_entities entities superseded info order
  obtain ⟨entity, found⟩ := Option.ne_none_iff_exists'.mp
    (mt Table.get?_eq_none_iff.mp (not_not.mpr live))
  have children : (((ofEntities entities superseded info order).byContainer.get? path).getD []).Perm
      (NamePath.heldChildren (ofEntities entities superseded info order).live.keys path) :=
    indexed.members path entity found ▸ nested.lists found
  have once := children.nodup_iff.mpr ((Table.keys_nodup _).filter _)
  rw [List.Nodup, List.pairwise_map, membersOf, List.pairwise_filterMap]
  refine once.imp_of_mem ?_
  intro left right inLeft inRight differs first firstAnswer second secondAnswer agree
  obtain ⟨_, firstFound⟩ := get?_eq_some_iff.mp firstAnswer
  obtain ⟨_, secondFound⟩ := get?_eq_some_iff.mp secondAnswer
  have firstStands := nested.stands firstFound
  have secondStands := nested.stands secondFound
  obtain ⟨named, bound⟩ := Prod.mk.inj agree
  rw [firstStands.recorded, secondStands.recorded] at bound
  have sameName : left.name? = right.name? := by
    rw [firstStands.named, secondStands.named, named]
  have childOf (child : NamePath) (listed : child ∈
      ((ofEntities entities superseded info order).byContainer.get? path).getD []) :
      child.parent? = some path :=
    (NamePath.mem_held_children.mp (children.mem_iff.mp listed)).2
  exact differs (NamePath.eq_of_same_parent (childOf left inLeft) (childOf right inRight)
    sameName bound)

/-- The members that a live path has in the graph of standing entities come first among its
effective members, and what follows is inherited. The start is the first ancestor, and among its own
members no key is repeated, so all of them are kept. -/
theorem exists_effective_members_eq_append
    (stands : ∀ {path entity}, entities.get? path = some entity → entity.StandsAt path)
    (live : path ∈ (ofEntities entities superseded info order).live.keys) :
    ∃ inherited, (ofEntities entities superseded info order).effectiveMembers path =
        (ofEntities entities superseded info order).membersOf path ++ inherited ∧
      ∀ member ∈ inherited, container member ≠ path := by
  have distinct := nodup_hiding_keys_members_of stands superseded info order live
  generalize made : ofEntities entities superseded info order = graph at *
  have walk : graph.lineage [] [path] = path :: graph.lineage [path] (graph.supertypesAt path) := by
    rw [lineage_cons_of_not_mem List.not_mem_nil]
    simp [Table.contains_iff.mpr live]
  refine ⟨firstPerKey hidingKey ((graph.membersOf path).map hidingKey)
    ((graph.lineage [path] (graph.supertypesAt path)).flatMap graph.membersOf), ?_, ?_⟩
  · rw [effectiveMembers, walk, List.flatMap_cons]
    change firstPerKey hidingKey [] _ = _
    rw [first_per_key_append, first_per_key_of_nodup distinct fun _ _ => List.not_mem_nil,
      List.nil_append]
  · intro member listed
    obtain ⟨source, further, present⟩ := List.mem_flatMap.mp (first_per_key_subset listed)
    subst made
    obtain ⟨_, _, _, named⟩ := mem_members_of_of_entities_iff.mp present
    rw [named]
    rintro rfl
    exact (nodup_lineage _ _ _).2 _ further (List.mem_singleton_self _)

end Graph

namespace Build

/-- In every graph the effective members of every path are composed of the members of its ancestors,
nearest first, and in the graph of a build a live path shows all its own members before those that
it inherits.

Proof: for any entities the members of a container are the public ones that name it, which is all
that composition needs. A build ends with a coherent registry, where entities stand at their paths,
so the members of a live path differ in their keys and come first as a whole. -/
theorem effective_members_compose :
    (∀ entities superseded info order path,
      (Graph.ofEntities entities superseded info order).Composes path) ∧
    ∀ files config output, run files config = .ok output →
      ∀ path ∈ output.graph.live.keys, ∃ inherited,
        output.graph.effectiveMembers path = output.graph.membersOf path ++ inherited ∧
          ∀ member ∈ inherited, Graph.container member ≠ path := by
  refine ⟨fun _ _ _ _ path => ?_, fun files config output built path live => ?_⟩
  · exact Graph.composes (fun _ _ => Graph.mem_members_of_of_entities_iff) path
  · obtain ⟨placed, redirected, info, assigned, steps, made⟩ := run_stages built
    have coherent := Registry.coherent_of_stages assigned steps
    rw [made] at live ⊢
    exact Graph.exists_effective_members_eq_append coherent.live live

/-- Two classes that extend each other, both with a method of one name. -/
def circle : List SourceFile :=
  [{ path := "a.js"
     declarations :=
      [.node
        { kind := .classDecl, name := some "Base", span := { startLine := 1, endLine := 4 },
          supertypes := ["Child"] }
        [.node { kind := .method, name := some "shared", span := { startLine := 2, endLine := 2 } }
          [],
         .node
          { kind := .method, name := some "inherited", span := { startLine := 3, endLine := 3 } }
          []],
       .node
        { kind := .classDecl, name := some "Child", span := { startLine := 5, endLine := 7 },
          supertypes := ["Base"] }
        [.node { kind := .method, name := some "shared", span := { startLine := 6, endLine := 6 } }
          []]] }]

/-- Each class shows its own method first, which hides the other one of that name. -/
theorem circle_composes :
    ∃ output, run circle {} = .ok output ∧ ⟨[⟨.static, "Child"⟩]⟩ ∈ output.graph.live.keys ∧
      (output.graph.effectiveMembers ⟨[⟨.static, "Child"⟩]⟩).map Entity.path =
        [⟨[⟨.static, "Child"⟩, ⟨.onInstance, "shared"⟩]⟩,
         ⟨[⟨.static, "Base"⟩, ⟨.onInstance, "inherited"⟩]⟩] ∧
      ∃ inherited, output.graph.effectiveMembers ⟨[⟨.static, "Child"⟩]⟩ =
          output.graph.membersOf ⟨[⟨.static, "Child"⟩]⟩ ++ inherited ∧
        ∀ member ∈ inherited, Graph.container member ≠ ⟨[⟨.static, "Child"⟩]⟩ := by
  have made : (run circle {}).toOption.any (fun output =>
      output.graph.live.contains ⟨[⟨.static, "Child"⟩]⟩ &&
      output.graph.live.contains ⟨[⟨.static, "Base"⟩]⟩ &&
      decide (output.graph.supertypesAt ⟨[⟨.static, "Child"⟩]⟩ = [⟨[⟨.static, "Base"⟩]⟩]) &&
      decide (output.graph.supertypesAt ⟨[⟨.static, "Base"⟩]⟩ = [⟨[⟨.static, "Child"⟩]⟩]) &&
      decide ((firstPerKey Graph.hidingKey [] ([⟨[⟨.static, "Child"⟩]⟩,
          ⟨[⟨.static, "Base"⟩]⟩].flatMap output.graph.membersOf)).map Entity.path =
        [⟨[⟨.static, "Child"⟩, ⟨.onInstance, "shared"⟩]⟩,
         ⟨[⟨.static, "Base"⟩, ⟨.onInstance, "inherited"⟩]⟩])) = true := by cbv
  obtain ⟨output, built, passes⟩ := exists_ok_of_any made
  simp only [Bool.and_eq_true, decide_eq_true_eq] at passes
  obtain ⟨⟨⟨⟨child, base⟩, above⟩, below⟩, shown⟩ := passes
  have walk : output.graph.lineage [] [⟨[⟨.static, "Child"⟩]⟩] =
      [⟨[⟨.static, "Child"⟩]⟩, ⟨[⟨.static, "Base"⟩]⟩] := by
    simp [child, base, above, below]
  have live := Table.contains_iff.mp child
  refine ⟨output, built, live, ?_, effective_members_compose.2 circle {} output built _ live⟩
  rw [Graph.effectiveMembers, walk]
  exact shown

end Build

end DocGraph
