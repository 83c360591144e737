import DocGraph.Proofs.Cutting
import DocGraph.Proofs.PathText
import DocGraph.Proofs.Shadowing
import DocGraph.Proofs.Trimming

/-!
# Three ways to name an instance member

A draft at top level is an instance member of `a.b` when it is assigned to `a.b.prototype.x`, and
also when its documentation names `a.b.prototype` or `a.b#` as its container. The assignment is
followed name by name through the entities that are live, while a named container is read as a path.
Both lead to the same path if no name on the way is that of an inner or instance member. The draft
is then placed as one that was declared as an instance member there, whether its owners are live or
not.

The argument is about one path. Each of the three forms is followed to it: the assignment by cutting
its text at the last dot and resolving the names in front, the other two by taking the ending off
and reading what is left as a path. Once the path is the same, placing does the same.
-/

namespace DocGraph

variable {owners front rest : List String} {name owner : String} {text : List Char}

/-- A name without separators, quotes, backslashes and blanks that is not empty. Such a name is
written without quotes in a path, and it stands in one piece in the text of an assignment. -/
def IsPlainName (name : String) : Prop := NamePath.needsQuotes name.toList = false

instance (name : String) : Decidable (IsPlainName name) :=
  inferInstanceAs (Decidable (_ = _))

namespace Draft

/-- A draft at top level says that it is an instance member of the entity to which the names lead. A
named container takes precedence over an assignment, so the first form asks that none is named. -/
inductive IsMemberOf (owners : List String) (draft : Draft) : Prop where
  | assigned (free : draft.memberOf = none)
      (target : draft.target = some (".".intercalate owners ++ ".prototype." ++ draft.entity.name))
  | prototype (named : draft.memberOf = some (".".intercalate owners ++ ".prototype"))
  | hash (named : draft.memberOf = some (".".intercalate owners ++ "#"))

/-- The same draft, declared as an instance member of the container that it stands in. It has the
same entity and the same directives, and the forms that decided its path are gone. -/
def asMember (draft : Draft) : Draft :=
  { draft with binding := .onInstance, memberOf := none, target := none }

end Draft

namespace NamePath

/-- The path of an instance member of the entity to which the names lead. The owners are static
members of one another. -/
def memberPath (owners : List String) (name : String) : NamePath :=
  (ofNames owners).child .onInstance name

/-- Only the path without names is the root. -/
theorem is_root_of_names (filled : owners ≠ []) : (ofNames owners).isRoot = false := by
  simpa [isRoot, ofNames] using filled

/-- The static member of a path of names has a path of names, too. -/
theorem child_static_of_names (names : List String) (name : String) :
    (ofNames names).child .static name = ofNames (names ++ [name]) := by
  rw [child, ite_self]
  simp [ofNames]

/-- A plain name is written as it is. -/
theorem render_name_of_is_plain_name (plain : IsPlainName name) :
    renderName name = name.toList := by
  rw [renderName, if_neg (by simpa [IsPlainName] using plain)]

/-- A path of plain names is written as the names with dots between them. It connects the names with
the text that a tag holds. -/
theorem render_of_names (plain : ∀ owner ∈ owners, IsPlainName owner) :
    (ofNames owners).render = ".".intercalate owners := by
  apply String.toList_injective
  rw [render, String.toList_ofList, String.toList_intercalate]
  cases owners with
  | nil => rfl
  | cons first rest =>
    obtain ⟨plainFirst, plainRest⟩ := List.forall_mem_cons.mp plain
    simp only [ofNames, renderChars, List.map_cons, render_name_of_is_plain_name plainFirst]
    clear plain plainFirst
    induction rest generalizing first with
    | nil => simp [renderRest]
    | cons second rest inductionHypothesis =>
      obtain ⟨plainSecond, later⟩ := List.forall_mem_cons.mp plainRest
      have behind := inductionHypothesis second later
      simp only [renderRest, List.map_cons, List.flatMap_cons] at behind ⊢
      rw [List.intercalate_cons_cons, ← behind, render_name_of_is_plain_name plainSecond]
      simp [Binding.separator]

end NamePath

section Containers

open Text

/-- A container in the prototype form is the owner and its instances. Nothing is trimmed, since
there are no blanks. -/
theorem split_container_prototype (solid : ∀ c ∈ text, isBlank c = false) :
    splitContainer (text ++ ".prototype".toList) = (text, some .onInstance) := by
  have ending : ∀ c ∈ ".prototype".toList, isBlank c = false := by simp [isBlank]
  rw [splitContainer, trim_of_solid (List.forall_mem_append.mpr ⟨solid, ending⟩),
    (drop_back?_eq_some_iff ..).mpr rfl]

/-- A container with a trailing hash is the owner and its instances. -/
theorem split_container_hash (solid : ∀ c ∈ text, isBlank c = false) :
    splitContainer (text ++ ['#']) = (text, some .onInstance) := by
  have ending : ∀ c ∈ ['#'], isBlank c = false := by simp [isBlank]
  have other : dropBack? ".prototype".toList (text ++ ['#']) = none := by
    rw [Option.eq_none_iff_forall_not_mem]
    intro owner removed
    have last := congrArg List.getLast? ((drop_back?_eq_some_iff ..).mp removed)
    simp at last
  rw [splitContainer, trim_of_solid (List.forall_mem_append.mpr ⟨solid, ending⟩), other,
    (drop_back?_eq_some_iff ..).mpr rfl]

/-- Plain names with dots between them have no blanks. -/
theorem solid_intercalate (plain : ∀ owner ∈ owners, IsPlainName owner) :
    ∀ c ∈ (".".intercalate owners).toList, isBlank c = false := by
  rw [String.toList_intercalate]
  induction owners with
  | nil => simp
  | cons first rest inductionHypothesis =>
    obtain ⟨plainFirst, later⟩ := List.forall_mem_cons.mp plain
    have solid : ∀ c ∈ first.toList, isBlank c = false := fun c =>
      NamePath.is_blank_of_needs_quotes plainFirst
    cases rest with
    | nil => simpa using solid
    | cons second rest =>
      have dot : ∀ c ∈ ".".toList, isBlank c = false := by simp [isBlank]
      rw [List.map_cons, List.map_cons, List.intercalate_cons_cons]
      exact List.forall_mem_append.mpr
        ⟨List.forall_mem_append.mpr ⟨solid, dot⟩, inductionHypothesis later⟩

/-- A plain name has no dot. -/
theorem IsPlainName.undotted (plain : IsPlainName name) : '.' ∉ name.toList := fun present =>
  absurd ((NamePath.plain_of_needs_quotes plain).2 '.' present).1 (by decide)

/-- Plain names with dots between them are the pieces between the dots, and none is empty. Empty
pieces would come from two dots in a row. -/
theorem pieces_of_plain_names (filled : owners ≠ []) (plain : ∀ owner ∈ owners, IsPlainName owner) :
    (pieces '.' (".".intercalate owners).toList).filter (fun piece => !piece.isEmpty) =
      owners.map String.toList := by
  have undotted : ∀ part ∈ owners.map String.toList, '.' ∉ part :=
    List.forall_mem_map.mpr fun owner listed => (plain owner listed).undotted
  have dot : ".".toList = ['.'] := rfl
  have parts : owners.map String.toList ≠ [] := mt List.map_eq_nil_iff.mp filled
  rw [String.toList_intercalate, dot, pieces_intercalate parts undotted, List.filter_eq_self]
  refine List.forall_mem_map.mpr fun owner listed => ?_
  simpa using (NamePath.plain_of_needs_quotes (plain owner listed)).1

end Containers

namespace Registry

variable {registry next : Registry} {draft other : Draft}

/-- On the way along the names, no inner and no instance member has the name that comes next.
Otherwise an assignment would be followed to that member, while a written path says static. It is
only asked of names behind the first one, because at top level there are static entities only. -/
def LeadsAlong (registry : Registry) (owners : List String) : Prop :=
  ∀ count < owners.length, 0 < count → ∀ owner ∈ owners[count]?,
    ∀ binding ∈ [Binding.inner, .onInstance],
      (NamePath.ofNames (owners.take count)).child binding owner ∉ registry.live.keys

instance (registry : Registry) (owners : List String) : Decidable (registry.LeadsAlong owners) :=
  inferInstanceAs (Decidable (∀ _ < _, _ → ∀ _ ∈ _, ∀ _ ∈ _, _))

/-- At top level a name means the top-level entity, live or not. -/
theorem resolve_head_nil (registry : Registry) (name : String) :
    registry.resolveHead [] name = NamePath.ofNames [name] := by
  have only (binding : Binding) : NamePath.root.child binding name = NamePath.ofNames [name] := rfl
  simp only [resolveHead, childNamed?, only, List.map_cons, List.map_nil, List.find?_cons,
    List.nil_append, List.findSome?_cons, List.findSome?_nil, List.find?_nil]
  cases registry.live.contains (NamePath.ofNames [name]) <;> rfl

/-- A name means the static member, live or not, if no other member has it. The three bindings are
tried in turn, and static is also what is taken when nothing is there. -/
theorem resolve_member_eq {owner : NamePath}
    (free : ∀ binding ∈ [Binding.inner, .onInstance],
      owner.child binding name ∉ registry.live.keys) :
    registry.resolveMember owner name = owner.child .static name := by
  have absent {binding : Binding} (listed : binding ∈ [Binding.inner, .onInstance]) :
      registry.live.contains (owner.child binding name) = false := by
    rw [← Bool.not_eq_true, Table.contains_iff]
    exact free binding listed
  simp only [resolveMember, childNamed?, List.map_cons, List.map_nil, List.find?_cons,
    List.find?_nil, absent List.mem_cons_self, absent (.tail _ List.mem_cons_self)]
  cases registry.live.contains (owner.child .static name) <;> rfl

/-- Names that lead along static members are followed to their end. The induction is on the names
that remain, with those already followed as the front. -/
theorem foldl_resolve_member (leads : registry.LeadsAlong (front ++ rest)) (filled : front ≠ []) :
    rest.foldl registry.resolveMember (NamePath.ofNames front) =
      NamePath.ofNames (front ++ rest) := by
  induction rest generalizing front with
  | nil => simp
  | cons owner rest inductionHypothesis =>
    have free := leads front.length (by simp) (List.length_pos_iff.mpr filled) owner (by simp)
    rw [List.take_left'  rfl] at free
    rw [List.foldl_cons, resolve_member_eq free, NamePath.child_static_of_names,
      inductionHypothesis (by simpa using leads) (by simp)]
    simp

/-- An assignment to a member of a prototype has the path of the instance member.

Proof: the text is cut at its last dot into the name and the container, and the container ends in
the prototype. What is left are the owners, whose names lead along static members. -/
theorem target_path_prototype (filled : owners ≠ []) (plain : ∀ owner ∈ owners, IsPlainName owner)
    (plainName : IsPlainName name) (leads : registry.LeadsAlong owners) :
    registry.targetPath (".".intercalate owners ++ ".prototype." ++ name) [] name =
      NamePath.memberPath owners name := by
  have cut : Text.cutLast? '.' (".".intercalate owners ++ ".prototype." ++ name).toList =
      some ((".".intercalate owners).toList ++ ".prototype".toList, name.toList) := by
    have split : (".".intercalate owners ++ ".prototype." ++ name).toList =
        ((".".intercalate owners).toList ++ ".prototype".toList) ++ '.' :: name.toList := by
      simp
    rw [split, Text.cut_last?_append plainName.undotted]
  obtain ⟨head, rest, rfl⟩ := List.exists_cons_of_ne_nil filled
  have followed : rest.foldl registry.resolveMember (NamePath.ofNames [head]) =
      NamePath.ofNames (head :: rest) :=
    foldl_resolve_member leads (List.cons_ne_nil head [])
  simp only [targetPath, cut, Option.map_some, Option.getD_some,
    split_container_prototype (solid_intercalate plain), pieces_of_plain_names filled plain,
    List.map_map, List.map_cons, String.ofList_toList, resolve_head_nil]
  simp only [Function.comp_def, String.ofList_toList, List.map_id', followed]
  rfl

/-- The container that documentation names has the path of the owners. -/
theorem owner_path_intercalate (filled : owners ≠ [])
    (plain : ∀ owner ∈ owners, IsPlainName owner) :
    ownerPath (".".intercalate owners).toList = NamePath.ofNames owners := by
  have below : NamePath.ofNames owners ≠ .root := by
    intro same
    have inside := NamePath.is_root_of_names filled
    rw [same] at inside
    cases inside
  have head : (NamePath.ofNames owners).withStaticHead = NamePath.ofNames owners := by
    cases owners <;> rfl
  rw [ownerPath, String.ofList_toList, ← NamePath.render_of_names plain,
    NamePath.parse_render below, head]

/-- All three forms give a draft the path of the instance member.

Proof: an assignment goes by its target; for the other two forms the ending of the container is
taken off, and the owners are read as a path of static segments. -/
theorem path_for_of_is_member_of (filled : owners ≠ [])
    (plain : ∀ owner ∈ owners, IsPlainName owner) (plainName : IsPlainName draft.entity.name)
    (leads : registry.LeadsAlong owners) (member : draft.IsMemberOf owners) :
    registry.pathFor draft .root [] = NamePath.memberPath owners draft.entity.name := by
  have solid := solid_intercalate plain
  have owner := owner_path_intercalate filled plain
  cases member with
  | assigned free target =>
    rw [pathFor, free, target]
    exact target_path_prototype filled plain plainName leads
  | prototype named =>
    have split := split_container_prototype solid
    rw [pathFor, named]
    simp only [String.toList_append, split, owner]
    rfl
  | hash named =>
    have split := split_container_hash solid
    rw [pathFor, named]
    have hash : "#".toList = ['#'] := rfl
    simp only [String.toList_append, hash, split, owner]
    rfl

/-- A draft is placed at top level as it is where it was declared as a member, if it has the same
path there. Placing looks at a draft for its path, its entity, its directives and what is nested in
it, and at nothing else. -/
theorem place_eq_as_member (registry : Registry) {container : NamePath}
    (same : registry.pathFor draft .root [] = container.child .onInstance draft.entity.name)
    (nested : List (Tree Draft)) :
    place registry .root [] (.node draft nested) =
      place registry container [] (.node draft.asMember nested) := by
  simp only [place, same]
  rfl

/-- A draft that was placed is held at the path that it got, live or superseded. What is nested in
the draft is placed afterwards and cannot take the path away without superseding the entity. -/
theorem holds_of_place {container : NamePath} {scopes : List NamePath} {nested : List (Tree Draft)}
    (placed : place registry container scopes (.node draft nested) = .ok next) :
    ∃ entity, next.Holds entity ∧ entity.imprint = draft.entity.imprint ∧
      entity.path = registry.pathFor draft container scopes ∧
      entity.parent = (registry.pathFor draft container scopes).parent? := by
  obtain ⟨path, arrived, rfl, ⟨inserted, placed⟩ | ⟨inserted, rfl⟩⟩ := place_node placed
  · have keeps {entity : Entity} (found : arrived.live.get?
        (registry.pathFor draft container scopes) = some entity) : next.Holds entity :=
      (holds_kept_by_placing entity).place_all nested (.inl (Table.mem_values_of_get? found)) placed
    obtain ⟨_, rfl, _⟩ | ⟨_, _, _, _, dead⟩ | ⟨earlier, _, _, rfl, _⟩ := insert_cases inserted
    · have found := keeps ((Table.get?_insert ..).trans (if_pos rfl))
      exact ⟨_, found, rfl, rfl, rfl⟩
    · cases dead
    · have found := keeps ((Table.get?_insert ..).trans (if_pos rfl))
      exact ⟨_, found, rfl, rfl, rfl⟩
  · exact ⟨_, .inr (List.mem_append_left _ (mem_superseded_of_insert inserted)), rfl, rfl, rfl⟩

/-- **The forms of an instance member agree.** A draft at top level that is assigned to a member of
a prototype, or whose documentation names the prototype or the hash of its owner, gets the path of
an instance member there, below the owner. All such drafts are placed as the one that is declared as
an instance member of the owner, and the entity is held at that path. None of the owners need be
live.

The premises on names keep quoted names out, which the text of an assignment cannot hold.

Proof: all three forms have the path of the instance member, which has the owners as its parent.
Placing at top level is then placing the declared member in its container, and so two forms of the
same draft are placed alike. Where the draft is placed, its entity is held at the path, live or
superseded. -/
theorem prototype_forms_agree (filled : owners ≠ []) (plain : ∀ owner ∈ owners, IsPlainName owner)
    (plainName : IsPlainName draft.entity.name) (leads : registry.LeadsAlong owners)
    (member : draft.IsMemberOf owners) :
    registry.pathFor draft .root [] = NamePath.memberPath owners draft.entity.name ∧
    (NamePath.memberPath owners draft.entity.name).segments =
      owners.map (⟨.static, ·⟩) ++ [⟨.onInstance, draft.entity.name⟩] ∧
    (NamePath.memberPath owners draft.entity.name).parent? = some (NamePath.ofNames owners) ∧
    ∀ nested,
      place registry .root [] (.node draft nested) =
        place registry (NamePath.ofNames owners) [] (.node draft.asMember nested) ∧
      (∀ other : Draft, other.IsMemberOf owners → other.asMember = draft.asMember →
        place registry .root [] (.node other nested) =
          place registry .root [] (.node draft nested)) ∧
      ∀ next, place registry .root [] (.node draft nested) = .ok next →
        ∃ entity, next.Holds entity ∧ entity.imprint = draft.entity.imprint ∧
          entity.path = NamePath.memberPath owners draft.entity.name ∧
          entity.parent = some (NamePath.ofNames owners) := by
  have path := path_for_of_is_member_of filled plain plainName leads member
  have parent : (NamePath.memberPath owners draft.entity.name).parent? =
      some (NamePath.ofNames owners) :=
    NamePath.parent?_child (NamePath.is_root_of_names filled) _ _
  have placed := place_eq_as_member registry path
  refine ⟨path, ?segments, parent, fun nested => ⟨placed nested, ?forms, ?held⟩⟩
  case segments =>
    rw [NamePath.memberPath, NamePath.child, NamePath.is_root_of_names filled]
    rfl
  case forms =>
    intro other alike same
    have name : other.asMember.entity.name = draft.asMember.entity.name := by rw [same]
    have again := path_for_of_is_member_of filled plain (name.symm ▸ plainName) leads alike
    rw [place_eq_as_member registry again, same, placed]
  case held =>
    intro next done
    rw [← path, ← parent, ← path]
    exact holds_of_place done

/-- A class with a class in it. -/
def nestedOwners : Registry :=
  (assign [[
    .node { entity := { kind := .classEntity, name := "Outer", order := { sequence := 0 } } }
      [.node { entity := { kind := .classEntity, name := "Inner", order := { sequence := 1 } } } []]
    ]]).toOption.getD .empty

/-- A function that is assigned to, or that its documentation places, at top level. -/
def runDraft (target memberOf : Option String) : Draft :=
  { entity := { kind := .function, name := "run", order := { sequence := 2 } },
    target := target, memberOf := memberOf }

/-- The forms for the inner class and for a class that is not there. -/
theorem prototype_forms_nested :
    (∀ form ∈ [runDraft (some "Outer.Inner.prototype.run") none,
        runDraft none (some "Outer.Inner.prototype"), runDraft none (some "Outer.Inner#")],
      form.IsMemberOf ["Outer", "Inner"] ∧ nestedOwners.LeadsAlong ["Outer", "Inner"] ∧
      nestedOwners.pathFor form .root [] = NamePath.memberPath ["Outer", "Inner"] "run") ∧
    NamePath.ofNames ["Outer", "Inner"] ∈ nestedOwners.live.keys ∧
    (runDraft none (some "Absent#")).IsMemberOf ["Absent"] ∧
    nestedOwners.pathFor (runDraft none (some "Absent#")) .root [] =
      NamePath.memberPath ["Absent"] "run" ∧
    NamePath.ofNames ["Absent"] ∉ nestedOwners.live.keys := by
  have leads : nestedOwners.LeadsAlong ["Outer", "Inner"] := by decide +kernel
  have path (form : Draft) (named : form.entity.name = "run")
      (member : form.IsMemberOf ["Outer", "Inner"]) :
      nestedOwners.pathFor form .root [] = NamePath.memberPath ["Outer", "Inner"] "run" :=
    named ▸ (prototype_forms_agree (by decide) (by decide) (by rw [named]; decide) leads member).1
  have absent : (runDraft none (some "Absent#")).IsMemberOf ["Absent"] := .hash (by decide)
  refine ⟨?forms, by decide +kernel, absent,
    (prototype_forms_agree (by decide) (by decide) (by decide) (by decide +kernel) absent).1,
    by decide +kernel⟩
  case forms =>
    simp only [List.forall_mem_cons]
    have assigned : (runDraft (some "Outer.Inner.prototype.run") none).IsMemberOf
        ["Outer", "Inner"] := .assigned rfl (by decide)
    have prototype : (runDraft none (some "Outer.Inner.prototype")).IsMemberOf
        ["Outer", "Inner"] := .prototype (by decide)
    have hash : (runDraft none (some "Outer.Inner#")).IsMemberOf ["Outer", "Inner"] :=
      .hash (by decide)
    exact ⟨⟨assigned, leads, path _ rfl assigned⟩, ⟨prototype, leads, path _ rfl prototype⟩,
      ⟨hash, leads, path _ rfl hash⟩, by simp⟩

end Registry

end DocGraph
