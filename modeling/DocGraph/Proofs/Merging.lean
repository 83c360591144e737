import Mathlib.Data.List.SplitBy
import DocGraph.NormalizedFile

/-!
# What all drafts of a file have in common

Merging makes one draft of several, and what it makes has fields from all of them. A property that
holds of the parts holds of what is made of them when it is kept in the two places where drafts are
merged: where a run of signatures becomes one function, and where two accessors become a pair.
Everything else moves drafts or drops them.

So such a property holds of all drafts of a file when it holds of the draft of every declaration and
of every defining comment of the file, whatever tree they form.

A property of entities is kept when the three operations that merge entities keep it: the union of
an overload set, the flags and relations taken in from its parts, and the pairing of two accessors.

The properties are of two kinds, and the one for entities is reduced to the one for drafts. What the
traversal does is then followed once and for all: it encloses drafts in others, merges siblings, and
hands members up.
-/

namespace DocGraph.Draft

variable {holds : Entity → Prop} {apt : Draft → Prop}

/-- A property holds of the entities of a draft and of all drafts nested in it. It is the form for
properties that do not look at directives or bindings. -/
def Throughout (holds : Entity → Prop) (tree : Tree Draft) : Prop :=
  ∀ draft ∈ tree.preorder, holds draft.entity

/-- A property holds of a draft and of all drafts nested in it. -/
def Everywhere (apt : Draft → Prop) (tree : Tree Draft) : Prop :=
  ∀ draft ∈ tree.preorder, apt draft

/-- A property that a merged entity has when the entities it was merged from have it. The signatures
and the documenting parts of an overload set need not have the property, because the properties in
question are read off the first one. -/
structure KeptByMerging (holds : Entity → Prop) : Prop where
  overloaded : ∀ {first : Entity} {signatures documenting : List Entity}, holds first →
    holds (overloadEntity first signatures documenting)
  flagged : ∀ {draft part : Draft}, holds draft.entity → holds part.entity →
    holds (draft.absorbFlags part).entity
  paired : ∀ {main other earlier : Entity}, holds main → holds other →
    holds (pairEntity main other earlier)

/-- A property that a merged draft has when the drafts it was merged from have it. The premises that
are given along are what merging has checked before: the parts continue each other, or are halves of
one accessor. -/
structure Merges (apt : Draft → Prop) : Prop where
  overloads : ∀ {first second : Tree Draft} {rest : List (Tree Draft)},
    (first :: second :: rest).IsChain (fun left right => continues left right = true) →
      (∀ part ∈ first :: second :: rest, apt part.value) →
        apt (combineOverloads first (second :: rest)).value
  accessors : ∀ {first second : Tree Draft}, samePair first.value second.value = true →
    apt first.value → apt second.value → apt (combineAccessor first second).value

/-- Joined relations are the relations of both sides. The order and the number of equal relations
are left out. -/
theorem mem_union_relations {existing added : List Relation} {relation : Relation} :
    relation ∈ unionRelations existing added ↔ relation ∈ existing ∨ relation ∈ added := by
  induction added generalizing existing with
  | nil => simp [unionRelations]
  | cons first rest inductionHypothesis =>
    have joined : unionRelations existing (first :: rest) =
        unionRelations (if existing.contains first then existing else existing ++ [first]) rest :=
      rfl
    rw [joined, inductionHypothesis, List.mem_cons]
    split
    · next held =>
      rw [List.contains_iff_mem] at held
      constructor
      · exact Or.imp_right .inr
      · rintro (before | rfl | later)
        · exact .inl before
        · exact .inl held
        · exact .inr later
    · rw [List.mem_append, List.mem_singleton, or_assoc]

section Entities

/-- Taking in the flags and relations of the parts keeps the property. -/
theorem holds_foldl_absorb_flags (kept : KeptByMerging holds) {parts : List Draft} {draft : Draft}
    (start : holds draft.entity) (others : ∀ part ∈ parts, holds part.entity) :
    holds (parts.foldl absorbFlags draft).entity := by
  induction parts generalizing draft with
  | nil => exact start
  | cons part rest inductionHypothesis =>
    obtain ⟨own, later⟩ := List.forall_mem_cons.mp others
    exact inductionHypothesis (kept.flagged start own) later

/-- A property that merged entities have is one that merged drafts have. An overload set is the
union of its parts with the flags of all of them taken in, and a pair is one of the two ways to
complete a half. -/
theorem KeptByMerging.merges (kept : KeptByMerging holds) :
    Merges fun draft => holds draft.entity where
  overloads {first second rest} _ whole := by
    obtain ⟨begins, others⟩ := List.forall_mem_cons.mp whole
    refine holds_foldl_absorb_flags kept (kept.overloaded begins) ?_
    intro part present
    rcases List.mem_append.mp present with later | last
    · obtain ⟨tree, listed, rfl⟩ := List.mem_map.mp later
      exact others tree (List.mem_filter.mp listed).1
    · obtain ⟨tree, listed, rfl⟩ := Option.map_eq_some_iff.mp (Option.mem_toList.mp last)
      exact others tree (List.mem_of_find?_eq_some listed)
  accessors {first second} _ one other := by
    unfold combineAccessor
    dsimp only
    split
    · exact kept.paired one other
    · exact kept.paired other one

end Entities

section Trees

variable {tree first second member : Tree Draft} {drafts siblings found : List (Tree Draft)}

/-- A property holds everywhere in a draft when it holds of it and everywhere in its children. It is
the equation by which a property is followed down a tree. -/
theorem everywhere_iff :
    Everywhere apt tree ↔ apt tree.value ∧ ∀ child ∈ tree.children, Everywhere apt child := by
  obtain ⟨draft, nested⟩ := tree
  simp only [Everywhere, Tree.preorder, Tree.value, Tree.children, List.forall_mem_cons,
    Tree.forest_preorder_eq_flat_map, List.forall_mem_flatMap]

/-- A property holds throughout a draft when it holds at it and throughout its children. -/
theorem throughout_iff :
    Throughout holds tree ↔
      holds tree.value.entity ∧ ∀ child ∈ tree.children, Throughout holds child :=
  everywhere_iff

/-- What is nested in an overload set is nested in one of its parts. Overload sets keep the children
of one part only. -/
theorem exists_part_of_child {child : Tree Draft}
    (present : child ∈ (combineOverloads first drafts).children) :
    ∃ part ∈ first :: drafts, child ∈ part.children := by
  unfold combineOverloads at present
  dsimp only [Tree.children] at present
  split at present
  · next part listed =>
    exact ⟨part, List.mem_cons_of_mem first (List.mem_of_find?_eq_some listed), present⟩
  · exact ⟨first, List.mem_cons_self, present⟩

/-- Collapsing overload sets keeps the property. A run of one draft is left as it is. -/
theorem everywhere_merge_overloads (merges : Merges apt)
    (all : ∀ tree ∈ drafts, Everywhere apt tree) :
    ∀ tree ∈ mergeOverloads drafts, Everywhere apt tree := by
  intro tree present
  obtain ⟨run, listed, inside⟩ := List.mem_flatMap.mp present
  have whole : ∀ part ∈ run, Everywhere apt part := fun part held =>
    all part (List.flatten_splitBy continues drafts ▸ List.mem_flatten_of_mem listed held)
  unfold combineRun at inside
  split at inside
  · next first second rest =>
    rw [List.mem_singleton.mp inside, everywhere_iff]
    refine ⟨merges.overloads (List.isChain_of_mem_splitBy listed)
      fun part held => (everywhere_iff.mp (whole part held)).1, fun child nested => ?_⟩
    obtain ⟨part, held, inner⟩ := exists_part_of_child nested
    exact (everywhere_iff.mp (whole part held)).2 child inner
  · exact whole tree inside

/-- What is nested in an accessor pair is nested in one of its halves. -/
theorem mem_children_combine_accessor {child : Tree Draft}
    (present : child ∈ (combineAccessor first second).children) :
    child ∈ first.children ∨ child ∈ second.children := by
  unfold combineAccessor at present
  dsimp only at present
  split at present
  · exact List.mem_append.mp present
  · exact (List.mem_append.mp present).symm

/-- Taking a draft into a list of siblings keeps the property. The draft is joined to a sibling,
which has the property too, or appended. -/
theorem everywhere_add_member (merges : Merges apt)
    (all : ∀ tree ∈ siblings, Everywhere apt tree) (added : Everywhere apt member) :
    ∀ tree ∈ addMember siblings member, Everywhere apt tree := by
  intro tree present
  unfold addMember at present
  split at present
  · obtain ⟨held, listed, rfl⟩ := List.mem_map.mp present
    obtain ⟨heldOwn, heldNested⟩ := everywhere_iff.mp (all held listed)
    obtain ⟨addedOwn, addedNested⟩ := everywhere_iff.mp added
    split
    · next same =>
      refine everywhere_iff.mpr ⟨merges.accessors same heldOwn addedOwn, fun child nested => ?_⟩
      exact (mem_children_combine_accessor nested).elim (heldNested child) (addedNested child)
    · exact all held listed
  · rcases List.mem_append.mp present with before | last
    · exact all tree before
    · exact List.mem_singleton.mp last ▸ added

/-- Pairing accessors keeps the property. Drafts are taken in one after the other, and those taken
in so far have the property. -/
theorem everywhere_merge_accessors (merges : Merges apt)
    (all : ∀ tree ∈ drafts, Everywhere apt tree) :
    ∀ tree ∈ mergeAccessors drafts, Everywhere apt tree := by
  have taken (remaining siblings : List (Tree Draft))
      (present : ∀ tree ∈ siblings, Everywhere apt tree)
      (more : ∀ tree ∈ remaining, Everywhere apt tree) :
      ∀ tree ∈ remaining.foldl addMember siblings, Everywhere apt tree := by
    induction remaining generalizing siblings with
    | nil => exact present
    | cons draft rest inductionHypothesis =>
      obtain ⟨own, later⟩ := List.forall_mem_cons.mp more
      exact inductionHypothesis _ (everywhere_add_member merges present own) later
  exact taken drafts [] (by simp) all

/-- Merging the members of a container keeps the property. -/
theorem everywhere_merge_members (merges : Merges apt)
    (all : ∀ tree ∈ drafts, Everywhere apt tree) :
    ∀ tree ∈ mergeMembers drafts, Everywhere apt tree :=
  everywhere_merge_accessors merges (everywhere_merge_overloads merges all)

/-- A member that is handed up is one of the given drafts, and so are the others. What is replaced
is gone with all that is nested in it, so nothing has to be shown about it. -/
theorem mem_of_mem_adopt (present : tree ∈ adopt siblings member) :
    tree ∈ siblings ∨ tree = member := by
  induction siblings with
  | nil => exact .inr (List.mem_singleton.mp present)
  | cons held rest inductionHypothesis =>
    unfold adopt at present
    split at present
    · rcases List.mem_cons.mp present with rfl | later
      · split
        · exact .inr rfl
        · exact .inl List.mem_cons_self
      · exact .inl (.tail _ later)
    · rcases List.mem_cons.mp present with rfl | later
      · exact .inl List.mem_cons_self
      · exact (inductionHypothesis later).imp_left (.tail _)

/-- Handing up members adds none but the given ones. -/
theorem mem_of_mem_adopt_all (present : tree ∈ adoptAll siblings found) :
    tree ∈ siblings ∨ tree ∈ found := by
  unfold adoptAll at present
  induction found generalizing siblings with
  | nil => exact .inl present
  | cons first rest inductionHypothesis =>
    rcases inductionHypothesis present with before | later
    · rcases mem_of_mem_adopt before with held | rfl
      · exact .inl held
      · exact .inr List.mem_cons_self
    · exact .inr (.tail _ later)

end Trees

section Sites

variable {site : Site} {scope : Scope} {nested : Contribution}

/-- A property holds of everything that is contributed to the body around. What is handed up is not
yet in its place, so it is spoken of beside the drafts. -/
def Contribution.Everywhere (apt : Draft → Prop) (contribution : Contribution) : Prop :=
  (∀ tree ∈ contribution.drafts, Draft.Everywhere apt tree) ∧
    ∀ tree ∈ contribution.hoisted, Draft.Everywhere apt tree

/-- A declaration contributes only drafts with the property when its own draft and everything nested
in it have the property. In a class the members that are handed up are adopted; elsewhere they are
passed on. -/
theorem everywhere_enclose (merges : Merges apt) (own : apt (site.draft scope))
    (inside : nested.Everywhere apt) : (enclose site scope nested).Everywhere apt := by
  obtain ⟨drafts, hoisted⟩ := inside
  have members := everywhere_merge_members merges drafts
  have tree (children : List (Tree Draft)) (all : ∀ child ∈ children, Draft.Everywhere apt child) :
      Draft.Everywhere apt (.node (site.draft scope) children) :=
    everywhere_iff.mpr ⟨own, all⟩
  have adopted : ∀ child ∈ adoptAll (mergeMembers nested.drafts) nested.hoisted,
      Draft.Everywhere apt child := fun child present =>
    (mem_of_mem_adopt_all present).elim (members child) (hoisted child)
  unfold enclose
  dsimp only
  split <;> split <;>
    simp only [Contribution.Everywhere, List.forall_mem_append, List.forall_mem_singleton,
      List.not_mem_nil, false_imp_iff, implies_true, true_and, and_true]
  · exact tree _ adopted
  · exact ⟨hoisted, tree _ members⟩
  · exact tree _ adopted
  · exact ⟨tree _ members, hoisted⟩

mutual

/-- What one declaration contributes has the property when the drafts of its site and of all sites
below have it.

Proof: induction on the tree of sites. The scope is left open in the premise, because it changes
from the declaration to its body. -/
theorem everywhere_of_site (merges : Merges apt) :
    ∀ (scope : Scope) (tree : Tree Site),
      (∀ site ∈ tree.preorder, ∀ scope, apt (site.draft scope)) →
        (ofSite scope tree).Everywhere apt
  | scope, .node site nested, gives => by
    obtain ⟨own, inside⟩ := List.forall_mem_cons.mp gives
    rw [ofSite]
    exact everywhere_enclose merges (own scope) (everywhere_of_sites merges _ nested inside)

/-- What several declarations contribute has the property when the drafts of all their sites
have it. -/
theorem everywhere_of_sites (merges : Merges apt) :
    ∀ (scope : Scope) (forest : List (Tree Site)),
      (∀ site ∈ Tree.forestPreorder forest, ∀ scope, apt (site.draft scope)) →
        (ofSites scope forest).Everywhere apt
  | _, [], _ => by simp [ofSites, Contribution.Everywhere]
  | scope, first :: rest, gives => by
    obtain ⟨begins, others⟩ := List.forall_mem_append.mp gives
    obtain ⟨drafts, hoisted⟩ := everywhere_of_site merges scope first begins
    obtain ⟨laterDrafts, laterHoisted⟩ := everywhere_of_sites merges scope rest others
    rw [ofSites]
    exact ⟨List.forall_mem_append.mpr ⟨drafts, laterDrafts⟩,
      List.forall_mem_append.mpr ⟨hoisted, laterHoisted⟩⟩

end

/-- All drafts of a file have a property when the draft of every site and of every defining comment
of the file has it.

Proof: the drafts of a file are those of its declarations, merged as siblings, and those of its
defining comments. The first have the property by the traversal, and the second by the premise,
since they have no children. -/
theorem everywhere_normalize (merges : Merges apt) {file : SourceFile} {fileIndex : UInt32}
    {config : Config}
    (gives : ∀ site ∈ Tree.forestPreorder (file.sites fileIndex config), ∀ scope,
      apt (site.draft scope))
    (defines : ∀ definition ∈ file.definitions config, ∀ location order,
      apt (ofDefinition definition.2.1 definition.2.2.1 definition.2.2.2.1 definition.2.2.2.2
        location order)) :
    ∀ tree ∈ (file.normalize fileIndex config).drafts, Everywhere apt tree := by
  refine List.forall_mem_append.mpr ⟨?declared, ?virtual⟩
  case declared =>
    exact everywhere_merge_members merges (everywhere_of_sites merges _ _ gives).1
  case virtual =>
    intro tree present
    obtain ⟨⟨definition, sequence⟩, listed, rfl⟩ := List.mem_map.mp present
    exact everywhere_iff.mpr
      ⟨defines definition (List.fst_mem_of_mem_zipIdx listed) _ _, by simp [Tree.children]⟩

/-- All entities of a file have the property when every site and every defining comment gives a
draft that has it. It is used where neither the file nor the place of a declaration matters. -/
theorem throughout_normalize (kept : KeptByMerging holds)
    (gives : ∀ (site : Site) scope, holds (site.draft scope).entity)
    (defines : ∀ doc name tag kind location order,
      holds (ofDefinition doc name tag kind location order).entity)
    (file : SourceFile) (fileIndex : UInt32) (config : Config) :
    ∀ tree ∈ (file.normalize fileIndex config).drafts, Throughout holds tree :=
  everywhere_normalize kept.merges (fun site _ => gives site)
    fun definition _ => defines definition.2.1 definition.2.2.1 definition.2.2.2.1
      definition.2.2.2.2

end Sites

end DocGraph.Draft
