import DocGraph.Proofs.Places

/-!
# The comments that define a type on their own

A file is normalized in two parts. The first one visits the declarations that have a name, as long
as nothing around them is without one, and uses up the comments that document them. The second one
goes through the comments that are left over, and makes a draft of each that defines a type or a
callback.

What is left over is described here without the traversal. A comment that documents nothing but an
anonymous declaration, or something inside of one, is left over; a comment that documents a
declaration whose draft is later merged into another one, or handed up to a class, is not.

Numbers are given to declarations first and to left-over comments afterwards, so the order of a
draft says which of the two parts it comes from. That the second part comes last is only true as
long as the counter does not start again from zero.
-/

namespace DocGraph

/-- A declaration has a name to become an entity under. Constructors need none; they are all called
by the same word, whatever is written for them. -/
def Declaration.IsNamed (declaration : Declaration) : Prop :=
  declaration.kind = .constructor ∨ declaration.displayName?.isSome = true

/-- A comment defines a type under a name: the first type definition gives the name, or else the
first callback. The name is the first word of the tag. A type definition without a name is not made
up for by a callback with one. -/
def DocComment.Defines (doc : DocComment) (name : String) : Prop :=
  ∃ tag, (doc.first? .typedef = some tag ∨
      doc.first? .typedef = none ∧ doc.first? .callback = some tag) ∧
    tag.args.head? = some name

/-- Declarations that are visited: they have a name, and so has everything around them. It is the
relation that the traversal computes, written without the pruned tree and without the numbers that
the traversal gives. -/
inductive Visits : List (Tree Declaration) → Declaration → Prop where
  | here {forest nested : List (Tree Declaration)} {declaration : Declaration}
      (listed : .node declaration nested ∈ forest) (named : declaration.IsNamed) :
      Visits forest declaration
  | inside {forest nested : List (Tree Declaration)} {outer declaration : Declaration}
      (listed : .node outer nested ∈ forest) (named : outer.IsNamed)
      (visited : Visits nested declaration) : Visits forest declaration

namespace SourceFile

/-- A comment of a file defines a type under a name and documents neither the file nor a
declaration. Whether a comment documents a declaration is asked of visited ones only, so a comment
in front of an anonymous function is free. -/
structure DefinesAlone (file : SourceFile) (config : Config) (index : Nat) (name : String) :
    Prop where
  defines : ∃ doc, file.docs[index]? = some (some doc) ∧ doc.isFileLevel = false ∧
    doc.Defines name
  free : ∀ declaration, Visits file.declarations declaration →
    (file.attachment config).commentFor? declaration.span ≠ some index

/-- A draft stands for a comment of a file that defines a type on its own. Nothing is said about
kind and relations here; they come from the tags of the comment as for every other draft. -/
structure StandsFor (file : SourceFile) (config : Config) (index : Nat) (tree : Tree Draft) :
    Prop where
  named : file.DefinesAlone config index tree.value.entity.name
  located : ∃ comment, file.comments[index]? = some comment ∧
    tree.value.entity.location = ⟨file.path, comment.span.startLine⟩
  binding : tree.value.binding = .static
  target : tree.value.target = none
  childless : tree.children = []

end SourceFile

namespace Tree

universe u
variable {α : Type u}

mutual

/-- Numbering leaves the values of a tree in their order. So whatever is said of the values can be
said before the numbers are given. -/
theorem map_snd_number : ∀ (start : Nat) (tree : Tree α),
    (number start tree).1.preorder.map Prod.snd = tree.preorder
  | start, node value children => by
    simp only [number, preorder, List.map_cons, map_snd_number_forest]

/-- Numbering leaves the values of a forest in their order. -/
theorem map_snd_number_forest : ∀ (start : Nat) (forest : List (Tree α)),
    (forestPreorder (numberForest start forest).1).map Prod.snd = forestPreorder forest
  | _, [] => rfl
  | start, first :: rest => by
    simp only [numberForest, forestPreorder, List.map_append, map_snd_number, map_snd_number_forest]

end

end Tree

section Visited

variable {declaration : Declaration}

/-- An entity has a name to stand under when its declaration has one. -/
theorem Declaration.exists_entity_name?_iff :
    (∃ name, declaration.entityName? = some name) ↔ declaration.IsNamed := by
  rw [entityName?, IsNamed, Option.isSome_iff_exists]
  split
  · next constructor => simp [constructor]
  · next other => simp [other]

/-- The test that keeps a declaration, with the name that it has. -/
def acceptNamed (declaration : Declaration) : Option (String × Declaration) :=
  declaration.entityName?.map fun name => (name, declaration)

/-- What is left of a tree was visited. The declaration is known to come from some forest that the
tree is one of, so that the way to it can be followed from the outside to the inside. -/
theorem visits_of_mem_prune {name : String} (tree : Tree Declaration) :
    ∀ {forest kept}, tree ∈ forest → tree.prune acceptNamed = some kept →
      (name, declaration) ∈ kept.preorder → Visits forest declaration := by
  induction tree using Tree.induct with
  | step outer nested inductionHypothesis =>
    intro forest kept listed pruned present
    rw [Tree.prune] at pruned
    obtain ⟨accepted, accepts, rfl⟩ := Option.map_eq_some_iff.mp pruned
    obtain ⟨own, entityName, rfl⟩ := Option.map_eq_some_iff.mp accepts
    have named : outer.IsNamed := Declaration.exists_entity_name?_iff.mp ⟨own, entityName⟩
    rw [Tree.preorder, List.mem_cons] at present
    obtain same | deeper := present
    · cases same
      exact .here listed named
    · rw [Tree.forest_preorder_eq_flat_map, Tree.prune_forest_eq_filter_map] at deeper
      obtain ⟨lower, lowerListed, found⟩ := List.mem_flatMap.mp deeper
      obtain ⟨child, childListed, lowerPruned⟩ := List.mem_filterMap.mp lowerListed
      exact .inside listed named
        (inductionHypothesis child childListed childListed lowerPruned found)

/-- The declarations that are visited are those that are left when everything below a declaration
without a name is taken away.

Proof: from left to right by induction on the tree, following the pruned tree down. From right to
left by induction on the visit, since each of its two rules leads to a node that pruning has
kept. -/
theorem mem_prune_forest_iff {forest : List (Tree Declaration)} :
    (∃ name, (name, declaration) ∈ Tree.forestPreorder (Tree.pruneForest acceptNamed forest)) ↔
      Visits forest declaration := by
  simp only [Tree.forest_preorder_eq_flat_map, Tree.prune_forest_eq_filter_map]
  constructor
  · rintro ⟨name, present⟩
    obtain ⟨kept, keptListed, found⟩ := List.mem_flatMap.mp present
    obtain ⟨tree, listed, pruned⟩ := List.mem_filterMap.mp keptListed
    exact visits_of_mem_prune tree listed pruned found
  · intro visited
    have accepts {outer : Declaration} {nested : List (Tree Declaration)} (named : outer.IsNamed) :
        ∃ own, (Tree.node outer nested).prune acceptNamed =
          some (.node (own, outer) (Tree.pruneForest acceptNamed nested)) := by
      obtain ⟨own, entityName⟩ := Declaration.exists_entity_name?_iff.mpr named
      exact ⟨own, by simp [Tree.prune, acceptNamed, entityName]⟩
    induction visited with
    | here listed named =>
      obtain ⟨own, pruned⟩ := accepts named
      exact ⟨own, List.mem_flatMap.mpr ⟨_, List.mem_filterMap.mpr ⟨_, listed, pruned⟩,
        List.mem_cons_self⟩⟩
    | inside listed named _ inductionHypothesis =>
      obtain ⟨own, pruned⟩ := accepts named
      obtain ⟨name, present⟩ := inductionHypothesis
      rw [← Tree.prune_forest_eq_filter_map, ← Tree.forest_preorder_eq_flat_map] at present
      exact ⟨name, List.mem_flatMap.mpr ⟨_, List.mem_filterMap.mpr ⟨_, listed, pruned⟩,
        List.mem_cons_of_mem _ present⟩⟩

end Visited

namespace DocComment

variable {doc : DocComment} {name : String}

/-- The definition that a comment gives has the name that the comment defines. The kind of the
definition is decided by which of the two tags it was. -/
theorem exists_definition?_iff :
    (∃ tag kind, Draft.definition? doc = some (name, tag, kind)) ↔ doc.Defines name := by
  simp only [Draft.definition?, Draft.definingTag?, Defines]
  cases doc.first? .typedef with
  | some tag => simp
  | none => cases doc.first? .callback <;> simp

end DocComment

namespace Draft

/-- No tag changes how a draft binds to what is around it, or makes it an assignment. Only the text
of a tag that names a place or a kind reaches a draft, and neither binding nor target is among what
it sets. -/
theorem attachment_apply_tag (draft : Draft) (tag : Tag) :
    (draft.applyTag tag).binding = draft.binding ∧ (draft.applyTag tag).target = draft.target := by
  unfold applyTag
  split <;> first | exact ⟨rfl, rfl⟩ | (split <;> exact ⟨rfl, rfl⟩)

/-- The draft of a definition is static and no assignment, whatever its comment says. The tags are
applied one after the other, and none of them changes the two. -/
theorem attachment_of_definition (doc : DocComment) (name : String) (tag : Tag) (kind : EntityKind)
    (location : Location) (order : SourceOrder) :
    (ofDefinition doc name tag kind location order).binding = .static ∧
      (ofDefinition doc name tag kind location order).target = none := by
  exact ⟨foldl_apply_tag_eq binding (fun draft tag => (attachment_apply_tag draft tag).1)
      doc.tags _,
    foldl_apply_tag_eq target (fun draft tag => (attachment_apply_tag draft tag).2) doc.tags _⟩

end Draft

namespace SourceFile

variable {file : SourceFile} {config : Config} {fileIndex : UInt32} {index : Nat}

/-- The declarations that a file keeps are those that are visited. -/
theorem mem_visited_iff {declaration : Declaration} :
    (∃ name, (name, declaration) ∈ Tree.forestPreorder file.visited) ↔
      Visits file.declarations declaration :=
  mem_prune_forest_iff

/-- The declaration of a site is visited, and the site has the comment that documents it. The
comment is looked up by the index that attachment gives, and an index whose comment is not a doc
comment gives none. -/
theorem visits_of_mem_sites {site : Site}
    (listed : site ∈ Tree.forestPreorder (file.sites fileIndex config)) :
    Visits file.declarations site.declaration ∧
      site.doc = ((file.attachment config).commentFor? site.declaration.span).bind
        fun index => (file.docs[index]?).join := by
  rw [sites, Tree.forest_preorder_map_forest] at listed
  obtain ⟨⟨sequence, name, declaration⟩, present, rfl⟩ := List.mem_map.mp listed
  have kept := List.mem_map_of_mem (f := Prod.snd) present
  rw [Tree.map_snd_number_forest] at kept
  exact ⟨mem_visited_iff.mp ⟨name, kept⟩, rfl⟩

/-- A comment is used up when it documents a visited declaration. What the traversal collects is
thereby described without it. -/
theorem mem_used_comments_iff :
    index ∈ file.usedComments config ↔ ∃ declaration, Visits file.declarations declaration ∧
      (file.attachment config).commentFor? declaration.span = some index := by
  simp only [usedComments, List.mem_filterMap, Prod.exists, ← mem_visited_iff]
  exact ⟨fun ⟨name, declaration, present, found⟩ => ⟨declaration, ⟨name, present⟩, found⟩,
    fun ⟨declaration, ⟨name, present⟩, found⟩ => ⟨name, declaration, present, found⟩⟩

/-- A comment is about the file when its text has a tag that says so. -/
theorem mem_file_level_iff {doc : DocComment} (held : file.docs[index]? = some (some doc)) :
    index ∈ file.fileLevel ↔ doc.isFileLevel = true := by
  simp only [fileLevel, List.mem_map, List.mem_filter, Prod.exists, List.mem_zipIdx_iff_getElem?]
  constructor
  · rintro ⟨other, _, ⟨found, about⟩, rfl⟩
    rw [held] at found
    cases found
    simpa using about
  · exact fun about => ⟨some doc, index, ⟨held, by simpa using about⟩, rfl⟩

/-- The definition of a comment that is left over. It is the test of the definitions of a file,
written for one comment with its index. -/
def leftOver? (file : SourceFile) (config : Config)
    (indexed : (SourceComment × Option DocComment) × Nat) :
    Option (UInt32 × DocComment × String × Tag × EntityKind) :=
  if (file.usedComments config).contains indexed.2 || file.fileLevel.contains indexed.2 then none
  else
    indexed.1.2.bind fun doc =>
      (Draft.definition? doc).map fun definition =>
        (indexed.1.1.span.startLine, doc, definition)

/-- The comments of a file with what was parsed of them, and their indices. -/
def indexedComments (file : SourceFile) : List ((SourceComment × Option DocComment) × Nat) :=
  (file.comments.zip file.docs).zipIdx

/-- The defining comments of a file are those that are left over. From here on the comments are
treated one by one. -/
theorem definitions_eq_filter_map (file : SourceFile) (config : Config) :
    file.definitions config = file.indexedComments.filterMap (file.leftOver? config) := by
  refine List.filterMap_congr fun ((_, doc), _) _ => ?_
  cases doc <;> rfl

/-- An indexed comment stands in the file at its index. -/
theorem mem_indexed_comments_iff {comment : SourceComment} {doc : Option DocComment} :
    ((comment, doc), index) ∈ file.indexedComments ↔
      file.comments[index]? = some comment ∧ file.docs[index]? = some doc := by
  rw [indexedComments, List.mem_zipIdx_iff_getElem?, List.getElem?_zip_eq_some]

/-- A comment that defines a type under a name is left over when it documents neither the file nor a
visited declaration. Being used and being about the file are read off two lists of indices, and the
equivalence says that the lists are right. -/
theorem defines_alone_iff {doc : DocComment} {name : String}
    (held : file.docs[index]? = some (some doc)) :
    file.DefinesAlone config index name ↔
      (index ∉ file.usedComments config ∧ index ∉ file.fileLevel) ∧ doc.Defines name := by
  have free : index ∉ file.usedComments config ↔ ∀ declaration,
      Visits file.declarations declaration →
        (file.attachment config).commentFor? declaration.span ≠ some index := by
    simp only [mem_used_comments_iff, not_exists, not_and, ne_eq]
  rw [free, mem_file_level_iff held, Bool.not_eq_true]
  constructor
  · rintro ⟨⟨other, found, ordinary, defines⟩, free⟩
    rw [held] at found
    cases found
    exact ⟨⟨free, ordinary⟩, defines⟩
  · rintro ⟨⟨free, ordinary⟩, defines⟩
    exact ⟨⟨doc, held, ordinary, defines⟩, free⟩

/-- What is left over defines a type alone, under the name that is found. -/
theorem defines_alone_of_left_over? {comment : SourceComment} {doc : Option DocComment}
    {line : UInt32} {parsed : DocComment} {name : String} {tag : Tag} {kind : EntityKind}
    (held : file.docs[index]? = some doc)
    (found : file.leftOver? config ((comment, doc), index) =
      some (line, parsed, name, tag, kind)) :
    file.DefinesAlone config index name ∧ line = comment.span.startLine := by
  unfold leftOver? at found
  split at found
  · cases found
  · next left =>
    simp only [Bool.or_eq_true, List.contains_iff_mem, not_or] at left
    obtain ⟨own, rfl, found⟩ := Option.bind_eq_some_iff.mp found
    obtain ⟨definition, gives, same⟩ := Option.map_eq_some_iff.mp found
    cases same
    have defines := DocComment.exists_definition?_iff.mp ⟨tag, kind, gives⟩
    exact ⟨(defines_alone_iff held).mpr ⟨left, defines⟩, rfl⟩

/-- What defines a type alone is left over. Together with the previous fact it makes the list of
defining comments complete and free of others. -/
theorem is_some_left_over?_iff {comment : SourceComment} {doc : Option DocComment}
    (held : file.docs[index]? = some doc) :
    (file.leftOver? config ((comment, doc), index)).isSome = true ↔
      ∃ name, file.DefinesAlone config index name := by
  constructor
  · intro some
    obtain ⟨⟨line, parsed, name, tag, kind⟩, found⟩ := Option.isSome_iff_exists.mp some
    exact ⟨name, (defines_alone_of_left_over? held found).1⟩
  · rintro ⟨name, alone⟩
    obtain ⟨own, found, _⟩ := alone.defines
    rw [held] at found
    cases found
    obtain ⟨left, defines⟩ := (defines_alone_iff held).mp alone
    obtain ⟨tag, kind, gives⟩ := DocComment.exists_definition?_iff.mpr defines
    simp [leftOver?, left, gives]

/-- The indices of the comments that define a type alone. It is the list that the drafts of comments
are compared with. -/
def definingComments (file : SourceFile) (config : Config) : List Nat :=
  (file.indexedComments.filter fun indexed => (file.leftOver? config indexed).isSome).map Prod.snd

/-- The defining comments are listed in their order. Indices grow along the comments, and a sublist
of them grows, too. -/
theorem pairwise_defining_comments (file : SourceFile) (config : Config) :
    (file.definingComments config).Pairwise (· < ·) := by
  have indices : file.indexedComments.Pairwise fun left right => left.2 < right.2 := by
    rw [← List.pairwise_map (f := Prod.snd), indexedComments, List.zipIdx_map_snd]
    exact List.pairwise_lt_range'
  exact List.pairwise_map.mpr (indices.filter _)

/-- There is a parsed comment or none at the index of each comment. -/
theorem length_docs (file : SourceFile) : file.docs.length = file.comments.length := by
  rw [docs, parsedComments, List.length_map, List.length_map]

/-- All comments that define a type alone are listed. -/
theorem mem_defining_comments_iff :
    index ∈ file.definingComments config ↔ ∃ name, file.DefinesAlone config index name := by
  simp only [definingComments, List.mem_map, List.mem_filter, Prod.exists]
  constructor
  · rintro ⟨comment, doc, _, ⟨listed, left⟩, rfl⟩
    exact (is_some_left_over?_iff (mem_indexed_comments_iff.mp listed).2).mp left
  · rintro ⟨name, alone⟩
    obtain ⟨doc, held, _⟩ := alone.defines
    have short : index < file.comments.length := by
      rw [← length_docs]
      exact (List.getElem?_eq_some_iff.mp held).1
    refine ⟨file.comments[index], some doc, index, ⟨?_, ?_⟩, rfl⟩
    · exact mem_indexed_comments_iff.mpr ⟨List.getElem?_eq_getElem short, held⟩
    · exact (is_some_left_over?_iff held).mpr ⟨name, alone⟩

/-- The draft of a definition, with the number that it got. -/
def definedDraft (file : SourceFile) (fileIndex : UInt32)
    (numbered : (UInt32 × DocComment × String × Tag × EntityKind) × Nat) : Tree Draft :=
  match numbered with
  | ((line, doc, name, tag, kind), sequence) =>
    .node (Draft.ofDefinition doc name tag kind ⟨file.path, line⟩
      ⟨fileIndex, UInt32.ofNat sequence⟩) []

/-- The definition that is found at a comment has a draft that stands for the comment. Name and line
are those of the definition, and the rest is what every definition starts with. -/
theorem stands_for_defined_draft {comment : SourceComment} {doc : Option DocComment}
    {definition : UInt32 × DocComment × String × Tag × EntityKind} {sequence : Nat}
    (listed : ((comment, doc), index) ∈ file.indexedComments)
    (found : file.leftOver? config ((comment, doc), index) = some definition) :
    file.StandsFor config index (file.definedDraft fileIndex (definition, sequence)) := by
  obtain ⟨line, parsed, name, tag, kind⟩ := definition
  obtain ⟨commentHeld, docHeld⟩ := mem_indexed_comments_iff.mp listed
  obtain ⟨alone, rfl⟩ := defines_alone_of_left_over? docHeld found
  have fixed := Draft.fixed_part_of_definition parsed name tag kind
    ⟨file.path, comment.span.startLine⟩ ⟨fileIndex, UInt32.ofNat sequence⟩
  obtain ⟨binding, target⟩ := Draft.attachment_of_definition parsed name tag kind
    ⟨file.path, comment.span.startLine⟩ ⟨fileIndex, UInt32.ofNat sequence⟩
  have itsName : (file.definedDraft fileIndex ((comment.span.startLine, parsed, name, tag, kind),
      sequence)).value.entity.name = name := congrArg (fun part => part.1.2.1) fixed
  have location := congrArg (fun part => part.1.2.2.2) fixed
  exact ⟨itsName.symm ▸ alone, ⟨comment, commentHeld, location⟩, binding, target, rfl⟩

/-- The drafts of comments alone are those of the definitions, numbered after the declarations. The
first number that is free is the one behind the last visited declaration. -/
theorem virtual_drafts_eq_map (file : SourceFile) (fileIndex : UInt32) (config : Config) :
    file.virtualDrafts fileIndex config =
      ((file.definitions config).zipIdx (Tree.numberForest 0 file.visited).2).map
        (file.definedDraft fileIndex) := rfl

/-- One draft stands for each comment that defines a type alone, in the order of the comments.

Proof: the comments are gone through one by one, for any number to start with. One that is not left
over adds neither an index nor a draft; one that is adds both, and the number goes on by one. -/
theorem stands_for_virtual_drafts (file : SourceFile) (fileIndex : UInt32) (config : Config) :
    List.Forall₂ (file.StandsFor config) (file.definingComments config)
      (file.virtualDrafts fileIndex config) := by
  -- The comments are gone through one by one, and the numbers go on from any number.
  have general (remaining : List ((SourceComment × Option DocComment) × Nat)) (start : Nat)
      (listed : remaining ⊆ file.indexedComments) :
      List.Forall₂ (fun indexed numbered =>
          file.StandsFor config indexed.2 (file.definedDraft fileIndex numbered))
        (remaining.filter fun indexed => (file.leftOver? config indexed).isSome)
        ((remaining.filterMap (file.leftOver? config)).zipIdx start) := by
    induction remaining generalizing start with
    | nil => exact .nil
    | cons indexed rest inductionHypothesis =>
      obtain ⟨head, later⟩ := List.cons_subset.mp listed
      cases found : file.leftOver? config indexed with
      | none => simpa [found] using inductionHypothesis start later
      | some definition =>
        have stands : file.StandsFor config indexed.2
            (file.definedDraft fileIndex (definition, start)) := stands_for_defined_draft head found
        simpa [found] using And.intro stands (inductionHypothesis (start + 1) later)
  rw [virtual_drafts_eq_map, definitions_eq_filter_map, definingComments, List.forall₂_map_left_iff,
    List.forall₂_map_right_iff]
  exact general _ _ (List.Subset.refl _)

/-- The orders of the drafts of comments alone are the last places of the file. The tags of a
definition leave its order alone, so the order is the number that the draft was made with. -/
theorem map_order_virtual_drafts (file : SourceFile) (fileIndex : UInt32) (config : Config) :
    (file.virtualDrafts fileIndex config).map (fun tree => tree.value.entity.order) =
      (List.range' (Tree.numberForest 0 file.visited).2 (file.definitions config).length).map
        fun sequence => (⟨fileIndex, UInt32.ofNat sequence⟩ : SourceOrder) := by
  rw [virtual_drafts_eq_map, List.map_map, ← List.zipIdx_map_snd, List.map_map]
  refine List.map_congr_left fun ((line, doc, name, tag, kind), sequence) _ => ?_
  exact congrArg (fun part => part.1.1) (Draft.fixed_part_of_definition doc name tag kind _ _)

/-- A lower number in the same file is an earlier place, while the numbers fit into 32 bits. Without
the bound the higher number could have started again from zero and be the lower one. -/
theorem compare_place {first second : Nat} (earlier : first < second)
    (fits : second < UInt32.size) (fileIndex : UInt32) :
    Ord.compare (⟨fileIndex, UInt32.ofNat first⟩ : SourceOrder) ⟨fileIndex, UInt32.ofNat second⟩ =
      .lt := by
  have numbers : Ord.compare (UInt32.ofNat first) (UInt32.ofNat second) = .lt := by
    rw [Std.compare_eq_lt, UInt32.lt_iff_toNat_lt, UInt32.toNat_ofNat_of_lt' (by omega),
      UInt32.toNat_ofNat_of_lt' fits]
    exact earlier
  show (Ord.compare fileIndex fileIndex).then _ = .lt
  rw [Std.ReflOrd.compare_self]
  exact numbers

/-- All drafts of declarations, at whatever depth, stand at the places of visited declarations.
Merging overloads and accessors makes fewer drafts of more declarations, and what is merged keeps
the place of one of them. So the places of the drafts are some of those of the declarations. -/
theorem order_declared {draft : Draft}
    (listed : draft ∈ Tree.forestPreorder (Draft.declared (file.sites fileIndex config))) :
    ∃ site ∈ Tree.forestPreorder (file.sites fileIndex config),
      draft.entity.order = site.order := by
  have places := Draft.census_declared_le Draft.order_inherited Site.order_draft
    (file.sites fileIndex config)
  have held : draft.entity.order ∈
      Draft.census Entity.order (Draft.declared (file.sites fileIndex config)) :=
    Multiset.mem_coe.mpr (List.mem_map_of_mem (f := fun draft : Draft => draft.entity.order) listed)
  have placed := Multiset.mem_coe.mp (Multiset.mem_of_le places held)
  obtain ⟨site, present, same⟩ := List.mem_map.mp placed
  exact ⟨site, present, same.symm⟩

/-- The places of the visited declarations have the first numbers. They are numbered from zero on,
in the order of the traversal. -/
theorem order_of_mem_sites {site : Site}
    (listed : site ∈ Tree.forestPreorder (file.sites fileIndex config)) :
    ∃ sequence < (Tree.numberForest 0 file.visited).2,
      site.order = ⟨fileIndex, UInt32.ofNat sequence⟩ := by
  have places := site_census_order_sites file fileIndex config
  have held : site.order ∈ Draft.siteCensus Site.order (file.sites fileIndex config) :=
    Multiset.mem_coe.mpr (List.mem_map_of_mem listed)
  rw [places, Multiset.mem_coe] at held
  obtain ⟨sequence, within, same⟩ := List.mem_map.mp held
  exact ⟨sequence, by simpa using (List.mem_range'_1.mp within).2, same.symm⟩

/-- **The drafts of comments alone.** What a file appends to the drafts of its declarations is one
draft for each comment that defines a type, is not about the file and is found for no visited
declaration, in the order of the comments. The draft is named by the comment, static, without
members and no assignment. No comment that a visited declaration gets has a draft of its own. As
long as its numbers fit into 32 bits, each of these drafts comes after the one before, and after
every visited declaration and every draft of one.

Proof: the comments in question are those whose test succeeds, which are listed in the order of
their indices, and by a walk along the comments there is one draft for each. A visited declaration
marks its comment as used, so that comment fails the test. The orders are the numbers behind the
last declaration, one after the other, and drafts of declarations have lower numbers even where
several of them were merged. The bound keeps the comparison of numbers in 32 bits from wrapping
around. -/
theorem virtual_drafts_exact (file : SourceFile) (fileIndex : UInt32) (config : Config) :
    ∃ (defining : List Nat) (virtual : List (Tree Draft)),
      (file.normalize fileIndex config).drafts =
        Draft.declared (file.sites fileIndex config) ++ virtual ∧
      defining.Pairwise (· < ·) ∧
      (∀ index, index ∈ defining ↔ ∃ name, file.DefinesAlone config index name) ∧
      List.Forall₂ (file.StandsFor config) defining virtual ∧
      (∀ site ∈ Tree.forestPreorder (file.sites fileIndex config), ∀ index,
        (file.attachment config).commentFor? site.declaration.span = some index →
          site.doc = (file.docs[index]?).join ∧ index ∉ defining) ∧
      (file.placeCount config < UInt32.size →
        (virtual.Pairwise fun earlier later =>
          Ord.compare earlier.value.entity.order later.value.entity.order = .lt) ∧
        ∀ tree ∈ virtual,
          (∀ site ∈ Tree.forestPreorder (file.sites fileIndex config),
            Ord.compare site.order tree.value.entity.order = .lt) ∧
          ∀ draft ∈ Tree.forestPreorder (Draft.declared (file.sites fileIndex config)),
            Ord.compare draft.entity.order tree.value.entity.order = .lt) := by
  refine ⟨file.definingComments config, file.virtualDrafts fileIndex config, rfl,
    pairwise_defining_comments file config, fun index => mem_defining_comments_iff,
    stands_for_virtual_drafts file fileIndex config, ?used, fun counted => ⟨?increasing, ?after⟩⟩
  case used =>
    intro site listed index found
    obtain ⟨visited, documented⟩ := visits_of_mem_sites listed
    rw [found] at documented
    refine ⟨documented, fun defining => ?_⟩
    obtain ⟨name, alone⟩ := mem_defining_comments_iff.mp defining
    exact alone.free _ visited found
  all_goals have orders := map_order_virtual_drafts file fileIndex config
  case increasing =>
    rw [← List.pairwise_map (f := fun tree : Tree Draft => tree.value.entity.order)
      (R := fun earlier later => Ord.compare earlier later = .lt), orders, List.pairwise_map]
    refine List.Pairwise.imp_of_mem ?_ List.pairwise_lt_range'
    intro first second _ within earlier
    exact compare_place earlier ((List.mem_range'_1.mp within).2.trans counted) fileIndex
  case after =>
    intro tree listed
    have placed :=
      List.mem_map_of_mem (f := fun tree : Tree Draft => tree.value.entity.order) listed
    rw [orders] at placed
    obtain ⟨number, within, same⟩ := List.mem_map.mp placed
    have bounds := List.mem_range'_1.mp within
    have fits : number < UInt32.size := bounds.2.trans counted
    have afterSite : ∀ site ∈ Tree.forestPreorder (file.sites fileIndex config),
        Ord.compare site.order tree.value.entity.order = .lt := by
      intro site present
      obtain ⟨sequence, before, its⟩ := order_of_mem_sites present
      rw [its, ← same]
      exact compare_place (before.trans_le bounds.1) fits fileIndex
    refine ⟨afterSite, fun draft present => ?_⟩
    obtain ⟨site, its, order⟩ := order_declared present
    rw [order]
    exact afterSite site its

/-- A function with its comment, and a type definition behind it. -/
def typesFile : SourceFile :=
  { path := "types.js"
    comments := [
      { text := "/** Runs. */", span := ⟨1, 1, 0, 0⟩ },
      { text := "/** @typedef {Object} Point */", span := ⟨4, 4, 0, 0⟩ }]
    declarations := [.node { kind := .function, name := some "run", span := ⟨2, 3, 0, 0⟩ } []] }

/-- The type definition comes after the function. The comment of the function is used up, so the
definition is the only draft of a comment. -/
theorem virtual_drafts_types_file :
    typesFile.placeCount {} < UInt32.size ∧
    ∃ virtual : List (Tree Draft), virtual.map (fun tree => tree.value.entity.name) = ["Point"] ∧
      ∀ tree ∈ virtual, ∀ site ∈ Tree.forestPreorder (typesFile.sites 0 {}),
        Ord.compare site.order tree.value.entity.order = .lt := by
  have counted : typesFile.placeCount {} < UInt32.size := by decide +kernel
  obtain ⟨_, virtual, drafts, _, _, _, _, ordered⟩ := virtual_drafts_exact typesFile 0 {}
  have same : typesFile.virtualDrafts 0 {} = virtual := List.append_cancel_left drafts
  have named : (typesFile.virtualDrafts 0 {}).map (fun tree => tree.value.entity.name) =
      ["Point"] := by decide +kernel
  exact ⟨counted, virtual, same ▸ named, fun tree listed => ((ordered counted).2 tree listed).1⟩

end SourceFile

end DocGraph
