import DocGraph.Build
import DocGraph.Proofs.DraftOrder

/-!
# The places that a build hands out

A file numbers its named declarations in preorder and its defining comments after them. A comment
changes much about an entity, but neither its place nor its member list, so the drafts of a file
stand at places that the file handed out, none of them used twice.

Two places are different when their files or their numbers are, provided that neither counter has
run over its 32 bits. The number of files and the number of places that a file hands out are
therefore part of every statement about distinct places.

The count goes from the outside to the inside: a file hands out places to its sites and to its
defining comments; each draft stands at the place of a site or a comment; and merging uses no place
twice. The last step is about numbers, and there the bounds come in.
-/

namespace DocGraph

namespace Entity

/-- The part of an entity that no comment changes. It is put into one tuple, so that a single law
covers all of its fields. -/
def fixedPart (entity : Entity) :
    (SourceOrder × String × EntityKind × Location) × List NamePath :=
  (entity.imprint, entity.members)

end Entity

namespace Draft

/-- Naming a supertype changes relations only. It is one of the few changes that a tag makes to the
entity itself. -/
theorem fixed_part_add_supertype (draft : Draft) (kind : RelationKind) (target : String) :
    (draft.addSupertype kind target).entity.fixedPart = draft.entity.fixedPart := by
  unfold addSupertype modifyEntity
  dsimp only
  split <;> rfl

/-- No tag changes the fixed part of an entity. There is one case for each kind of tag. -/
theorem fixed_part_apply_tag (draft : Draft) (tag : Tag) :
    (draft.applyTag tag).entity.fixedPart = draft.entity.fixedPart := by
  unfold applyTag
  split <;> try rfl
  · split
    · exact fixed_part_add_supertype _ _ _
    · rfl
  · split
    · exact fixed_part_add_supertype _ _ _
    · rfl
  · split <;> rfl

/-- What no tag changes, no list of tags changes. Other modules use it for other traits. -/
theorem foldl_apply_tag_eq {β : Type} (trait : Draft → β)
    (kept : ∀ (draft : Draft) (tag : Tag), trait (draft.applyTag tag) = trait draft)
    (tags : List Tag) (draft : Draft) : trait (tags.foldl applyTag draft) = trait draft := by
  induction tags generalizing draft with
  | nil => rfl
  | cons tag rest inductionHypothesis => rw [List.foldl_cons, inductionHypothesis, kept]

/-- No comment changes the fixed part of an entity. -/
theorem fixed_part_document (draft : Draft) (doc : DocComment) :
    (draft.document doc).entity.fixedPart = draft.entity.fixedPart :=
  foldl_apply_tag_eq (fun draft => draft.entity.fixedPart) fixed_part_apply_tag doc.tags _

/-- A comment or none, the fixed part of an entity stays. -/
theorem fixed_part_document_with (draft : Draft) (doc : Option DocComment) :
    (draft.documentWith doc).entity.fixedPart = draft.entity.fixedPart := by
  cases doc with
  | none => rfl
  | some doc => exact fixed_part_document draft doc

/-- The draft of a comment has the fixed part that its definition gives, and no members. -/
theorem fixed_part_of_definition (doc : DocComment) (name : String) (tag : Tag) (kind : EntityKind)
    (location : Location) (order : SourceOrder) :
    (ofDefinition doc name tag kind location order).entity.fixedPart =
      ((order, name, kind, location), []) :=
  fixed_part_document _ doc

end Draft

namespace Site

/-- What the code adds to a documented entity leaves its fixed part alone. -/
theorem fixed_part_complete_entity (site : Site) (entity : Entity) :
    (site.completeEntity entity).fixedPart = entity.fixedPart := by
  unfold completeEntity
  split
  · rfl
  · rfl
  · split <;> rfl

/-- The draft of a site has the fixed part that the code gives it. The draft of the code is
documented and then completed, and neither touches the part. -/
theorem fixed_part_draft (site : Site) (scope : Scope) :
    (site.draft scope).entity.fixedPart = site.codeEntity.fixedPart := by
  unfold draft
  dsimp only
  rw [fixed_part_complete_entity, Draft.fixed_part_document_with]

/-- The draft of a site stands at the place of the site. -/
theorem order_draft (site : Site) (scope : Scope) :
    (site.draft scope).entity.order = site.order :=
  congrArg (fun part => part.1.1) (fixed_part_draft site scope)

/-- The draft of a site has the name of the site. -/
theorem name_draft (site : Site) (scope : Scope) :
    (site.draft scope).entity.name = site.name :=
  congrArg (fun part => part.1.2.1) (fixed_part_draft site scope)

/-- The draft of a site is of the kind of the site. -/
theorem kind_draft (site : Site) (scope : Scope) :
    (site.draft scope).entity.kind = site.kind :=
  congrArg (fun part => part.1.2.2.1) (fixed_part_draft site scope)

/-- The draft of a site lists no members. -/
theorem members_draft (site : Site) (scope : Scope) :
    (site.draft scope).entity.members = [] :=
  congrArg Prod.snd (fixed_part_draft site scope)

end Site

namespace Draft

section Sites

variable {α : Type} {trait : Entity → α} {given : Site → α}

/-- The traits that the sites of a forest give to their drafts. -/
def siteCensus (given : Site → α) (forest : List (Tree Site)) : Multiset α :=
  Multiset.ofList ((Tree.forestPreorder forest).map given)

/-- Everything that sites contribute to the body around them. -/
def Contribution.census (trait : Entity → α) (contribution : Contribution) : Multiset α :=
  Draft.census trait contribution.drafts + Draft.census trait contribution.hoisted

/-- A declaration contributes itself and what is nested in it, and nothing else. Members that are
handed up are counted in what the body passes on. -/
theorem census_enclose_le (inherited : Inherited trait)
    (gives : ∀ (site : Site) scope, trait (site.draft scope).entity = given site)
    (site : Site) (scope : Scope) (nested : Contribution) :
    (enclose site scope nested).census trait ≤ given site ::ₘ nested.census trait := by
  have merged := census_merge_members_le inherited nested.drafts
  have adopted : census trait (adoptAll (mergeMembers nested.drafts) nested.hoisted) ≤
      nested.census trait :=
    (census_adopt_all_le _ _).trans (add_le_add merged (le_refl _))
  unfold enclose Contribution.census
  dsimp only
  split <;> split <;>
    simp only [census_nil, census_cons, census_append, tree_census_node, gives, add_zero, zero_add,
      Multiset.cons_add, Multiset.add_cons]
  · exact Multiset.cons_le_cons _ adopted
  · rw [add_comm (census trait nested.hoisted)]
    exact Multiset.cons_le_cons _ (add_le_add merged (le_refl _))
  · exact Multiset.cons_le_cons _ adopted
  · exact Multiset.cons_le_cons _ (add_le_add merged (le_refl _))

mutual

/-- What one declaration contributes has the traits of the sites in it, at most once each.

Proof: recursion along the sites. The declaration itself is counted once, and what is nested in it
is counted by the same fact in its own scope. -/
theorem census_of_site_le (inherited : Inherited trait)
    (gives : ∀ (site : Site) scope, trait (site.draft scope).entity = given site) :
    ∀ (scope : Scope) (tree : Tree Site),
      (ofSite scope tree).census trait ≤ siteCensus given [tree]
  | scope, .node site nested => by
    rw [ofSite]
    refine (census_enclose_le inherited gives site scope _).trans ?_
    simp only [siteCensus, Tree.forestPreorder, Tree.preorder, List.append_nil, List.map_cons,
      ← Multiset.cons_coe]
    exact Multiset.cons_le_cons _ (census_of_sites_le inherited gives _ nested)

/-- What several declarations contribute has the traits of the sites in them, at most
once each. -/
theorem census_of_sites_le (inherited : Inherited trait)
    (gives : ∀ (site : Site) scope, trait (site.draft scope).entity = given site) :
    ∀ (scope : Scope) (forest : List (Tree Site)),
      (ofSites scope forest).census trait ≤ siteCensus given forest
  | _, [] => by simp [ofSites, Contribution.census]
  | scope, first :: rest => by
    have head := census_of_site_le inherited gives scope first
    have tail := census_of_sites_le inherited gives scope rest
    rw [ofSites, Contribution.census, Contribution.append, census_append, census_append,
      add_add_add_comm]
    refine (add_le_add head tail).trans (le_of_eq ?_)
    simp only [siteCensus, Tree.forestPreorder, List.append_nil, List.map_append,
      Multiset.coe_add]

end

/-- The drafts of the declarations of a file have the traits of its sites, at most once each. What
is handed up at the top level is dropped. -/
theorem census_declared_le (inherited : Inherited trait)
    (gives : ∀ (site : Site) scope, trait (site.draft scope).entity = given site)
    (sites : List (Tree Site)) : census trait (declared sites) ≤ siteCensus given sites := by
  refine (census_merge_members_le inherited _).trans ?_
  exact (Multiset.le_add_right _ _).trans (census_of_sites_le inherited gives .topLevel sites)

end Sites

end Draft

namespace Tree

universe u v
variable {α : Type u} {β : Type v}

mutual

/-- The numbers of a tree are consecutive in preorder, and the next free one follows. That no number
is left out is what makes the next free one known. -/
theorem number_consecutive : ∀ (start : Nat) (tree : Tree α),
    (number start tree).1.preorder.map Prod.fst = List.range' start tree.preorder.length ∧
      (number start tree).2 = start + tree.preorder.length
  | start, node value children => by
    obtain ⟨numbers, next⟩ := number_forest_consecutive (start + 1) children
    constructor
    · simp only [number, preorder, List.map_cons, List.length_cons, List.range'_succ]
      exact congrArg (start :: ·) numbers
    · simp only [number, preorder, List.length_cons]
      omega

/-- The numbers of a forest are consecutive in preorder, and the next free one follows. -/
theorem number_forest_consecutive : ∀ (start : Nat) (forest : List (Tree α)),
    (forestPreorder (numberForest start forest).1).map Prod.fst =
        List.range' start (forestPreorder forest).length ∧
      (numberForest start forest).2 = start + (forestPreorder forest).length
  | start, [] => by simp [numberForest, forestPreorder]
  | start, first :: rest => by
    obtain ⟨headNumbers, headNext⟩ := number_consecutive start first
    obtain ⟨tailNumbers, tailNext⟩ := number_forest_consecutive (number start first).2 rest
    constructor
    · simp only [numberForest, forestPreorder, List.map_append, List.length_append, headNumbers,
        tailNumbers]
      rw [headNext, List.range'_append_1]
    · simp only [numberForest, forestPreorder, List.length_append]
      rw [tailNext, headNext, Nat.add_assoc]

end

mutual

/-- Pruning a tree leaves no more values. Whole subtrees may be cut off, and nothing is added. -/
theorem length_preorder_prune_le (accept : α → Option β) :
    ∀ (tree : Tree α) {kept : Tree β}, prune accept tree = some kept →
      kept.preorder.length ≤ tree.preorder.length
  | node value children, kept, pruned => by
    unfold prune at pruned
    obtain ⟨accepted, _, rfl⟩ := Option.map_eq_some_iff.mp pruned
    simp only [preorder, List.length_cons]
    exact Nat.succ_le_succ (length_forest_preorder_prune_forest_le accept children)

/-- Pruning a forest leaves no more values. -/
theorem length_forest_preorder_prune_forest_le (accept : α → Option β) :
    ∀ forest : List (Tree α),
      (forestPreorder (pruneForest accept forest)).length ≤ (forestPreorder forest).length
  | [] => Nat.le_refl _
  | first :: rest => by
    have tail := length_forest_preorder_prune_forest_le accept rest
    have head (kept : Tree β) : prune accept first = some kept →
        kept.preorder.length ≤ first.preorder.length := length_preorder_prune_le accept first
    unfold pruneForest
    split
    · next kept pruned =>
      simp only [forestPreorder, List.length_append]
      exact Nat.add_le_add (head kept pruned) tail
    · simp only [forestPreorder, List.length_append]
      omega

end

end Tree

namespace SourceFile

/-- The number of places that a file hands out: one for each named declaration and one for each
defining comment. Declarations without a name, and what is inside of them, need no place. -/
def placeCount (file : SourceFile) (config : Config) : Nat :=
  (Tree.numberForest 0 file.visited).2 + (file.definitions config).length

/-- The places that a file hands out, in order. They are distinct only as long as their number fits
into 32 bits. -/
def places (file : SourceFile) (fileIndex : UInt32) (config : Config) : List SourceOrder :=
  (List.range' 0 (file.placeCount config)).map fun sequence =>
    ⟨fileIndex, UInt32.ofNat sequence⟩

/-- A file hands out at most one place for each of its declarations and comments. It lets the bound
be stated by what a file holds, without running the traversal. -/
theorem place_count_le (file : SourceFile) (config : Config) :
    file.placeCount config ≤
      (Tree.forestPreorder file.declarations).length + file.comments.length := by
  have visited : (Tree.forestPreorder file.visited).length ≤
      (Tree.forestPreorder file.declarations).length :=
    Tree.length_forest_preorder_prune_forest_le _ file.declarations
  have defining : (file.definitions config).length ≤ file.comments.length := by
    refine (List.length_filterMap_le _ _).trans ?_
    rw [List.length_zipIdx, List.length_zip]
    exact Nat.min_le_left _ _
  unfold placeCount
  rw [(Tree.number_forest_consecutive 0 file.visited).2]
  omega

/-- The sites of a file stand at its first places. -/
theorem site_census_order_sites (file : SourceFile) (fileIndex : UInt32) (config : Config) :
    Draft.siteCensus Site.order (file.sites fileIndex config) =
      Multiset.ofList ((List.range' 0 (Tree.numberForest 0 file.visited).2).map fun sequence =>
        (⟨fileIndex, UInt32.ofNat sequence⟩ : SourceOrder)) := by
  obtain ⟨numbers, next⟩ := Tree.number_forest_consecutive 0 file.visited
  rw [next, Nat.zero_add, ← numbers]
  simp only [Draft.siteCensus, sites, Tree.forest_preorder_map_forest, List.map_map,
    Function.comp_def]

/-- The drafts of defining comments stand at the last places of the file. Their numbers go on where
those of the sites end. -/
theorem census_order_virtual_drafts (file : SourceFile) (fileIndex : UInt32) (config : Config) :
    Draft.census Entity.order (file.virtualDrafts fileIndex config) =
      Multiset.ofList ((List.range' (Tree.numberForest 0 file.visited).2
        (file.definitions config).length).map fun sequence =>
          (⟨fileIndex, UInt32.ofNat sequence⟩ : SourceOrder)) := by
  have placed (doc : DocComment) (name : String) (tag : Tag) (kind : EntityKind)
      (location : Location) (order : SourceOrder) :
      (Draft.ofDefinition doc name tag kind location order).entity.order = order :=
    congrArg (fun part => part.1.1)
      (Draft.fixed_part_of_definition doc name tag kind location order)
  rw [← List.zipIdx_map_snd _ (file.definitions config)]
  simp only [Draft.census, virtualDrafts, Tree.forest_preorder_eq_flat_map, List.flatMap_map,
    List.map_map, Tree.preorder, Tree.forestPreorder, Function.comp_def]
  rw [← List.map_eq_flatMap, List.map_map]
  simp only [Function.comp_def, placed]

/-- The places that a file hands out are those of its sites and those of its defining comments. -/
theorem site_census_add_census_virtual_drafts (file : SourceFile) (fileIndex : UInt32)
    (config : Config) :
    Draft.siteCensus Site.order (file.sites fileIndex config) +
        Draft.census Entity.order (file.virtualDrafts fileIndex config) =
      Multiset.ofList (file.places fileIndex config) := by
  have whole : List.range' 0 (file.placeCount config) =
      List.range' 0 (Tree.numberForest 0 file.visited).2 ++
        List.range' (Tree.numberForest 0 file.visited).2 (file.definitions config).length := by
    rw [placeCount, ← List.range'_append_1, Nat.zero_add]
  rw [site_census_order_sites, census_order_virtual_drafts, places, whole, List.map_append,
    Multiset.coe_add]

/-- The drafts of a file stand at places that the file hands out, at most one at each.

Proof: the drafts of declarations use places of sites, each once at most, and those of comments have
the places behind them. -/
theorem census_order_normalize_le (file : SourceFile) (fileIndex : UInt32) (config : Config) :
    Draft.census Entity.order (file.normalize fileIndex config).drafts ≤
      Multiset.ofList (file.places fileIndex config) := by
  have declared := Draft.census_declared_le Draft.order_inherited Site.order_draft
    (file.sites fileIndex config)
  rw [normalize, Draft.census_append, ← site_census_add_census_virtual_drafts]
  exact add_le_add declared (le_refl _)

/-- The places of a file are distinct if their numbers fit into 32 bits. Truncating to 32 bits is
injective on numbers below the bound. -/
theorem places_nodup {file : SourceFile} {config : Config}
    (counted : file.placeCount config < UInt32.size) (fileIndex : UInt32) :
    (file.places fileIndex config).Nodup := by
  refine List.Nodup.map_on ?_ List.nodup_range'
  intro first firstBound second secondBound same
  rw [List.mem_range'_1] at firstBound secondBound
  have numbers : UInt32.ofNat first = UInt32.ofNat second := congrArg SourceOrder.sequence same
  have equal := congrArg UInt32.toNat numbers
  rwa [UInt32.toNat_ofNat_of_lt' (by omega), UInt32.toNat_ofNat_of_lt' (by omega)] at equal

end SourceFile

namespace Build

/-- Neither counter of the source order runs over its 32 bits: not the number of a file among the
files, and not the number of a place in its file. A build in which one does counts as not completed,
since its entities can no longer be told apart by their places. The bounds are far beyond what a
machine can hold, and they are stated because the counters would wrap around. -/
structure Counted (files : List SourceFile) (config : Config) : Prop where
  fileNumbers : files.length < UInt32.size
  placeNumbers : ∀ file ∈ files, file.placeCount config < UInt32.size

/-- The order in which files are processed does not matter to the counters. -/
theorem Counted.ordered {files : List SourceFile} {config : Config}
    (counted : Counted files config) : Counted (ordered files config) config := by
  have same : (Build.ordered files config).Perm files := by
    unfold Build.ordered
    split
    · exact List.mergeSort_perm _ _
    · exact List.Perm.refl _
  exact ⟨same.length_eq ▸ counted.fileNumbers,
    fun file present => counted.placeNumbers file (same.mem_iff.mp present)⟩

/-- All places that the files of a build hand out, file by file. The number of a file is the first
part of each of its places. -/
def places (files : List SourceFile) (config : Config) : List SourceOrder :=
  files.zipIdx.flatMap fun (file, index) => file.places (UInt32.ofNat index) config

/-- The drafts of a build stand at places that its files hand out, at most one at each. -/
theorem census_order_normalized_le (files : List SourceFile) (config : Config) :
    Draft.census Entity.order ((normalized files config).map NormalizedFile.drafts).flatten ≤
      Multiset.ofList (places files config) := by
  have placed (indexed : List (SourceFile × Nat)) :
      Draft.census Entity.order ((indexed.map fun (file, index) =>
        file.normalize (UInt32.ofNat index) config).map NormalizedFile.drafts).flatten ≤
        Multiset.ofList (indexed.flatMap fun (file, index) =>
          file.places (UInt32.ofNat index) config) := by
    induction indexed with
    | nil => exact le_refl _
    | cons first rest inductionHypothesis =>
      simp only [List.map_cons, List.flatten_cons, List.flatMap_cons, Draft.census_append,
        ← Multiset.coe_add]
      exact add_le_add (first.1.census_order_normalize_le _ config) inductionHypothesis
  exact placed files.zipIdx

/-- The places of a build are distinct if no counter runs over. Places of one file differ in the
second part, and those of two files in the first. -/
theorem places_nodup {files : List SourceFile} {config : Config}
    (counted : Counted files config) : (places files config).Nodup := by
  refine List.nodup_flatMap.mpr ⟨?_, ?_⟩
  · rintro ⟨file, index⟩ present
    exact SourceFile.places_nodup (counted.placeNumbers file (List.fst_mem_of_mem_zipIdx present)) _
  · have indices : files.zipIdx.Pairwise fun left right => left.2 ≠ right.2 := by
      apply List.pairwise_map.mp
      rw [List.zipIdx_map_snd]
      exact List.nodup_range'
    refine List.Pairwise.imp_of_mem ?_ indices
    rintro ⟨left, leftIndex⟩ ⟨right, rightIndex⟩ leftPresent rightPresent differ
    intro place leftPlace rightPlace
    obtain ⟨_, _, rfl⟩ := List.mem_map.mp leftPlace
    obtain ⟨_, _, same⟩ := List.mem_map.mp rightPlace
    have files : UInt32.ofNat rightIndex = UInt32.ofNat leftIndex :=
      congrArg SourceOrder.file same
    have leftBound := List.snd_lt_of_mem_zipIdx leftPresent
    have rightBound := List.snd_lt_of_mem_zipIdx rightPresent
    have fewer := counted.fileNumbers
    have equal := congrArg UInt32.toNat files
    rw [UInt32.toNat_ofNat_of_lt' (by omega), UInt32.toNat_ofNat_of_lt' (by omega)] at equal
    exact differ equal.symm

/-- All drafts of a build stand at different places if no counter runs over. It is what every
statement about the order of entities starts from. -/
theorem census_order_nodup {files : List SourceFile} {config : Config}
    (counted : Counted files config) :
    (Draft.census Entity.order
      ((normalized files config).map NormalizedFile.drafts).flatten).Nodup :=
  Multiset.nodup_of_le (census_order_normalized_le files config)
    (Multiset.coe_nodup.mpr (places_nodup counted))

end Build

end DocGraph
