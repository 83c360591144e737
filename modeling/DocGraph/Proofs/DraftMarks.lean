import Mathlib.Data.List.Perm.Basic
import DocGraph.Proofs.Merging
import DocGraph.Proofs.Places

/-!
# The visibility marks of a draft

A draft is made of parts: a declaration with its comment, or a comment that defines something by
itself, or the parts of all drafts that were merged into it. Every part gives marks of its own, by
the access modifier in the code and by tags of its comment, and a tag with an unknown word gives
none.

No mark of a part is lost and none is added. The order of the marks may change where accessors are
paired, which does not matter to the strictest of them. The visibility of the draft's entity is left
open here: every draft is public until its marks are looked at.

That a draft is made of given parts is a relation with one rule for each way in which a draft comes
about. Merging has laws of its own for properties that hold of all drafts of a file, so nothing here
goes through the traversal; it is enough that each rule keeps the marks together.
-/

namespace DocGraph

namespace Visibility

/-- A level is the strictest of some marks when it is one of them, or public by default, and no mark
is more restrictive. If no part gives a mark, the level is public. -/
def IsStrictest (level : Visibility) (marks : List Visibility) : Prop :=
  (level = publicAccess ∨ level ∈ marks) ∧ ∀ mark ∈ marks, mark.rank ≤ level.rank

instance (level : Visibility) (marks : List Visibility) : Decidable (level.IsStrictest marks) :=
  inferInstanceAs (Decidable (_ ∧ _))

variable {level : Visibility} {marks other : List Visibility}

/-- Of two levels the stricter one is at least as restrictive as either of them. The stricter level
is one of the two, so both facts together determine it. -/
theorem rank_le_stricter (left right : Visibility) :
    left.rank ≤ (stricter left right).rank ∧ right.rank ≤ (stricter left right).rank := by
  unfold stricter
  split
  · next less => exact ⟨Nat.le_of_lt less, Nat.le_refl _⟩
  · next least => exact ⟨Nat.le_refl _, Nat.le_of_not_lt least⟩

/-- The level that is computed from some marks is the strictest of them.

Proof: the marks are taken in one after the other. What is reached so far is the start or one of the
marks, and it is at least as restrictive as the start and as every mark that was taken in. -/
theorem is_strictest_strictest (marks : List Visibility) :
    (strictest marks).IsStrictest marks := by
  have folded (marks : List Visibility) (start : Visibility) :
      (marks.foldl stricter start = start ∨ marks.foldl stricter start ∈ marks) ∧
        start.rank ≤ (marks.foldl stricter start).rank ∧
        ∀ mark ∈ marks, mark.rank ≤ (marks.foldl stricter start).rank := by
    induction marks generalizing start with
    | nil => simp
    | cons mark rest inductionHypothesis =>
      obtain ⟨among, above, others⟩ := inductionHypothesis (stricter start mark)
      obtain ⟨keeps, takes⟩ := rank_le_stricter start mark
      rw [List.foldl_cons, List.forall_mem_cons]
      refine ⟨?_, keeps.trans above, takes.trans above, others⟩
      obtain same | later := among
      · rw [same, stricter]
        split
        · exact .inr List.mem_cons_self
        · exact .inl rfl
      · exact .inr (List.mem_cons_of_mem mark later)
  exact ⟨(folded marks publicAccess).1, (folded marks publicAccess).2.2⟩

/-- The arrangement of the marks does not matter to the strictest one. Membership is all that the
definition asks for. -/
theorem IsStrictest.of_perm (strictest : level.IsStrictest marks) (same : marks.Perm other) :
    level.IsStrictest other :=
  ⟨strictest.1.imp_right same.mem_iff.mp, fun mark listed =>
    strictest.2 mark (same.mem_iff.mpr listed)⟩

end Visibility

/-- The visibility marks that a tag gives. The four cases are all tags that have to do with
visibility; a tag with an unknown word is not one of them. -/
def Tag.marks (tag : Tag) : List Visibility :=
  match tag.kind with
  | .privateTag => [.privateAccess]
  | .protectedTag => [.protectedAccess]
  | .publicTag => [.publicAccess]
  | .access => (tag.target?.bind Visibility.ofWord?).toList
  | _ => []

/-- The visibility marks that a comment gives. -/
def DocComment.marks (doc : DocComment) : List Visibility := doc.tags.flatMap Tag.marks

/-- The visibility marks of a declaration: its access modifier, and what its comment gives. The
modifier stands first, but the order does not matter in the end. -/
def Site.marks (site : Site) : List Visibility :=
  site.declaration.modifier.toList ++ (site.doc.map DocComment.marks).getD []

namespace Draft

/-- Where a draft comes from: a declaration, or a comment that defines something by itself. -/
inductive Part where
  | declared (site : Site)
  | defined (doc : DocComment)

/-- The visibility marks of a part. -/
def Part.marks : Part → List Visibility
  | declared site => site.marks
  | defined doc => doc.marks

/-- A draft is made of parts: it is the draft of one part, or an overload set or an accessor pair
that has the parts of all drafts merged into it. The parts of a merged draft are the parts of what
was merged, so a pair of overload sets has all their declarations as parts. A method that is
replaced when a member is handed up is merged into nothing, and its parts are not those of the other
one. -/
inductive MadeOf : Draft → List Part → Prop where
  | declared (site : Site) (scope : Scope) : MadeOf (site.draft scope) [.declared site]
  | defined (doc : DocComment) (name : String) (tag : Tag) (kind : EntityKind)
      (location : Location) (order : SourceOrder) :
      MadeOf (ofDefinition doc name tag kind location order) [.defined doc]
  | overloads {first second : Tree Draft} {rest : List (Tree Draft)}
      {parts : Tree Draft → List Part}
      (chained : (first :: second :: rest).IsChain fun left right => continues left right = true)
      (made : ∀ piece ∈ first :: second :: rest, MadeOf piece.value (parts piece)) :
      MadeOf (combineOverloads first (second :: rest)).value
        ((first :: second :: rest).flatMap parts)
  | accessors {first second : Tree Draft} {left right : List Part}
      (same : samePair first.value second.value = true) (one : MadeOf first.value left)
      (other : MadeOf second.value right) :
      MadeOf (combineAccessor first second).value (left ++ right)

/-! ## Marks of documented drafts -/

/-- A tag adds its marks to those of a draft. Most kinds of tags add none. -/
theorem visibility_apply_tag (draft : Draft) (tag : Tag) :
    (draft.applyTag tag).directives.visibility = draft.directives.visibility ++ tag.marks := by
  unfold applyTag Tag.marks
  cases tag.kind <;> simp only [modifyEntity, mark, markAll, List.append_nil]
  -- three kinds look at the arguments of the tag
  all_goals split <;> rfl

/-- A comment adds its marks to those of a draft. They are added in the order of the tags. -/
theorem visibility_document (draft : Draft) (doc : DocComment) :
    (draft.document doc).directives.visibility = draft.directives.visibility ++ doc.marks := by
  have applied (tags : List Tag) (start : Draft) :
      (tags.foldl applyTag start).directives.visibility =
        start.directives.visibility ++ tags.flatMap Tag.marks := by
    induction tags generalizing start with
    | nil => simp
    | cons tag rest inductionHypothesis =>
      rw [List.foldl_cons, inductionHypothesis, visibility_apply_tag, List.flatMap_cons,
        List.append_assoc]
  exact applied doc.tags _

/-- The draft of a declaration has the marks of the declaration. The draft starts with the mark of
the modifier, if there is one, and its comment comes afterwards. -/
theorem visibility_draft (site : Site) (scope : Scope) :
    (site.draft scope).directives.visibility = site.marks := by
  unfold Site.draft Site.marks documentWith
  cases site.doc with
  | none => simp
  | some doc => exact visibility_document _ doc

/-! ## Marks of merged drafts -/

/-- Taking in parts adds their marks, one part after the other. A part is absorbed with everything
it has collected itself. -/
theorem visibility_foldl_absorb_flags (parts : List Draft) (draft : Draft) :
    (parts.foldl absorbFlags draft).directives.visibility =
      draft.directives.visibility ++ parts.flatMap fun part => part.directives.visibility := by
  induction parts generalizing draft with
  | nil => simp
  | cons part rest inductionHypothesis =>
    rw [List.foldl_cons, inductionHypothesis, List.flatMap_cons, ← List.append_assoc]
    rfl

/-- In a run of neighbours of which each continues the one before, what follows the first one are
signatures and at most one implementation after them. So filtering the signatures and looking for
the first implementation, as merging does, loses none of the parts.

Proof: a declaration only continues signatures, so nothing can follow an implementation. Up to it
all parts are signatures. -/
theorem signatures_then_implementation {first : Tree Draft} {others : List (Tree Draft)}
    (chained : (first :: others).IsChain fun left right => continues left right = true) :
    (others.filter fun part => part.value.isSignature).map Tree.value ++
        ((others.find? fun part => !part.value.isSignature).map Tree.value).toList =
      others.map Tree.value := by
  induction others generalizing first with
  | nil => rfl
  | cons second rest inductionHypothesis =>
    obtain ⟨_, further⟩ := List.isChain_cons_cons.mp chained
    cases signature : second.value.isSignature with
    | true =>
      have tail := inductionHypothesis further
      simpa [signature] using tail
    | false =>
      cases rest with
      | nil => simp [signature]
      | cons third later =>
        have continued := (List.isChain_cons_cons.mp further).1
        simp [continues, signature] at continued

/-- An overload set has the marks of all of its parts. The premise on the run is what merging has
checked before; without it a second implementation would be dropped with its marks. -/
theorem visibility_combine_overloads {first : Tree Draft} {others : List (Tree Draft)}
    (chained : (first :: others).IsChain fun left right => continues left right = true) :
    (combineOverloads first others).value.directives.visibility =
      (first :: others).flatMap fun part => part.value.directives.visibility := by
  show (List.foldl absorbFlags _
    ((others.filter fun part => part.value.isSignature).map Tree.value ++
      ((others.find? fun part => !part.value.isSignature).map Tree.value).toList)
    ).directives.visibility = _
  rw [visibility_foldl_absorb_flags, signatures_then_implementation chained, List.flatMap_map]
  rfl

/-- An accessor pair has the marks of both halves. The getter stands first in the pair even where
the setter was written first, which is why the two lists are equal only up to their order. -/
theorem visibility_combine_accessor_perm (first second : Tree Draft) :
    (combineAccessor first second).value.directives.visibility.Perm
      (first.value.directives.visibility ++ second.value.directives.visibility) := by
  unfold combineAccessor
  dsimp only
  split
  · exact .refl _
  · exact List.perm_append_comm

/-- A draft has the marks of the parts it is made of. Proof: induction on how the draft came about.
The two simple drafts have the marks of their part, and the two merged ones have those of what was
merged into them. -/
theorem MadeOf.visibility_perm {draft : Draft} {parts : List Part} (made : draft.MadeOf parts) :
    draft.directives.visibility.Perm (parts.flatMap Part.marks) := by
  induction made with
  | declared site scope =>
    rw [visibility_draft, List.flatMap_singleton]
    exact .refl _
  | defined doc name tag kind location order =>
    rw [List.flatMap_singleton]
    exact .of_eq (visibility_document _ doc)
  | @overloads first second rest parts chained _ inductionHypothesis =>
    rw [visibility_combine_overloads chained, List.flatMap_assoc]
    exact List.Perm.flatMap_left _ inductionHypothesis
  | @accessors first second left right _ _ _ one other =>
    rw [List.flatMap_append]
    exact (visibility_combine_accessor_perm first second).trans (one.append other)

/-- A draft is made of given parts only. It is meant for the parts of a file, and says that merging
makes up no part. -/
def MadeFrom (given : List Part) (draft : Draft) : Prop :=
  ∃ parts, draft.MadeOf parts ∧ parts ⊆ given

/-- What is merged from drafts that are made of given parts is made of given parts. The parts of the
whole are chosen for each of its pieces and put together. -/
theorem made_from_merges (given : List Part) : Merges (MadeFrom given) where
  overloads {first second rest} chained whole := by
    choose! parts made inside using whole
    refine ⟨_, .overloads chained made, fun part listed => ?_⟩
    obtain ⟨piece, held, own⟩ := List.mem_flatMap.mp listed
    exact inside piece held own
  accessors same one other := by
    obtain ⟨left, madeLeft, inLeft⟩ := one
    obtain ⟨right, madeRight, inRight⟩ := other
    exact ⟨_, .accessors same madeLeft madeRight, List.append_subset.mpr ⟨inLeft, inRight⟩⟩

end Draft

/-- The parts that a file gives drafts for: its sites, and its defining comments. -/
def SourceFile.parts (file : SourceFile) (fileIndex : UInt32) (config : Config) :
    List Draft.Part :=
  (Tree.forestPreorder (file.sites fileIndex config)).map .declared ++
    (file.definitions config).map fun definition => .defined definition.2.1

namespace Draft

/-- All drafts of a file are made of parts of the file. Merging is treated by its laws, and what is
left to show is that a site and a defining comment are made of themselves. -/
theorem made_from_normalize (file : SourceFile) (fileIndex : UInt32) (config : Config) :
    ∀ tree ∈ (file.normalize fileIndex config).drafts,
      Everywhere (MadeFrom (file.parts fileIndex config)) tree := by
  refine everywhere_normalize (made_from_merges _) (fun site listed scope => ?_)
    fun definition listed location order => ?_
  · have own : Part.declared site ∈ file.parts fileIndex config :=
      List.mem_append_left _ (List.mem_map_of_mem listed)
    exact ⟨_, .declared site scope, fun part same => List.mem_singleton.mp same ▸ own⟩
  · have own : Part.defined definition.2.1 ∈ file.parts fileIndex config :=
      List.mem_append_right _ (List.mem_map_of_mem listed)
    exact ⟨_, .defined _ _ _ _ location order, fun part same => List.mem_singleton.mp same ▸ own⟩

/-! ## Drafts before their marks are looked at -/

/-- No tag changes the visibility of the entity. Marks are collected in the directives of the draft,
and the entity is settled at the end of the build. -/
theorem entity_visibility_apply_tag (draft : Draft) (tag : Tag) :
    (draft.applyTag tag).entity.visibility = draft.entity.visibility := by
  unfold applyTag
  split <;> try rfl
  all_goals split <;> try rfl
  all_goals
    unfold addSupertype modifyEntity
    dsimp only
    split <;> rfl

/-- No comment changes the visibility of the entity. -/
theorem entity_visibility_document (draft : Draft) (doc : DocComment) :
    (draft.document doc).entity.visibility = draft.entity.visibility :=
  foldl_apply_tag_eq (fun draft => draft.entity.visibility) entity_visibility_apply_tag doc.tags _

/-- The draft of a declaration is public. -/
theorem entity_visibility_draft (site : Site) (scope : Scope) :
    (site.draft scope).entity.visibility = .publicAccess := by
  have completed (entity : Entity) :
      (site.completeEntity entity).visibility = entity.visibility := by
    unfold Site.completeEntity
    split
    · rfl
    · rfl
    · split <;> rfl
  refine (completed _).trans ?_
  cases site.doc with
  | none => rfl
  | some doc => exact entity_visibility_document _ doc

/-- Merging leaves entities public. All three ways of merging take the visibility from one of the
entities. -/
theorem public_kept_by_merging :
    KeptByMerging fun entity => entity.visibility = .publicAccess where
  overloaded plain := plain
  flagged plain _ := plain
  paired plain _ := plain

/-- All drafts of a file are public. It says where settling starts: a live entity is not private
unless a mark makes it so. -/
theorem public_normalize (file : SourceFile) (fileIndex : UInt32) (config : Config) :
    ∀ tree ∈ (file.normalize fileIndex config).drafts,
      Throughout (fun entity => entity.visibility = .publicAccess) tree :=
  throughout_normalize public_kept_by_merging entity_visibility_draft
    (fun doc _ _ _ _ _ => entity_visibility_document _ doc) file fileIndex config

end Draft

end DocGraph
