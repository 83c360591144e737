import Mathlib.Data.Prod.Lex
import Mathlib.Order.Interval.Finset.Nat
import DocGraph.Attachment

/-!
# Which comment documents which declaration

The comment of a declaration is found by a fold over the comments of its file. Here it is described
by what distinguishes it: among the comments that may document something and end in time it is the
last one by its end and, at the same end, by its place in the file. It is refused when too many
lines lie in between, when a declaration of any depth begins in between, or when it lies in a
declaration that the documented one is not part of.

Ranges are arbitrary: they may overlap, be empty or stand in no order, and without columns many of
them begin at one position. Two declarations can have a comment in common only in that last case,
since of two that begin apart the first one stands between the comment and the second.

Positions and ranks are mapped to lexicographic pairs of numbers, so that the library's linear
orders can be used instead of the tests of the code. The fold then is a maximum by rank, and the
three reasons for refusing a comment are conditions on the one that was found.
-/

namespace DocGraph

namespace Position

variable {left right : Position}

/-- Line and column as numbers, the line compared first. The numbers are bounded, and so they are
compared as natural numbers. -/
def key (position : Position) : ℕ ×ₗ ℕ := toLex (position.line.toNat, position.column.toNat)

/-- Positions are ordered by line and then by column. -/
theorem before_iff : left.before right = true ↔ left.key < right.key := by
  simp only [before, key, Prod.Lex.toLex_lt_toLex, Bool.or_eq_true, Bool.and_eq_true,
    decide_eq_true_eq, beq_iff_eq, UInt32.lt_iff_toNat_lt, UInt32.toNat_inj]

/-- A position comes no later than another one when it does not come after it. -/
theorem up_to_iff : left.upTo right = true ↔ left.key ≤ right.key := by
  rw [upTo, Bool.not_eq_true', ← Bool.not_eq_true, before_iff, not_lt]

/-- Positions with the same line and column are the same. -/
theorem eq_of_key (same : left.key = right.key) : left = right := by
  obtain ⟨line, column⟩ := left
  obtain ⟨otherLine, otherColumn⟩ := right
  obtain ⟨lines, columns⟩ := Prod.mk.inj (toLex.injective same)
  exact congrArg₂ Position.mk (UInt32.toNat_inj.mp lines) (UInt32.toNat_inj.mp columns)

end Position

/-- A range lies entirely inside another one. Ranges enclose themselves and others with the same
ends. -/
def Span.Encloses (outer within : Span) : Prop :=
  outer.start.key ≤ within.start.key ∧ within.stop.key ≤ outer.stop.key

/-- The test for containment decides the relation. -/
theorem Span.contains_iff {outer within : Span} :
    outer.contains within = true ↔ outer.Encloses within := by
  rw [contains, Bool.and_eq_true, Position.up_to_iff, Position.up_to_iff, Encloses]

namespace Attachment

/-- A comment of a file that may document what begins at a position: it is documentation, it is not
skipped, and it ends there or before. It is asked before anything is compared, so a comment that is
skipped cannot stand in the way of another one. -/
structure Precedes (file : SourceFile) (skip : List Nat) (start : Position) (index : Nat)
    (comment : Span) : Prop where
  documenting : ∃ text, file.comments[index]? = some ⟨text, comment⟩ ∧
    SourceComment.isDocText text = true
  kept : index ∉ skip
  inTime : comment.stop.key ≤ start.key

/-- Comments are ranked by their ends, and at the same end by their index. Two comments have
different ranks, because their indices differ. -/
def rank (index : Nat) (comment : Span) : (ℕ ×ₗ ℕ) ×ₗ ℕ := toLex (comment.stop.key, index)

/-- A comment of a file documents a declaration with a given range. The last three conditions are
asked of the highest ranked candidate only: when it is refused, none of the others is taken
instead. -/
structure Documents (file : SourceFile) (maxGap : UInt32) (skip : List Nat) (declaration : Span)
    (index : Nat) (comment : Span) : Prop where
  precedes : Precedes file skip declaration.start index comment
  /-- No other candidate is ranked higher. -/
  latest : ∀ other range, Precedes file skip declaration.start other range →
    rank other range ≤ rank index comment
  /-- The lines strictly between the comment and the declaration are not too many. -/
  near : (Finset.Ioo comment.endLine.toNat declaration.startLine.toNat).card ≤ maxGap.toNat
  /-- Between the comment and the declaration no declaration begins. -/
  unbroken : ∀ other ∈ Tree.forestPreorder file.declarations,
    ¬(comment.stop.key ≤ other.span.start.key ∧ other.span.start.key < declaration.start.key)
  /-- What the comment is part of, the declaration is part of. -/
  together : ∀ other ∈ Tree.forestPreorder file.declarations,
    other.span.Encloses comment → other.span.Encloses declaration

section Latest

variable {attachment : Attachment} {held doc best : Nat × Span} {docs : List (Nat × Span)}
  {start : Position}

/-- Of two comments in file order the one ranked higher is taken. A tie goes to the comment that
comes later in the file. -/
theorem later_ending_cases (ordered : held.1 < doc.1) :
    laterEnding held doc = held ∧ rank doc.1 doc.2 ≤ rank held.1 held.2 ∨
      laterEnding held doc = doc ∧ rank held.1 held.2 ≤ rank doc.1 doc.2 := by
  unfold laterEnding
  split
  · next before =>
    have earlier : rank doc.1 doc.2 < rank held.1 held.2 :=
      Prod.Lex.toLex_lt_toLex.mpr (.inl (Position.before_iff.mp before))
    exact .inl ⟨rfl, earlier.le⟩
  · next notBefore =>
    rw [Position.before_iff, not_lt] at notBefore
    exact .inr ⟨rfl, Prod.Lex.toLex_le_toLex.mpr
      (notBefore.lt_or_eq.imp_right fun same => ⟨same, ordered.le⟩)⟩

/-- Of several candidates the nearest is found by comparing each with the best before it. -/
theorem nearest?_of_filter
    (candidates : attachment.docs.filter (fun doc => doc.2.stop.upTo start) = held :: docs) :
    attachment.nearest? start = some (docs.foldl laterEnding held) := by
  unfold nearest?
  rw [candidates, List.foldl_cons]
  clear candidates
  induction docs generalizing held with
  | nil => rfl
  | cons doc rest inductionHypothesis => exact inductionHypothesis

/-- A fold over comments in file order ends with the one ranked highest.

Proof: induction on the comments behind the first one. The better of the first two stands for both,
and it stands before the rest in the file. -/
theorem foldl_later_ending
    (ordered : (held :: docs).Pairwise fun left right => left.1 < right.1) :
    docs.foldl laterEnding held ∈ held :: docs ∧
      ∀ other ∈ held :: docs,
        rank other.1 other.2 ≤
          rank (docs.foldl laterEnding held).1 (docs.foldl laterEnding held).2 := by
  induction docs generalizing held with
  | nil =>
    refine ⟨List.mem_singleton_self held, fun other same => ?_⟩
    rw [List.mem_singleton.mp same]
    exact le_refl _
  | cons doc rest inductionHypothesis =>
    obtain ⟨before, later⟩ := List.pairwise_cons.mp ordered
    have first : held.1 < doc.1 := before doc List.mem_cons_self
    rw [List.foldl_cons]
    -- Whichever of the two is taken, it comes before the rest, and the other is ranked lower.
    rcases later_ending_cases first with ⟨taken, lower⟩ | ⟨taken, lower⟩
    · have remaining : (held :: rest).Pairwise fun left right => left.1 < right.1 :=
        ordered.sublist (List.cons_sublist_cons.mpr (List.sublist_cons_self doc rest))
      obtain ⟨present, highest⟩ := inductionHypothesis remaining
      rw [taken]
      refine ⟨List.cons_subset_cons held (List.subset_cons_self doc rest) present, ?_⟩
      intro other listed
      rcases List.mem_cons.mp listed with rfl | listed
      · exact highest _ List.mem_cons_self
      · rcases List.mem_cons.mp listed with rfl | listed
        · exact lower.trans (highest held List.mem_cons_self)
        · exact highest other (List.mem_cons_of_mem held listed)
    · obtain ⟨present, highest⟩ := inductionHypothesis later
      rw [taken]
      refine ⟨List.mem_cons_of_mem held present, ?_⟩
      intro other listed
      rcases List.mem_cons.mp listed with rfl | listed
      · exact lower.trans (highest doc List.mem_cons_self)
      · exact highest other listed

end Latest

section Files

variable {file : SourceFile} {maxGap : UInt32} {skip : List Nat} {start : Position}
  {declaration comment other : Span} {index second : Nat}

/-- The comments of an attachment that end in time are those that may document. It translates the
three filters into the conditions on a candidate. -/
theorem mem_docs_up_to_iff :
    (index, comment) ∈ (ofFile file maxGap skip).docs.filter
      (fun doc => doc.2.stop.upTo start) ↔ Precedes file skip start index comment := by
  simp only [ofFile, List.mem_filter, List.mem_map, Prod.exists, Position.up_to_iff,
    Bool.and_eq_true, Bool.not_eq_true', List.contains_eq_mem, decide_eq_false_iff_not,
    List.mem_zipIdx_iff_getElem?, Prod.mk.injEq]
  constructor
  · rintro ⟨⟨⟨text, span⟩, place, ⟨listed, isDoc, kept⟩, rfl, rfl⟩, inTime⟩
    exact ⟨⟨text, listed, isDoc⟩, kept, inTime⟩
  · rintro ⟨⟨text, listed, isDoc⟩, kept, inTime⟩
    exact ⟨⟨⟨text, comment⟩, index, ⟨listed, isDoc, kept⟩, rfl, rfl⟩, inTime⟩

/-- The comments of an attachment stand in file order. -/
theorem pairwise_docs (file : SourceFile) (maxGap : UInt32) (skip : List Nat) :
    (ofFile file maxGap skip).docs.Pairwise fun left right => left.1 < right.1 := by
  have places : (file.comments.zipIdx.map Prod.snd).Pairwise (· < ·) := by
    rw [List.zipIdx_map_snd]
    exact List.pairwise_lt_range'
  rw [List.pairwise_map] at places
  exact List.pairwise_map.mpr (places.filter _)

/-- Candidates with the same index are the same comment. -/
theorem Precedes.span_eq (one : Precedes file skip start index comment)
    (two : Precedes file skip start index other) : comment = other := by
  obtain ⟨text, listed, _⟩ := one.documenting
  obtain ⟨again, same, _⟩ := two.documenting
  rw [listed] at same
  cases same
  rfl

/-- The nearest comment is the candidate that is ranked highest. From right to left it is used that
no other candidate has the same rank. -/
theorem nearest?_eq_some_iff :
    (ofFile file maxGap skip).nearest? start = some (index, comment) ↔
      Precedes file skip start index comment ∧
        ∀ other range, Precedes file skip start other range →
          rank other range ≤ rank index comment := by
  have candidates (doc : Nat × Span) :
      doc ∈ (ofFile file maxGap skip).docs.filter (fun doc => doc.2.stop.upTo start) ↔
        Precedes file skip start doc.1 doc.2 := mem_docs_up_to_iff
  have ordered := (pairwise_docs file maxGap skip).filter fun doc => doc.2.stop.upTo start
  cases listed : (ofFile file maxGap skip).docs.filter fun doc => doc.2.stop.upTo start with
  | nil =>
    rw [listed] at candidates
    constructor
    · intro found
      simp [nearest?, listed] at found
    · rintro ⟨precedes, _⟩
      exact absurd ((candidates (index, comment)).mpr precedes) List.not_mem_nil
  | cons held rest =>
    rw [listed] at candidates ordered
    rw [nearest?_of_filter listed]
    obtain ⟨present, highest⟩ := foldl_later_ending ordered
    generalize rest.foldl laterEnding held = best at present highest ⊢
    obtain ⟨place, range⟩ := best
    have atHand : Precedes file skip start place range := (candidates (place, range)).mp present
    constructor
    · rintro ⟨⟩
      exact ⟨atHand, fun other range precedes =>
        highest (other, range) ((candidates (other, range)).mpr precedes)⟩
    · rintro ⟨precedes, latest⟩
      have equal : rank place range = rank index comment :=
        le_antisymm (latest place range atHand)
          (highest (index, comment) ((candidates (index, comment)).mpr precedes))
      obtain ⟨_, rfl⟩ := Prod.mk.inj (toLex.injective equal)
      rw [atHand.span_eq precedes]

/-- A comment reaches a declaration when nothing is in the way. The number of lines in between is a
difference that is cut off at zero, like the number of elements of an empty interval. -/
theorem reaches_iff :
    (ofFile file maxGap skip).reaches comment declaration = true ↔
      (Finset.Ioo comment.endLine.toNat declaration.startLine.toNat).card ≤ maxGap.toNat ∧
        (∀ other ∈ Tree.forestPreorder file.declarations,
          ¬(comment.stop.key ≤ other.span.start.key ∧
            other.span.start.key < declaration.start.key)) ∧
        ∀ other ∈ Tree.forestPreorder file.declarations,
          other.span.Encloses comment → other.span.Encloses declaration := by
  rw [reaches, Bool.and_eq_true, Bool.and_eq_true, decide_eq_true_iff, gap, Nat.card_Ioo, and_assoc]
  simp only [ofFile, List.any_map, Bool.and_eq_true, Bool.not_eq_true', List.any_eq_false,
    Function.comp_apply, ← Position.up_to_iff, ← Position.before_iff, ← Span.contains_iff, not_and,
    Bool.not_eq_false]

/-- A declaration is documented by the comment that documents it, and by no other. -/
theorem comment_for?_eq_some_iff :
    (ofFile file maxGap skip).commentFor? declaration = some index ↔
      ∃ comment, Documents file maxGap skip declaration index comment := by
  unfold commentFor?
  constructor
  · intro attached
    split at attached
    · next place comment nearest =>
      split at attached
      · next reached =>
        cases attached
        obtain ⟨precedes, latest⟩ := nearest?_eq_some_iff.mp nearest
        obtain ⟨near, unbroken, together⟩ := reaches_iff.mp reached
        exact ⟨comment, precedes, latest, near, unbroken, together⟩
      · cases attached
    · cases attached
  · rintro ⟨comment, precedes, latest, near, unbroken, together⟩
    rw [nearest?_eq_some_iff.mpr ⟨precedes, latest⟩]
    exact if_pos (reaches_iff.mpr ⟨near, unbroken, together⟩)

/-- Of two declarations that have a comment in common, each begins no later than the other if the
other belongs to the file. If it began later, the first declaration would begin between the comment
and it, and the comment would be refused. -/
theorem Documents.start_le {declared : Declaration}
    (documents : Documents file maxGap skip declaration index comment)
    (listed : declared ∈ Tree.forestPreorder file.declarations)
    (again : Documents file maxGap skip declared.span index other) :
    declaration.start.key ≤ declared.span.start.key := by
  obtain ⟨text, found, _⟩ := documents.precedes.documenting
  obtain ⟨same, foundAgain, _⟩ := again.precedes.documenting
  rw [found] at foundAgain
  cases foundAgain
  exact not_lt.mp fun before => documents.unbroken declared listed ⟨again.precedes.inTime, before⟩

end Files

/-- **Attachment is exact and not shared.** A comment is found for a declaration exactly when it
documents the declaration, and two declarations of a file that have a comment in common begin at the
same position.

Proof: the nearest comment is the candidate ranked highest, and it is found for the declaration
exactly if it reaches it, which is what documenting says. For two declarations of the file that have
a comment in common, neither begins before the other, since it would stand between the comment and
the other one. -/
theorem comment_for?_exact (file : SourceFile) (maxGap : UInt32) (skip : List Nat) :
    (∀ (declaration : Declaration) (index : Nat),
      (ofFile file maxGap skip).commentFor? declaration.span = some index ↔
        ∃ comment, Documents file maxGap skip declaration.span index comment) ∧
    ∀ first ∈ Tree.forestPreorder file.declarations,
      ∀ second ∈ Tree.forestPreorder file.declarations, ∀ index,
        (ofFile file maxGap skip).commentFor? first.span = some index →
        (ofFile file maxGap skip).commentFor? second.span = some index →
          first.span.start = second.span.start := by
  refine ⟨fun declaration index => comment_for?_eq_some_iff, ?_⟩
  intro first listed second alsoListed index found foundAgain
  obtain ⟨comment, documents⟩ := comment_for?_eq_some_iff.mp found
  obtain ⟨other, documentsAgain⟩ := comment_for?_eq_some_iff.mp foundAgain
  exact Position.eq_of_key <| le_antisymm
    (documents.start_le alsoListed documentsAgain) (documentsAgain.start_le listed documents)

/-- A file with two declarations on one line, the second of them around a third. The comments
stand in reverse order, and one of them lies inside the second declaration. -/
def crowded : SourceFile where
  path := "a.js"
  comments := [⟨"/** Inside. */", ⟨4, 4, 0, 0⟩⟩, ⟨"/** Before. */", ⟨1, 1, 0, 0⟩⟩,
    ⟨"/* Plain. */", ⟨2, 2, 0, 0⟩⟩]
  declarations := [
    .node { kind := .variableDecl, name := some "a", span := ⟨3, 3, 0, 0⟩ } [],
    .node { kind := .function, name := some "f", span := ⟨3, 6, 0, 0⟩ }
      [.node { kind := .function, name := some "g", span := ⟨5, 5, 0, 0⟩ } []],
    .node { kind := .function, name := some "h", span := ⟨6, 7, 0, 0⟩ } []]

/-- The comment in front is found for both declarations of the line, which begin together. So a
comment may indeed be found for two declarations, and the statement excludes no more than it has
to. -/
theorem crowded_comments :
    ∃ first ∈ Tree.forestPreorder crowded.declarations,
      ∃ second ∈ Tree.forestPreorder crowded.declarations,
        (ofFile crowded 1 []).commentFor? first.span = some 1 ∧
          (ofFile crowded 1 []).commentFor? second.span = some 1 ∧
          first.span ≠ second.span ∧ first.span.start = second.span.start := by
  have shared := (comment_for?_exact crowded 1 []).2
    { kind := .variableDecl, name := some "a", span := ⟨3, 3, 0, 0⟩ } (.head _)
    { kind := .function, name := some "f", span := ⟨3, 6, 0, 0⟩ } (.tail _ (.head _)) 1
    (by decide) (by decide)
  exact ⟨_, .head _, _, .tail _ (.head _), by decide, by decide, by decide, shared⟩

end Attachment

end DocGraph
