import DocGraph.Source.Basic

/-!
# Which comment documents which declaration

A declaration is documented by the last documentation comment that ends before it, provided the
comment is near enough, no other declaration begins in between, and the comment does not lie in a
body that the declaration is outside of. Comments are named by their index in the file.

The comment is looked for first and judged afterwards. A comment that is too far away, or that
belongs to something else, is not passed over for an earlier one: the declaration has none, then.
Several declarations that begin at one position share their comment.
-/

namespace DocGraph

/-- What decides the attachment of the comments of one file. The declarations are part of it because
each of them can stand in the way of a comment. -/
structure Attachment where
  /-- The comments that can document a declaration, in file order. -/
  docs : List (Nat × Span)
  /-- The ranges of all declarations, nested ones included. -/
  declared : List Span
  /-- How many lines may lie between a comment and its declaration. -/
  maxGap : UInt32

namespace Attachment

/-- The attachment data of a file. Comments whose index is in `skip` document no declaration. The
positions of all comments are kept as they are in the file, so that an index means the same
everywhere. -/
def ofFile (file : SourceFile) (maxGap : UInt32) (skip : List Nat) : Attachment :=
  { docs := (file.comments.zipIdx.filter fun (comment, index) =>
      comment.isDoc && !skip.contains index).map fun (comment, index) => (index, comment.span)
    declared := (Tree.forestPreorder file.declarations).map Declaration.span
    maxGap := maxGap }

/-- The later of two comments by their ends; the second one when they end together. In a text no two
comments end together, but nothing relies on this. -/
def laterEnding (left right : Nat × Span) : Nat × Span :=
  if right.2.stop.before left.2.stop then left else right

/-- The last comment that ends no later than a position. One pass keeps the best comment so far, in
whatever order the comments are given. -/
def nearest? (attachment : Attachment) (start : Position) : Option (Nat × Span) :=
  (attachment.docs.filter fun doc => doc.2.stop.upTo start).foldl
    (fun best doc => some (match best with
      | none => doc
      | some held => laterEnding held doc)) none

/-- The lines strictly between a comment and a declaration. A comment that ends on the line of the
declaration, or on the one before, leaves no line between. -/
def gap (comment declaration : Span) : Nat :=
  declaration.startLine.toNat - comment.endLine.toNat - 1

/-- Whether a comment reaches a declaration. The three tests are on the distance, on declarations
that begin in between, and on bodies that hold the comment and not the declaration. -/
def reaches (attachment : Attachment) (comment declaration : Span) : Bool :=
  gap comment declaration ≤ attachment.maxGap.toNat &&
    !(attachment.declared.any fun other =>
      comment.stop.upTo other.start && other.start.before declaration.start) &&
    !(attachment.declared.any fun other =>
      other.contains comment && !other.contains declaration)

/-- The index of the comment that documents a declaration with a given range. Only the nearest
comment is asked. -/
def commentFor? (attachment : Attachment) (declaration : Span) : Option Nat :=
  match attachment.nearest? declaration.start with
  | some (index, comment) => if attachment.reaches comment declaration then some index else none
  | none => none

end Attachment

end DocGraph
