import Mathlib
import DocGraph.Registry.Basic

/-!
# Paths below other paths

A path lies within another one when its segments start with those of the other, and below it when it
is longer besides. Both relations are tests of the library; here they are read as prefixes of
segment lists, and what follows from that is collected: transitivity, what a child adds, and how the
containers of a path are nested in each other.

The root contains every path, but no path has it as its parent.

The tests are recursive, and prefixes have a theory of their own in the library. Every fact here is
proved by passing to prefixes and back.
-/

namespace DocGraph

namespace NamePath

variable {path other above parent : NamePath}

/-- The path with the given names, all of them static. -/
def ofNames (names : List String) : NamePath := ⟨names.map fun name => ⟨.static, name⟩⟩

/-- A path lies below another one when it properly extends its segments. All facts about the
relation start with it. -/
theorem is_below_iff :
    path.isBelow above = true ↔
      above.segments.length < path.segments.length ∧ above.segments <+: path.segments := by
  rw [isBelow, Bool.and_eq_true, decide_eq_true_eq, List.isPrefixOf_iff_prefix]

/-- What lies below a path lies below everything that the path lies below. A path thus lies below
all of its containers. -/
theorem is_below_trans (below : path.isBelow other = true) (further : other.isBelow above = true) :
    path.isBelow above = true := by
  rw [is_below_iff] at below further ⊢
  exact ⟨further.1.trans below.1, further.2.trans below.2⟩

/-- Paths with the same segments are equal. -/
theorem eq_of_segments (same : path.segments = other.segments) : path = other := by
  cases path
  cases other
  cases same
  rfl

/-- No path lies below itself. -/
@[simp]
theorem is_below_self (path : NamePath) : path.isBelow path = false := by
  rw [← Bool.not_eq_true, is_below_iff]
  exact fun below => Nat.lt_irrefl _ below.1

/-- A path has a parent exactly when it adds one segment to a path other than the root. Paths of one
segment have none, since the root is no parent. -/
theorem parent?_eq_some_iff :
    path.parent? = some parent ↔
      parent ≠ .root ∧ ∃ last, path.segments = parent.segments ++ [last] := by
  unfold parent?
  constructor
  · intro above
    split at above
    · cases above
    · next long =>
      cases above
      have filled : path.segments ≠ [] := by
        intro empty
        simp [empty] at long
      refine ⟨?_, path.segments.getLast filled, (List.dropLast_append_getLast filled).symm⟩
      intro top
      have short := congrArg (fun found : NamePath => found.segments.length) top
      simp only [List.length_dropLast, root, List.length_nil] at short
      omega
  · rintro ⟨inside, last, grows⟩
    have filled : parent.segments ≠ [] := fun empty => inside (eq_of_segments empty)
    have positive := List.length_pos_iff.mpr filled
    have long : ¬path.segments.length ≤ 1 := by
      rw [grows, List.length_append, List.length_singleton]
      omega
    rw [if_neg long, grows, List.dropLast_concat]

/-- A path lies below its parent. -/
theorem is_below_parent (child : path.parent? = some parent) : path.isBelow parent = true := by
  obtain ⟨_, last, grows⟩ := parent?_eq_some_iff.mp child
  rw [is_below_iff, grows]
  exact ⟨by simp, List.prefix_append _ _⟩

/-- What a path with a parent lies below are the parent and what the parent lies below. It is the
step of an induction from a path to its parent. -/
theorem is_below_iff_of_parent (child : path.parent? = some parent) :
    path.isBelow above = true ↔ above = parent ∨ parent.isBelow above = true := by
  obtain ⟨_, last, grows⟩ := parent?_eq_some_iff.mp child
  rw [is_below_iff, is_below_iff, grows, List.prefix_concat_iff, List.length_append,
    List.length_singleton]
  constructor
  · rintro ⟨shorter, same | start⟩
    · rw [same, List.length_append, List.length_singleton] at shorter
      exact absurd shorter (Nat.lt_irrefl _)
    · rcases Nat.lt_or_eq_of_le start.length_le with less | equal
      · exact .inr ⟨less, start⟩
      · exact .inl (eq_of_segments (start.eq_of_length equal))
  · rintro (rfl | ⟨shorter, start⟩)
    · exact ⟨Nat.lt_succ_self _, .inr (List.prefix_refl _)⟩
    · exact ⟨Nat.lt_succ_of_lt shorter, .inr start⟩

end NamePath

namespace Registry

open NamePath

variable {path other above parent : NamePath}

/-- A path lies within another one when it extends its segments. It is the same as lying below,
without the condition on the length. -/
theorem is_within_iff : isWithin above path = true ↔ above.segments <+: path.segments := by
  rw [isWithin, Bool.or_eq_true, decide_eq_true_eq, is_below_iff]
  constructor
  · rintro (rfl | ⟨_, start⟩)
    · exact List.prefix_refl _
    · exact start
  · intro start
    rcases Nat.lt_or_eq_of_le start.length_le with less | equal
    · exact .inr ⟨less, start⟩
    · exact .inl (eq_of_segments (start.eq_of_length equal).symm)

/-- A path lies within itself. -/
@[simp]
theorem is_within_self (path : NamePath) : isWithin path path = true :=
  is_within_iff.mpr (List.prefix_refl _)

/-- What lies below a path lies within everything that the path lies within. Superseding a subtree
therefore takes along whatever lies below a path of it. -/
theorem is_within_of_is_below (within : isWithin above other = true)
    (below : path.isBelow other = true) : isWithin above path = true :=
  is_within_iff.mpr ((is_within_iff.mp within).trans (is_below_iff.mp below).2)

end Registry

end DocGraph
