import DocGraph.Text.Cut

/-!
# Where texts are cut

A text with a mark is cut at the first mark or at the last one, and parts without the mark that are
joined by it are found again. A text without the mark is not cut.

These are the laws that texts with separators need to be read back: names of generated anchors, keys
of tables and parts of notations. The premise is always that the parts are free of the mark, on the
side from which the text is cut.
-/

namespace DocGraph.Text

variable {text before after rest : List Char} {mark : Char}

/-- A text is cut at its first mark. What follows the mark may have more of them; it is left for
later cuts. -/
theorem cut_first?_append (unmarked : mark ∉ before) (rest : List Char) :
    cutFirst? mark (before ++ mark :: rest) = some (before, rest) := by
  induction before with
  | nil => simp [cutFirst?]
  | cons c before inductionHypothesis =>
    obtain ⟨other, later⟩ := not_or.mp (mt List.mem_cons.mpr unmarked)
    rw [List.cons_append, cutFirst?, if_neg (Ne.symm other), inductionHypothesis later]
    rfl

/-- A text without the mark is not cut. The two facts together decide every text, since a mark that
occurs has a first occurrence. -/
theorem cut_first?_eq_none (unmarked : mark ∉ text) : cutFirst? mark text = none := by
  induction text with
  | nil => rfl
  | cons c text inductionHypothesis =>
    obtain ⟨other, later⟩ := not_or.mp (mt List.mem_cons.mpr unmarked)
    rw [cutFirst?, if_neg (Ne.symm other), inductionHypothesis later]
    rfl

/-- A text is cut at its last mark.

Proof: to cut at the last mark is to cut the reversed text at its first one and to turn both parts
around. -/
theorem cut_last?_append (unmarked : mark ∉ after) (before : List Char) :
    cutLast? mark (before ++ mark :: after) = some (before, after) := by
  have turned : (before ++ mark :: after).reverse = after.reverse ++ mark :: before.reverse := by
    simp
  rw [cutLast?, turned, cut_first?_append (by simpa using unmarked)]
  simp

/-- Cutting at a mark is splitting the list there. So everything known of splitting lists holds of
pieces. -/
theorem pieces_eq_split_on (mark : Char) (text : List Char) :
    pieces mark text = text.splitOn mark := by
  induction text with
  | nil => rfl
  | cons c rest inductionHypothesis =>
    rw [pieces, List.splitOn_cons_eq_if_modifyHead, inductionHypothesis]
    simp only [beq_iff_eq]
    split
    · rfl
    · cases shape : rest.splitOn mark with
      | nil => exact absurd shape (List.splitOn_ne_nil _ _)
      | cons piece others => rfl

/-- Parts without the mark are the pieces of the text that they are joined to. No parts at all are
excluded, because the empty text has one piece, which is empty. -/
theorem pieces_intercalate {parts : List (List Char)} (filled : parts ≠ [])
    (unmarked : ∀ part ∈ parts, mark ∉ part) : pieces mark ([mark].intercalate parts) = parts := by
  rw [pieces_eq_split_on, List.splitOn_intercalate mark unmarked filled]

end DocGraph.Text
