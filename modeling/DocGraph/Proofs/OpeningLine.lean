import DocGraph.Proofs.Guttered

/-!
# Text on the opening line

A comment can begin on the line of its opening mark and end there. That line has no gutter, but it
is read as if it had one: a star at the start of the text is taken off together with a space behind
it, and with it the mark of a bullet or the first half of an emphasis. Every other text of one line
is read unchanged, if it is no tag.

Both directions are read off the one line of the comment. Without a star it is the text behind a
space, and dedenting takes the space off; with a star it is shorter than the text, and no reading of
a line makes it longer.
-/

namespace DocGraph.Text

variable {line : List Char}

/-- A text without a line feed is a single line. -/
theorem lines_of_unbroken (filled : line ≠ []) (unbroken : '\n' ∉ line) : lines line = [line] := by
  induction line with
  | nil => exact absurd rfl filled
  | cons c rest inductionHypothesis =>
    obtain ⟨other, later⟩ := not_or.mp (mt List.mem_cons.mpr unbroken)
    rw [lines]
    · cases rest with
      | nil => rfl
      | cons d others => rw [inductionHypothesis (List.cons_ne_nil _ _) later]
    · rintro rfl
      exact other rfl
    · rintro others rfl rfl
      exact later List.mem_cons_self

end DocGraph.Text

namespace DocGraph.Comment

open Text

variable {text line rest : List Char} {raw : String}

/-- The comment with a text between its marks on a single line. The spaces keep the text apart from
the marks, so that neither mark is prolonged by it. -/
def oneLine (text : List Char) : List Char :=
  "/**".toList ++ (' ' :: text ++ [' ']) ++ "*/".toList

/-- A text of one line that does not begin or end in blanks and does not look like a tag. It may
hold marks of comments and tags further on in the line; they mean nothing there. -/
structure IsRemark (text : List Char) : Prop where
  filled : text ≠ []
  unbroken : '\n' ∉ text
  trimmed : trim text = text
  untagged : tagLine? text = none

section Lines

/-- What is left of a line without its gutter is the end of the line. -/
theorem drop_gutter_suffix (line : List Char) : dropGutter line <:+ line := by
  have behind : line.dropWhile isIndent <:+ line := List.dropWhile_suffix _
  unfold dropGutter
  split
  · next shape => exact ((List.suffix_cons _ _).trans (List.suffix_cons _ _)).trans (shape ▸ behind)
  · next shape => exact (List.suffix_cons _ _).trans (shape ▸ behind)
  · exact List.suffix_rfl

/-- Behind indentation a star is taken off, and with it a space that follows. The premise has a
character behind the star; a star that ends the line is taken off by itself. -/
theorem drop_gutter_of_star {c : Char} (star : line.dropWhile isIndent = '*' :: c :: rest) :
    dropGutter line = if c = ' ' then rest else c :: rest := by
  rw [dropGutter, star]
  by_cases space : c = ' '
  · rw [space]
    rfl
  · rw [if_neg space]
    split
    · next same => exact absurd (List.cons.inj (List.cons.inj same).2).1 space
    · next same => exact (List.cons.inj same).2.symm
    · next noStar => exact absurd rfl (noStar _)

/-- Without its star a text is shorter. -/
theorem drop_gutter_shorter (star : text.head? = some '*') :
    (dropGutter text).length < text.length := by
  obtain ⟨rest, rfl⟩ : ∃ rest, text = '*' :: rest := ⟨_, List.eq_cons_of_mem_head? star⟩
  cases rest with
  | nil => decide
  | cons c rest =>
    have left : dropGutter ('*' :: c :: rest) = if c = ' ' then rest else c :: rest :=
      drop_gutter_of_star rfl
    rw [left]
    split
    · exact Nat.lt_succ_of_lt (Nat.lt_succ_self _)
    · exact Nat.lt_succ_self _

/-- The only line of the comment is the text between two spaces. Behind the opening mark the line is
treated like any line of the comment. -/
theorem content_lines_one_line (unbroken : '\n' ∉ text) :
    contentLines (oneLine text) = [trimEnd (dropGutter (' ' :: text ++ [' ']))] := by
  have single : Text.lines (' ' :: text ++ [' ']) = [' ' :: text ++ [' ']] :=
    lines_of_unbroken (List.cons_ne_nil _ _) (by simpa using unbroken)
  rw [oneLine, content_lines_between, single, List.map_singleton]

/-- The first character of a text without blanks at its start does not indent. -/
theorem drop_while_is_indent_of_trim (trimmed : trim text = text) :
    text.dropWhile isIndent = text := by
  cases text with
  | nil => rfl
  | cons c rest =>
    have solid : isBlank c = false := solid_head_of_trim trimmed c rfl
    have noIndent : ¬isIndent c = true := fun indents =>
      Bool.false_ne_true (solid.symm.trans (is_blank_of_is_indent indents))
    exact List.dropWhile_cons_of_neg noIndent

/-- Without a star at its start the text stays on the line. The space in front is not taken off
here; it is indentation. -/
theorem trim_end_drop_gutter_of_no_star (filled : text ≠ []) (trimmed : trim text = text)
    (noStar : text.head? ≠ some '*') :
    trimEnd (dropGutter (' ' :: text ++ [' '])) = ' ' :: text := by
  have kept : dropGutter (' ' :: text ++ [' ']) = ' ' :: text ++ [' '] := by
    have shape : (' ' :: text ++ [' ']).dropWhile isIndent = text ++ [' '] := by
      have own : text.dropWhile isIndent ≠ [] :=
        (drop_while_is_indent_of_trim trimmed).symm ▸ filled
      have behind : (text ++ [' ']).dropWhile isIndent = text ++ [' '] := by
        rw [List.dropWhile_append, if_neg (mt List.isEmpty_iff.mp own),
          drop_while_is_indent_of_trim trimmed]
      exact behind
    have first : (text ++ [' ']).head? ≠ some '*' := by
      rwa [List.head?_append_of_ne_nil _ filled]
    rw [dropGutter, shape]
    split
    · next star => exact absurd (congrArg List.head? star) first
    · next star => exact absurd (congrArg List.head? star) first
    · rfl
  have solid : EndsSolid ([' '] ++ text) :=
    ends_solid_append filled (trim_end_of_trim trimmed ▸ ends_solid_trim_end text)
  have behind : trimEnd ([' '] ++ text ++ [' ']) = [' '] ++ text ++ [] := trim_end_append solid
  rw [kept]
  exact behind.trans (List.append_nil _)

/-- A star at the start of the text is taken off like a gutter. What is left of the text still ends
in text, so trimming takes off only the space behind it. -/
theorem trim_end_drop_gutter_of_star (trimmed : trim text = text) (star : text.head? = some '*') :
    trimEnd (dropGutter (' ' :: text ++ [' '])) = dropGutter text := by
  have solid : EndsSolid text := trim_end_of_trim trimmed ▸ ends_solid_trim_end text
  have left : EndsSolid (dropGutter text) := solid.of_suffix (drop_gutter_suffix text)
  obtain ⟨rest, rfl⟩ : ∃ rest, text = '*' :: rest := ⟨_, List.eq_cons_of_mem_head? star⟩
  cases rest with
  | nil => rfl
  | cons c rest =>
    have between : dropGutter (' ' :: ('*' :: c :: rest) ++ [' ']) =
        dropGutter ('*' :: c :: rest) ++ [' '] := by
      have own : dropGutter ('*' :: c :: rest) = if c = ' ' then rest else c :: rest :=
        drop_gutter_of_star rfl
      have padded : dropGutter (' ' :: ('*' :: c :: rest) ++ [' ']) =
          if c = ' ' then rest ++ [' '] else c :: (rest ++ [' ']) := drop_gutter_of_star rfl
      rw [own, padded]
      split <;> rfl
    rw [between, trim_end_append left]
    exact List.append_nil _

end Lines

section Reading

/-- Without all of its indentation a line begins with what does not indent. -/
theorem drop_indent_indent_width (line : List Char) :
    dropIndent (indentWidth line) line = line.dropWhile isIndent := by
  induction line with
  | nil => rfl
  | cons c rest inductionHypothesis =>
    rw [indentWidth, List.takeWhile_cons, List.dropWhile_cons]
    split
    · next indents =>
      rw [List.length_cons, dropIndent, if_pos indents]
      exact inductionHypothesis
    · rfl

/-- A single line of description loses its indentation. A line shares its indentation with nobody
and loses all of it. -/
theorem dedent_singleton (line : List Char) :
    dedent [line] = if allBlank line then [] else line.dropWhile isIndent := by
  split
  · next blank =>
    have none : dropBlankEdges [line] = [] := by simp [dropBlankEdges, blank]
    rw [dedent, none]
    rfl
  · next filled =>
    have whole : dropBlankEdges [line] = [line] := by simp [dropBlankEdges, filled]
    have width : commonIndent [line] = indentWidth line := by simp [commonIndent, filled]
    rw [dedent, whole, width, List.map_singleton, drop_indent_indent_width]
    exact List.intercalate_singleton

/-- A comment of a single line that is no tag has what stands on the line as its description. There
is no other line that could open a tag. -/
theorem parse_of_single_line (single : contentLines raw.toList = [line])
    (untagged : tagLine? line = none) (location : Location) :
    parse raw location = ({ description := String.ofList (dedent [line]), tags := [] }, []) := by
  have plain : opening? false line = none := untagged
  rw [parse, single, (roles_of_text plain).1]
  rfl

/-- A comment of a single line cannot be read as a longer text.

Proof: if the line opens a tag, the comment has a tag. Otherwise the description is no longer than
the line, and the text is. -/
theorem parse_ne_of_shorter (single : contentLines raw.toList = [line])
    (shorter : line.length < text.length) (location : Location) :
    parse raw location ≠ ({ description := String.ofList text, tags := [] }, []) := by
  -- Behind a star there may even be a tag, which the text itself does not look like.
  cases opened : tagLine? line with
  | some parts =>
    have opens : opening? false line = some (parts.1, parts.2) := opened
    rw [parse, single, (roles_of_opening opens).1]
    intro same
    exact List.cons_ne_nil _ _ (congrArg (fun read => read.1.tags) same)
  | none =>
    rw [parse_of_single_line single opened]
    intro same
    have read : dedent [line] = text :=
      String.ofList_injective (congrArg (fun read => read.1.description) same)
    have longer : text.length ≤ line.length := by
      rw [← read, dedent_singleton]
      split
      · exact Nat.zero_le _
      · exact List.length_dropWhile_le ..
    exact absurd shorter (Nat.not_lt.mpr longer)

end Reading

/-- **A text on the opening line is read unchanged exactly if it does not begin with a star.** A
comment of one line that holds a text has this text as its description and no tags, if the first
character of the text is no star. A star is taken for a gutter: what is read is the text without it
and without a space behind it.

Proof: without a star the only line is the text behind a space, it opens no tag as the text does
not, and without indentation it is the text. With a star the only line is the text without it, which
is shorter. -/
theorem parse_one_line_iff (remark : IsRemark text) (location : Location) :
    (parse (String.ofList (oneLine text)) location =
        ({ description := String.ofList text, tags := [] }, []) ↔ text.head? ≠ some '*') ∧
      (text.head? = some '*' → contentLines (oneLine text) = [dropGutter text]) := by
  have single : contentLines (String.ofList (oneLine text)).toList =
      [trimEnd (dropGutter (' ' :: text ++ [' ']))] := by
    rw [String.toList_ofList]
    exact content_lines_one_line remark.unbroken
  by_cases star : text.head? = some '*'
  · -- The line is shorter than the text, so the text cannot be read from it.
    have left := trim_end_drop_gutter_of_star remark.trimmed star
    rw [left] at single
    refine ⟨iff_of_false ?_ (not_not.mpr star), fun _ => ?_⟩
    · exact parse_ne_of_shorter single (drop_gutter_shorter star) location
    · rw [content_lines_one_line remark.unbroken, left]
  · refine ⟨iff_of_true ?_ star, fun begins => absurd begins star⟩
    rw [trim_end_drop_gutter_of_no_star remark.filled remark.trimmed star] at single
    have untagged : tagLine? (' ' :: text) = none := remark.untagged
    have filled : ¬allBlank (' ' :: text) = true := by
      have own : ¬allBlank text = true := by
        rw [← trim_eq_nil_iff, remark.trimmed]
        exact remark.filled
      exact own
    have flush : (' ' :: text).dropWhile isIndent = text :=
      drop_while_is_indent_of_trim remark.trimmed
    rw [parse_of_single_line single untagged, dedent_singleton, if_neg filled, flush]

/-- A remark with an emphasis, a closing mark, a bullet and a tag inside, and a wide blank. -/
def inlineMarks : List Char := "see */ and *this* * item\u3000@private".toList

/-- Marks inside of a remark are left alone. -/
theorem inline_marks_read :
    IsRemark inlineMarks ∧ inlineMarks.head? ≠ some '*' ∧
      parse (String.ofList (oneLine inlineMarks)) ⟨"a.js", 1⟩ =
        ({ description := "see */ and *this* * item\u3000@private", tags := [] }, []) := by
  have remark : IsRemark inlineMarks := ⟨by decide, by decide, by decide, by decide⟩
  have noStar : inlineMarks.head? ≠ some '*' := by decide
  exact ⟨remark, noStar, (parse_one_line_iff remark ⟨"a.js", 1⟩).1.mpr noStar⟩

/-- A remark that begins with an emphasis loses the star in front of it. -/
theorem emphasis_loses_star :
    IsRemark "*note* this".toList ∧
      parse "/** *note* this */" ⟨"", 0⟩ = ({ description := "note* this", tags := [] }, []) :=
  ⟨⟨by decide, by decide, by decide, by decide⟩, by cbv⟩

end DocGraph.Comment
