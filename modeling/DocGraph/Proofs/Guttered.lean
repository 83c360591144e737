import DocGraph.Proofs.Fencing
import DocGraph.Proofs.Trimming

/-!
# Descriptions behind a gutter

A description is written as a comment by putting every line behind a gutter and, if wanted, some
spaces. Reading the comment takes off the marks, the gutter and the shared indentation, and nothing
else: what is read are the lines as they were, with line breaks between them.

The lines have to begin and end with text, they must not end in blanks, one of them has to stand at
the left edge, and outside of fenced blocks none may look like a tag. Inside fenced blocks anything
goes, and so do bullets that look like a gutter, tabs, and blanks other than spaces and tabs at the
start of a line, which are no indentation.

The steps of reading are followed in their order: marks and gutter are cut off, each line is looked
at for a tag, blank lines at the edges are dropped, and the shared indentation is taken away. For
each of them there is a lemma about a line behind some spaces, and the main result puts them
together.
-/

namespace DocGraph.Text

variable {line : List Char}

/-- A line without a line feed, and without a carriage return before the next one, is cut off whole.
A carriage return before the line feed would be cut off with it. -/
theorem lines_append_newline (unbroken : '\n' ∉ line) (noReturn : line.getLast? ≠ some '\r')
    (rest : List Char) : lines (line ++ '\n' :: rest) = line :: lines rest := by
  induction line with
  | nil => rfl
  | cons c tail inductionHypothesis =>
    obtain ⟨other, later⟩ := not_or.mp (mt List.mem_cons.mpr unbroken)
    have cut : lines (tail ++ '\n' :: rest) = tail :: lines rest := by
      cases tail with
      | nil => rfl
      | cons d others => exact inductionHypothesis later (by simpa using noReturn)
    rw [List.cons_append, lines]
    · rw [cut]
    · rintro rfl
      exact other rfl
    · rintro others rfl same
      cases tail with
      | nil => exact noReturn rfl
      | cons d others => exact later ((List.cons.inj same).1 ▸ List.mem_cons_self)

end DocGraph.Text

namespace DocGraph.Comment

open Text

variable {line : List Char} {body : List (List Char)} {width : Nat} {inFence : Bool}

/-- A line of a comment behind the gutter and some spaces. The asterisk is followed by one space
that belongs to the gutter; further spaces are indentation. -/
def gutterLine (width : Nat) (line : List Char) : List Char :=
  " * ".toList ++ (List.replicate width ' ' ++ line)

/-- The comment with the given lines, each behind the gutter and some spaces. The opening and the
closing mark stand on lines of their own, so no line of the description shares a line with a
mark. -/
def guttered (width : Nat) (body : List (List Char)) : List Char :=
  "/**".toList ++ ('\n' :: (body.flatMap fun line => gutterLine width line ++ ['\n']) ++ [' ']) ++
    "*/".toList

/-- Lines that make up a description. Every condition is needed: blank edges are dropped, trailing
blanks are cut off, indentation that all lines share is taken away, and a line that looks like a tag
is one. -/
structure IsDescription (body : List (List Char)) : Prop where
  begins : ∀ line ∈ body.head?, allBlank line = false
  ends : ∀ line ∈ body.getLast?, allBlank line = false
  unbroken : ∀ line ∈ body, '\n' ∉ line
  solid : ∀ line ∈ body, EndsSolid line
  /-- The least indentation of a line with text is none. -/
  flush : ∃ line ∈ body, allBlank line = false ∧ indentWidth line = 0
  /-- Outside of fenced blocks no line looks like a tag. -/
  untagged : ∀ (place : Nat) (within : place < body.length),
    ¬InFence (body.take place) → tagLine? body[place] = none

/-- A line behind some spaces. Blank lines are not indented, since nothing of them is left behind
the gutter. It is what is left of a guttered line after the gutter and the trailing blanks. -/
def indented (width : Nat) (line : List Char) : List Char :=
  if line = [] then [] else List.replicate width ' ' ++ line

section Lines

/-- Spaces are blank. -/
theorem all_blank_spaces (width : Nat) : allBlank (List.replicate width ' ') = true :=
  List.all_eq_true.mpr fun c present => (List.eq_of_mem_replicate present) ▸ by decide

/-- Behind the gutter and the trailing blanks, the indented line is left. A solid line ends in text,
so the blanks that are cut off can only be those of an empty line. -/
theorem trim_end_drop_gutter_gutter_line (solid : EndsSolid line) :
    trimEnd (dropGutter (gutterLine width line)) = indented width line := by
  have cut : dropGutter (gutterLine width line) = List.replicate width ' ' ++ line := rfl
  rw [cut, indented]
  split
  · next empty =>
    rw [empty, List.append_nil]
    exact trim_end_eq_nil_iff.mpr (all_blank_spaces width)
  · next filled => exact trim_end_of_ends_solid (ends_solid_append filled solid)

/-- The spaces in front of a line are indentation. -/
theorem take_while_indented (width : Nat) (line : List Char) :
    (List.replicate width ' ' ++ line).takeWhile isIndent =
        List.replicate width ' ' ++ line.takeWhile isIndent ∧
      (List.replicate width ' ' ++ line).dropWhile isIndent = line.dropWhile isIndent := by
  have spaces : ∀ c ∈ List.replicate width ' ', isIndent c = true := fun c present =>
    (List.eq_of_mem_replicate present) ▸ by decide
  exact ⟨List.takeWhile_append_of_pos spaces, List.dropWhile_append_of_pos spaces⟩

/-- Indenting a line changes neither what it opens nor whether it is a fence line. Both are looked
for behind the blanks at the start of the line. -/
theorem looks_indented (width : Nat) (line : List Char) :
    tagLine? (indented width line) = tagLine? line ∧
      isFence (indented width line) = isFence line := by
  unfold indented
  split
  · next empty =>
    rw [empty]
    exact ⟨rfl, rfl⟩
  · unfold tagLine? isFence
    rw [(take_while_indented width line).2]
    exact ⟨rfl, rfl⟩

/-- A line behind the gutter holds no line feed and does not end in a carriage return. -/
theorem unbroken_gutter_line (width : Nat) (unbroken : '\n' ∉ line) (solid : EndsSolid line) :
    '\n' ∉ gutterLine width line ∧ (gutterLine width line).getLast? ≠ some '\r' := by
  constructor
  · intro present
    rcases List.mem_append.mp present with gutter | present
    · exact absurd gutter (by decide)
    · rcases List.mem_append.mp present with space | own
      · exact absurd (List.eq_of_mem_replicate space) (by decide)
      · exact unbroken own
  · intro last
    by_cases empty : line = []
    · rw [empty, gutterLine, List.append_nil] at last
      have present := List.mem_of_getLast? last
      rcases List.mem_append.mp present with gutter | space
      · exact absurd gutter (by decide)
      · exact absurd (List.eq_of_mem_replicate space) (by decide)
    · rw [gutterLine, ← List.append_assoc, List.getLast?_append_of_ne_nil _ empty] at last
      exact absurd (solid _ last) (by decide)

/-- Lines behind the gutter are cut apart again. The last line is the space in front of the closing
mark. -/
theorem lines_gutter_lines (unbroken : ∀ line ∈ body, '\n' ∉ line)
    (solid : ∀ line ∈ body, EndsSolid line) :
    Text.lines ((body.flatMap fun line => gutterLine width line ++ ['\n']) ++ [' ']) =
      body.map (gutterLine width) ++ [[' ']] := by
  induction body with
  | nil => rfl
  | cons line rest inductionHypothesis =>
    obtain ⟨plain, plainRest⟩ := List.forall_mem_cons.mp unbroken
    obtain ⟨own, solidRest⟩ := List.forall_mem_cons.mp solid
    obtain ⟨whole, noReturn⟩ := unbroken_gutter_line width plain own
    have cut := lines_append_newline whole noReturn
      ((rest.flatMap fun line => gutterLine width line ++ ['\n']) ++ [' '])
    rw [inductionHypothesis plainRest solidRest] at cut
    simpa using cut

/-- The lines of a comment are those between its marks. Nothing stands before the opening mark or
behind the closing one, so there is nothing to trim. -/
theorem content_lines_between (inside : List Char) :
    contentLines ("/**".toList ++ inside ++ "*/".toList) =
      (Text.lines inside).map fun line => trimEnd (dropGutter line) := by
  have whole : trim ("/**".toList ++ inside ++ "*/".toList) =
      "/**".toList ++ inside ++ "*/".toList := by
    have begins : trimStart ("/**".toList ++ inside ++ "*/".toList) =
        "/**".toList ++ inside ++ "*/".toList := trim_start_cons (by decide)
    rw [trim, begins]
    exact trim_end_of_ends_solid (ends_solid_append (by decide) (by decide))
  have opened := (drop_front?_eq_some_iff _ ("/**".toList ++ inside ++ "*/".toList) _).mpr
    (List.append_assoc "/**".toList _ _)
  have closed := (drop_back?_eq_some_iff "*/".toList _ inside).mpr rfl
  rw [contentLines, whole, opened, Option.getD_some, closed, Option.getD_some]

/-- The lines of a guttered comment are the indented lines between two empty ones.

Proof: what stands between the marks begins with a line break and ends in a space, which gives the
two empty lines; the lines in between are cut apart and lose their gutters one by one. -/
theorem content_lines_guttered (width : Nat) (unbroken : ∀ line ∈ body, '\n' ∉ line)
    (solid : ∀ line ∈ body, EndsSolid line) :
    contentLines (guttered width body) = [] :: (body.map (indented width) ++ [[]]) := by
  have cut :
      Text.lines ('\n' :: (body.flatMap fun line => gutterLine width line ++ ['\n']) ++ [' ']) =
        [] :: (body.map (gutterLine width) ++ [[' ']]) :=
    congrArg ([] :: ·) (lines_gutter_lines unbroken solid)
  have read : (body.map (gutterLine width)).map (fun line => trimEnd (dropGutter line)) =
      body.map (indented width) := by
    rw [List.map_map]
    exact List.map_congr_left fun line present =>
      trim_end_drop_gutter_gutter_line (solid line present)
  rw [guttered, content_lines_between, cut, List.map_cons, List.map_append, read]
  rfl

end Lines

section Roles

/-- Indented lines without tags outside of fenced blocks are text. The flag at the start is left
open for the induction. It is turned over at each fence line, as the premise counts it. -/
theorem roles_indented
    (untagged : ∀ (place : Nat) (within : place < body.length),
      (inFence != decide (InFence (body.take place))) = false → tagLine? body[place] = none) :
    roles inFence (body.map (indented width)) = (body.map (indented width)).map .text := by
  induction body generalizing inFence with
  | nil => rfl
  | cons line rest inductionHypothesis =>
    have plain : opening? inFence (indented width line) = none := by
      rw [opening?, (looks_indented width line).1]
      cases inFence with
      | true => rfl
      | false => exact untagged 0 (Nat.zero_lt_succ _) rfl
    rw [List.map_cons, List.map_cons, (roles_of_text plain).1, (looks_indented width line).2]
    refine congrArg (_ :: ·) (inductionHypothesis fun place within outside => ?_)
    refine untagged (place + 1) (Nat.succ_lt_succ within) ?_
    rw [List.take_succ_cons, turned_cons]
    exact outside

/-- Lines of text are gathered before the first tag, and there is none. -/
theorem gather_text (lines : List (List Char)) : gather (lines.map .text) = (lines, []) := by
  induction lines with
  | nil => rfl
  | cons line rest inductionHypothesis =>
    rw [List.map_cons, gather, inductionHypothesis]

end Roles

section Dedenting

/-- Between two empty lines, lines that begin and end with text are what is left without blank
edges. Inside of the body blank lines stay. -/
theorem drop_blank_edges_between (begins : ∀ line ∈ body.head?, allBlank line = false)
    (ends : ∀ line ∈ body.getLast?, allBlank line = false) :
    dropBlankEdges ([] :: (body ++ [[]])) = body := by
  have kept (lines : List (List Char)) (first : ∀ line ∈ lines.head?, allBlank line = false) :
      lines.dropWhile allBlank = lines := by
    cases lines with
    | nil => rfl
    | cons line rest => simp [first line rfl]
  have left : ([] :: (body ++ [[]])).dropWhile allBlank = (body ++ [[]]).dropWhile allBlank := rfl
  have right : ([] :: body.reverse).dropWhile allBlank = body.reverse.dropWhile allBlank := rfl
  rw [dropBlankEdges, left]
  by_cases empty : body = []
  · rw [empty]
    rfl
  · have first : (body ++ [[]]).dropWhile allBlank = body ++ [[]] :=
      kept _ (by rwa [List.head?_append_of_ne_nil _ empty])
    have last : body.reverse.dropWhile allBlank = body.reverse :=
      kept _ (by rwa [List.head?_reverse])
    rw [first, List.reverse_append, List.reverse_singleton, List.singleton_append, right, last,
      List.reverse_reverse]

/-- The spaces in front of a line are taken off again. An empty line has no indentation to lose. -/
theorem drop_indent_indented (width : Nat) (line : List Char) :
    dropIndent width (indented width line) = line := by
  unfold indented
  split
  · next empty =>
    rw [empty]
    cases width <;> rfl
  · induction width with
    | zero => rfl
    | succ width inductionHypothesis => exact inductionHypothesis

/-- Spaces in front of a line do not give it text. -/
theorem all_blank_indented (width : Nat) (line : List Char) :
    allBlank (indented width line) = allBlank line := by
  unfold indented
  split
  · next empty => rw [empty]
  · have spaces : (List.replicate width ' ').all isBlank = true := all_blank_spaces width
    rw [allBlank, List.all_append, spaces, Bool.true_and, allBlank]

/-- The spaces in front of a line with text add to its indentation. -/
theorem indent_width_indented (filled : allBlank line = false) :
    indentWidth (indented width line) = width + indentWidth line := by
  have some : line ≠ [] := by
    rintro rfl
    cases filled
  rw [indented, if_neg some, indentWidth, (take_while_indented width line).1, List.length_append,
    List.length_replicate, indentWidth]

/-- The spaces in front of the lines are the indentation that they share, if one of the lines with
text has no other.

Proof: every line with text has the spaces and its own indentation. The least of these is the number
of the spaces, because one of the lines has no indentation of its own. -/
theorem common_indent_indented
    (flush : ∃ line ∈ body, allBlank line = false ∧ indentWidth line = 0) :
    commonIndent (body.map (indented width)) = width := by
  have widths : ((body.map (indented width)).filter fun line => !allBlank line).map indentWidth =
      (body.filter fun line => !allBlank line).map fun line => width + indentWidth line := by
    have filled : (body.map (indented width)).filter (fun line => !allBlank line) =
        (body.filter fun line => !allBlank line).map (indented width) := by
      rw [List.filter_map]
      refine congrArg _ (List.filter_congr fun line _ => ?_)
      exact congrArg Bool.not (all_blank_indented width line)
    rw [filled, List.map_map]
    refine List.map_congr_left fun line present => indent_width_indented ?_
    simpa using (List.mem_filter.mp present).2
  have least : (((body.map (indented width)).filter fun line => !allBlank line).map
      indentWidth).min? = some width := by
    rw [widths, List.min?_eq_some_iff]
    obtain ⟨line, present, filled, atEdge⟩ := flush
    refine ⟨List.mem_map.mpr ⟨line, List.mem_filter.mpr ⟨present, by simp [filled]⟩, ?_⟩, ?_⟩
    · rw [atEdge, Nat.add_zero]
    · intro other listed
      obtain ⟨another, _, rfl⟩ := List.mem_map.mp listed
      exact Nat.le_add_right _ _
  rw [commonIndent, least, Option.getD_some]

/-- Of the lines of a guttered comment the original ones are left. The edges that are dropped are
the two empty lines, since the body begins and ends with text. -/
theorem dedent_indented (describes : IsDescription body) :
    dedent ([] :: (body.map (indented width) ++ [[]])) = ['\n'].intercalate body := by
  have begins : ∀ line ∈ (body.map (indented width)).head?, allBlank line = false := by
    rw [List.head?_map]
    rintro _ first
    obtain ⟨line, held, rfl⟩ := Option.mem_map.mp first
    rw [all_blank_indented]
    exact describes.begins line held
  have ends : ∀ line ∈ (body.map (indented width)).getLast?, allBlank line = false := by
    rw [List.getLast?_map]
    rintro _ last
    obtain ⟨line, held, rfl⟩ := Option.mem_map.mp last
    rw [all_blank_indented]
    exact describes.ends line held
  have whole : dropBlankEdges ([] :: (body.map (indented width) ++ [[]])) =
      body.map (indented width) := drop_blank_edges_between begins ends
  have back : (body.map (indented width)).map (dropIndent width) = body := by
    rw [List.map_map]
    have each : body.map (dropIndent width ∘ indented width) = body.map id :=
      List.map_congr_left fun line _ => drop_indent_indented width line
    rw [each, List.map_id]
  rw [dedent, whole, common_indent_indented describes.flush, back, joinLines]

end Dedenting

/-- **A guttered description is read unchanged.** The comment that holds lines of a description
behind a gutter and any number of spaces has these lines as its description; it has no tags, and no
warning is given.

Proof: the lines of the comment are the indented lines between two empty ones. None of them opens a
tag outside of a fenced block, so all of them are description and there are no tags to warn about.
Without the blank edges and the shared indentation they are the lines that were written. -/
theorem parse_guttered (describes : IsDescription body) (width : Nat) (location : Location) :
    parse (String.ofList (guttered width body)) location =
      ({ description := String.ofList (['\n'].intercalate body), tags := [] }, []) := by
  have lines := content_lines_guttered width describes.unbroken describes.solid
  have text : roles false (body.map (indented width)) = (body.map (indented width)).map .text :=
    roles_indented fun place within outside =>
      describes.untagged place within (by simpa using outside)
  have gathered : gather (roles false ([] :: (body.map (indented width) ++ [[]]))) =
      ([] :: (body.map (indented width) ++ [[]]), []) := by
    have last (state : Bool) : roles state [[]] = [[]].map .text := by
      cases state <;> rfl
    have whole : roles false ([] :: (body.map (indented width) ++ [[]])) =
        ([] :: (body.map (indented width) ++ [[]])).map .text := by
      have first : opening? false [] = none := rfl
      rw [(roles_of_text first).1, List.map_cons, List.map_append, ← text, ← last]
      exact congrArg (_ :: ·) (roles_append false _ _).1
    rw [whole, gather_text]
  rw [parse, String.toList_ofList, lines, gathered]
  dsimp only
  rw [dedent_indented describes]
  rfl

/-- A description with a bullet, a tab, a fenced block that holds a line like a tag, an empty
line and a wide blank at the start of a line. -/
def assortedLines : List (List Char) :=
  ["* item".toList, "\tindented".toList, fence, "  @notATag x".toList, fence, [],
    "\u3000wide".toList]

/-- The assorted lines are read back behind three extra spaces. -/
theorem assorted_lines_guttered :
    IsDescription assortedLines ∧
      parse (String.ofList (guttered 3 assortedLines)) ⟨"a.js", 1⟩ =
        ({ description := "* item\n\tindented\n\x60\x60\x60\n  @notATag x\n\x60\x60\x60\n\n" ++
            "\u3000wide" }, []) := by
  have describes : IsDescription assortedLines :=
    ⟨by decide, by decide, by decide, by decide, by decide, by decide⟩
  exact ⟨describes, parse_guttered describes 3 ⟨"a.js", 1⟩⟩

end DocGraph.Comment
