import Mathlib.Data.List.Induction
import DocGraph.Proofs.Fencing
import DocGraph.Proofs.Trimming

/-!
# Line breaks and paragraphs in unwrapped text

Unwrapping carries three flags from line to line. Here each is read off the lines passed so far:
whether anything was written, whether the last line written closed a fenced block, and whether a
blank line has to be made up for. With that the separator before every line is known from the lines
in front of it, and what was written before is never changed.

A blank line is made up for before the next line of text. Where a fenced block comes in between, the
block itself is written without it, and the paragraph break appears behind the block, where no blank
line stands. This is the only case in which the separator is not the one that the last line written
and the blank lines behind it call for.

Each flag is described by an induction on the lines from their end, because a flag tells what the
lines so far have brought about. The break flag is the one that a fenced block leaves alone, and
from this the one exception follows.
-/

namespace DocGraph.Comment

open Text

variable {line last : List Char} {front rest earlier gaps : List (List Char)}

/-- A line marks the edge of a fenced block or lies inside one. The fence lines that open and close
a block belong to it. -/
def Fenced (front : List (List Char)) (line : List Char) : Prop :=
  InFence front ∨ isFence line = true

/-- A line is blank and lies outside of fenced blocks. Inside of a block a blank line is kept. -/
def IsGap (front : List (List Char)) (line : List Char) : Prop :=
  ¬Fenced front line ∧ allBlank line = true

/-- A line has text and lies outside of fenced blocks. -/
def IsText (front : List (List Char)) (line : List Char) : Prop :=
  ¬Fenced front line ∧ allBlank line = false

instance (front : List (List Char)) (line : List Char) : Decidable (Fenced front line) :=
  inferInstanceAs (Decidable (_ ∨ _))

instance (front : List (List Char)) (line : List Char) : Decidable (IsGap front line) :=
  inferInstanceAs (Decidable (_ ∧ _))

instance (front : List (List Char)) (line : List Char) : Decidable (IsText front line) :=
  inferInstanceAs (Decidable (_ ∧ _))

/-- The last line that is written for the lines `front` is `last`; behind it stand only blank lines
outside of fenced blocks. It is asked outside of a block, so that the blank lines behind it are not
written. -/
structure LastWritten (front earlier : List (List Char)) (last : List Char)
    (gaps : List (List Char)) : Prop where
  split : front = earlier ++ last :: gaps
  written : ¬IsGap earlier last
  blank : ∀ gap ∈ gaps, allBlank gap = true
  outside : ¬InFence front

/-- What the last line written and the blank lines behind it call for before a line of text: a blank
line if there are any, else a line break behind a fenced block and a space behind text. It depends
on nothing but what stands directly in front of the text. -/
def separatorBehind (last : List Char) (gaps : List (List Char)) : List Char :=
  if gaps ≠ [] then ['\n', '\n'] else if isFence last then ['\n'] else [' ']

/-- A blank line stands behind something written, and behind the blank line no text. Fenced lines
may stand in between, and that is the point: they are written without taking the break away. -/
def BreakPending (front : List (List Char)) : Prop :=
  ∃ before gap between, front = before ++ gap :: between ∧ IsGap before gap ∧ unwrap before ≠ [] ∧
    ∀ inner line others, between = inner ++ line :: others → ¬IsText (before ++ gap :: inner) line

/-- A paragraph break is held over a fenced block: no blank line stands behind the block, but one is
pending from before. If a blank line stood behind the block, the same break would be called for
anyway. -/
def BreakHeld (earlier : List (List Char)) (last : List Char) (gaps : List (List Char)) : Prop :=
  gaps = [] ∧ isFence last = true ∧ BreakPending earlier

/-- A blank line is no fence line. So a line is of one of the three kinds only. -/
theorem is_fence_of_all_blank (blank : allBlank line = true) : isFence line = false := by
  have held {c : Char} {others : List Char} (shape : line.dropWhile isIndent = c :: others) :
      isBlank c = true := by
    have present : c ∈ line.dropWhile isIndent := shape ▸ List.mem_cons_self
    exact List.all_eq_true.mp blank c ((List.dropWhile_suffix _).subset present)
  unfold isFence
  split
  · next shape => exact absurd (held shape) (by decide)
  · next shape => exact absurd (held shape) (by decide)
  · rfl

/-- The next line moves the state one step on. Together with the next fact it lets the lines be
followed from the end. -/
theorem behind_snoc (front : List (List Char)) (line : List Char) :
    Flow.behind (front ++ [line]) = (Flow.behind front).step line :=
  List.foldl_concat ..

/-- The next line adds what is written for it. -/
theorem unwrap_snoc (front : List (List Char)) (line : List Char) :
    unwrap (front ++ [line]) = unwrap front ++ (Flow.behind front).written line := by
  rw [unwrap, unwrap_from_append, unwrap_from_cons]
  exact congrArg _ (List.append_nil _)

/-- What is written for some lines stays when more lines follow. It is what allows to speak of the
text that is written for the lines in front. -/
theorem unwrap_is_prefix (front rest : List (List Char)) :
    unwrap front <+: unwrap (front ++ rest) :=
  ⟨_, (unwrap_from_append {} front rest).symm⟩

/-- The test for what is kept verbatim. -/
theorem fenced_iff : ((Flow.behind front).inFence || isFence line) = true ↔ Fenced front line := by
  rw [Bool.or_eq_true, in_fence_behind, decide_eq_true_iff, Fenced]

section Steps

/-- A fenced line is written as it is, on a line of its own, and leaves a pending break. The break
flag is the only one that is not set here. -/
theorem Fenced.snoc (fenced : Fenced front line) :
    (Flow.behind front).written line =
        (if (Flow.behind front).started then ['\n'] else []) ++ line ∧
      Flow.behind (front ++ [line]) =
        { Flow.behind front with
          started := true
          inFence := decide (InFence (front ++ [line]))
          afterFence := !decide (InFence (front ++ [line])) } := by
  have test := fenced_iff.mpr fenced
  have turned : ((Flow.behind front).inFence != isFence line) =
      decide (InFence (front ++ [line])) := by
    rw [← in_fence_behind, behind_snoc, Flow.in_fence_step]
  constructor
  · rw [Flow.written, if_pos test]
  · rw [behind_snoc, Flow.step, if_pos test, turned]

/-- Nothing is written for a blank line, and a break is pending if anything was written. A blank
line at the very beginning leaves nothing pending. -/
theorem IsGap.snoc (gap : IsGap front line) :
    (Flow.behind front).written line = [] ∧
      Flow.behind (front ++ [line]) =
        { Flow.behind front with paragraphBreak := (Flow.behind front).started } := by
  have test : ¬((Flow.behind front).inFence || isFence line) = true := mt fenced_iff.mp gap.1
  constructor
  · rw [Flow.written, if_neg test, if_pos gap.2]
  · rw [behind_snoc, Flow.step, if_neg test, if_pos gap.2]

/-- Text is written trimmed behind its separator, and nothing is pending behind it. The separator
takes the pending break with it. -/
theorem IsText.snoc (text : IsText front line) :
    (Flow.behind front).written line = (Flow.behind front).separator ++ trim line ∧
      Flow.behind (front ++ [line]) =
        { Flow.behind front with
          started := true
          paragraphBreak := false
          afterFence := false } := by
  have test : ¬((Flow.behind front).inFence || isFence line) = true := mt fenced_iff.mp text.1
  have filled : ¬allBlank line = true := Bool.not_eq_true _ ▸ text.2
  constructor
  · rw [Flow.written, if_neg test, if_neg filled]
  · rw [behind_snoc, Flow.step, if_neg test, if_neg filled]

/-- Every line is fenced, blank or text. -/
theorem fenced_or_gap_or_text (front : List (List Char)) (line : List Char) :
    Fenced front line ∨ IsGap front line ∨ IsText front line := by
  by_cases fenced : Fenced front line
  · exact .inl fenced
  · cases blank : allBlank line with
    | true => exact .inr (.inl ⟨fenced, blank⟩)
    | false => exact .inr (.inr ⟨fenced, blank⟩)

end Steps

section Flags

/-- Only fence lines change whether what follows lies in a fenced block. -/
theorem in_fence_snoc_of_plain (plain : isFence line = false) :
    InFence (front ++ [line]) ↔ InFence front :=
  in_fence_append_of_plain fun _ present => List.mem_singleton.mp present ▸ plain

/-- A line that is neither in a fenced block nor at its edge leads into none. -/
theorem in_fence_snoc_of_not_fenced (outside : ¬Fenced front line) :
    ¬InFence (front ++ [line]) := by
  obtain ⟨before, plain⟩ := not_or.mp outside
  exact mt (in_fence_snoc_of_plain (Bool.not_eq_true _ ▸ plain)).mp before

/-- In a fenced block something was written, since its first line was. A block begins with a fence
line, which is written. -/
theorem started_of_in_fence (inside : InFence front) : (Flow.behind front).started = true := by
  induction front using List.reverseRecOn with
  | nil => exact absurd inside (by decide)
  | append_singleton front line inductionHypothesis =>
    by_cases fenced : Fenced front line
    · rw [fenced.snoc.2]
    · exact absurd inside (in_fence_snoc_of_not_fenced fenced)

/-- The first flag says whether anything was written. Text is not empty when it is trimmed, and a
fence line is not empty, so what is written for either shows. -/
theorem started_iff : (Flow.behind front).started = true ↔ unwrap front ≠ [] := by
  induction front using List.reverseRecOn with
  | nil => exact iff_of_false Bool.false_ne_true (not_not.mpr rfl)
  | append_singleton front line inductionHypothesis =>
    rw [unwrap_snoc]
    rcases fenced_or_gap_or_text front line with fenced | gap | text
    · obtain ⟨written, state⟩ := fenced.snoc
      rw [written, state]
      refine iff_of_true rfl ?_
      rcases fenced with inside | marks
      · simp [started_of_in_fence inside]
      · have filled : line ≠ [] := by
          rintro rfl
          exact absurd marks (by decide)
        simp [filled]
    · obtain ⟨written, state⟩ := gap.snoc
      rw [written, state, List.append_nil]
      exact inductionHypothesis
    · obtain ⟨written, state⟩ := text.snoc
      rw [written, state]
      have filled : trim line ≠ [] := by
        rw [ne_eq, trim_eq_nil_iff, text.2]
        exact Bool.false_ne_true
      exact iff_of_true rfl (by simp [filled])

/-- A break becomes pending at a blank line behind something written, and stays pending until text
follows. It is the law of the break flag, stated without the flag. -/
theorem break_pending_snoc :
    BreakPending (front ++ [line]) ↔
      IsGap front line ∧ unwrap front ≠ [] ∨ ¬IsText front line ∧ BreakPending front := by
  constructor
  · rintro ⟨before, gap, between, split, isGap, filled, quiet⟩
    rcases List.eq_nil_or_concat between with rfl | ⟨between, final, rfl⟩
    · obtain ⟨rfl, same⟩ := List.append_inj' split rfl
      cases same
      exact .inl ⟨isGap, filled⟩
    · rw [List.concat_eq_append] at split quiet
      rw [← List.cons_append, ← List.append_assoc] at split
      obtain ⟨rfl, same⟩ := List.append_inj' split rfl
      cases same
      refine .inr ⟨quiet between line [] rfl, before, gap, between, rfl, isGap, filled, ?_⟩
      rintro inner text others rfl
      exact quiet inner text (others ++ [line]) (by simp)
  · rintro (⟨isGap, filled⟩ | ⟨noText, before, gap, between, rfl, isGap, filled, quiet⟩)
    · exact ⟨front, line, [], rfl, isGap, filled, fun inner _ _ empty => by simp at empty⟩
    · refine ⟨before, gap, between ++ [line], by simp, isGap, filled, ?_⟩
      intro inner text others split
      rcases List.eq_nil_or_concat others with rfl | ⟨others, final, rfl⟩
      · obtain ⟨rfl, same⟩ := List.append_inj' split rfl
        cases same
        exact noText
      · rw [List.concat_eq_append, ← List.cons_append, ← List.append_assoc] at split
        exact quiet inner text others (List.append_inj' split rfl).1

/-- Where a break is pending something was written. -/
theorem BreakPending.unwrap_ne_nil (pending : BreakPending front) : unwrap front ≠ [] := by
  obtain ⟨before, gap, between, rfl, _, filled, _⟩ := pending
  exact fun empty => filled (List.prefix_nil.mp (empty ▸ unwrap_is_prefix before _))

/-- The break flag says whether a break is pending. The two obey the same law, and both are false at
the beginning. -/
theorem paragraph_break_iff :
    (Flow.behind front).paragraphBreak = true ↔ BreakPending front := by
  induction front using List.reverseRecOn with
  | nil =>
    refine iff_of_false Bool.false_ne_true ?_
    rintro ⟨before, gap, between, split, _⟩
    simp at split
  | append_singleton front line inductionHypothesis =>
    rw [break_pending_snoc]
    rcases fenced_or_gap_or_text front line with fenced | gap | text
    · rw [fenced.snoc.2]
      have noGap : ¬IsGap front line := fun gap => gap.1 fenced
      have noText : ¬IsText front line := fun text => text.1 fenced
      simpa [noGap, noText] using inductionHypothesis
    · rw [gap.snoc.2]
      refine started_iff.trans ⟨fun filled => .inl ⟨gap, filled⟩, ?_⟩
      rintro (⟨_, filled⟩ | ⟨_, pending⟩)
      · exact filled
      · exact pending.unwrap_ne_nil
    · rw [text.snoc.2]
      have noGap : ¬IsGap front line := fun gap => Bool.false_ne_true (text.2.symm.trans gap.2)
      simp [noGap, text]

end Flags

section Separators

/-- Blank lines behind something written leave a break pending and change nothing else. Whether
there is one blank line or there are several does not matter. -/
theorem behind_append_gaps (outside : ¬InFence front) (filled : (Flow.behind front).started = true)
    (some : gaps ≠ []) (blank : ∀ gap ∈ gaps, allBlank gap = true) :
    Flow.behind (front ++ gaps) = { Flow.behind front with paragraphBreak := true } := by
  induction gaps using List.reverseRecOn with
  | nil => exact absurd rfl some
  | append_singleton gaps gap inductionHypothesis =>
    obtain ⟨earlier, final⟩ := List.forall_mem_append.mp blank
    have last : allBlank gap = true := final gap (List.mem_singleton_self gap)
    have still : ¬InFence (front ++ gaps) := by
      rwa [in_fence_append_of_plain fun line present =>
        is_fence_of_all_blank (earlier line present)]
    have isGap : IsGap (front ++ gaps) gap :=
      ⟨not_or.mpr ⟨still, Bool.not_eq_true _ ▸ is_fence_of_all_blank last⟩, last⟩
    rw [← List.append_assoc, isGap.snoc.2]
    cases gaps with
    | nil => rw [List.append_nil, filled]
    | cons first rest => rw [inductionHypothesis (List.cons_ne_nil _ _) earlier, filled]

/-- If anything was written, a line was written last. The lines are searched from their end for one
that is not blank outside of a block. -/
theorem exists_last_written (outside : ¬InFence front) (filled : unwrap front ≠ []) :
    ∃ earlier last gaps, LastWritten front earlier last gaps := by
  induction front using List.reverseRecOn with
  | nil => exact absurd rfl filled
  | append_singleton front line inductionHypothesis =>
    by_cases gap : IsGap front line
    · rw [unwrap_snoc, gap.snoc.1, List.append_nil] at filled
      obtain ⟨earlier, last, gaps, rfl, written, blank, _⟩ :=
        inductionHypothesis (fun inside => gap.1 (.inl inside)) filled
      refine ⟨earlier, last, gaps ++ [line], by simp, written, ?_, outside⟩
      intro other present
      rcases List.mem_append.mp present with before | final
      · exact blank other before
      · rw [List.mem_singleton.mp final]
        exact gap.2
    · exact ⟨front, line, [], rfl, gap, by simp, outside⟩

/-- Behind a line that is written and leads out of fenced blocks, the flags say whether it is a
fence line and whether a break is held over it. A line of text takes the break; a fence line that
closes a block leaves it as it was before the block. -/
theorem behind_written (written : ¬IsGap earlier last) (outside : ¬InFence (earlier ++ [last])) :
    (Flow.behind (earlier ++ [last])).started = true ∧
      (Flow.behind (earlier ++ [last])).afterFence = isFence last ∧
      ((Flow.behind (earlier ++ [last])).paragraphBreak = true ↔
        isFence last = true ∧ BreakPending earlier) := by
  rcases fenced_or_gap_or_text earlier last with fenced | gap | text
  · -- A fenced line that leads out of its block is the fence line that closes it.
    have closes : isFence last = true := by
      by_contra plain
      have before : InFence earlier := fenced.resolve_right plain
      exact outside ((in_fence_snoc_of_plain (Bool.not_eq_true _ ▸ plain)).mpr before)
    rw [fenced.snoc.2]
    refine ⟨rfl, ?_, ?_⟩
    · simp [outside, closes]
    · simpa [closes] using paragraph_break_iff
  · exact absurd gap written
  · have plain : isFence last = false := Bool.not_eq_true _ ▸ (not_or.mp text.1).2
    rw [text.snoc.2]
    exact ⟨rfl, plain.symm, by simp [plain]⟩

/-- The separator before a line of text is the one that the last line written and the blank lines
behind it call for, unless a break is held over a fenced block.

Proof: if there are blank lines behind the last one written, a break is pending and the separator is
a blank line in either case. If there are none, the flags are those behind that line: a break is
held or not, and if not, the line is a fence line or text. -/
theorem LastWritten.separator_eq (latest : LastWritten front earlier last gaps) :
    (BreakHeld earlier last gaps → (Flow.behind front).separator = ['\n', '\n']) ∧
      (¬BreakHeld earlier last gaps →
        (Flow.behind front).separator = separatorBehind last gaps) := by
  obtain ⟨split, written, blank, outside⟩ := latest
  rw [List.append_cons] at split
  have plain := fun gap present => is_fence_of_all_blank (blank gap present)
  have left : ¬InFence (earlier ++ [last]) := by
    rwa [split, in_fence_append_of_plain plain] at outside
  obtain ⟨started, afterFence, pending⟩ := behind_written written left
  by_cases none : gaps = []
  · rw [none, List.append_nil] at split
    rw [← split] at started afterFence pending
    by_cases carried : isFence last = true ∧ BreakPending earlier
    · have held : BreakHeld earlier last gaps := ⟨none, carried⟩
      have flag := pending.mpr carried
      exact ⟨fun _ => by simp [Flow.separator, started, flag], fun free => absurd held free⟩
    · have free : ¬BreakHeld earlier last gaps := fun held => carried held.2
      have flag : (Flow.behind front).paragraphBreak = false :=
        Bool.not_eq_true _ ▸ mt pending.mp carried
      exact ⟨fun held => absurd held free, fun _ => by
        simp [Flow.separator, separatorBehind, started, flag, afterFence, none]⟩
  · have free : ¬BreakHeld earlier last gaps := fun held => none held.1
    have state := behind_append_gaps left started none blank
    rw [← split] at state
    exact ⟨fun held => absurd held free, fun _ => by
      simp [state, Flow.separator, separatorBehind, started, none]⟩

end Separators

/-- **Every line is laid out by the lines in front of it.** Fenced lines are written as they are and
on lines of their own, blank lines are not written, and text is written trimmed. Between text and
the last line written before it stands what that line and the blank lines behind it call for, except
that a break held over a fenced block shows behind the block. Nothing that is written for a line is
changed by what follows.

Proof: a line is fenced, blank or text, and for each of them the step law says what is written.
Before text it is the separator, which is what the last line written calls for exactly if no break
is held; where one is held, that line is a fence line without a blank line behind it, and it calls
for a line break only. -/
theorem unwrap_layout (front : List (List Char)) (line : List Char) :
    (∀ rest, unwrap (front ++ [line]) <+: unwrap (front ++ line :: rest)) ∧
      (Fenced front line → unwrap (front ++ [line]) =
        unwrap front ++ (if unwrap front = [] then [] else ['\n']) ++ line) ∧
      (IsGap front line → unwrap (front ++ [line]) = unwrap front) ∧
      (IsText front line → unwrap front = [] → unwrap (front ++ [line]) = trim line) ∧
      (IsText front line → unwrap front ≠ [] →
        (∃ earlier last gaps, LastWritten front earlier last gaps) ∧
          ∀ earlier last gaps, LastWritten front earlier last gaps →
            (unwrap (front ++ [line]) = unwrap front ++ separatorBehind last gaps ++ trim line ↔
              ¬BreakHeld earlier last gaps) ∧
            (BreakHeld earlier last gaps →
              unwrap (front ++ [line]) = unwrap front ++ ['\n', '\n'] ++ trim line)) := by
  refine ⟨fun rest => ?_, fun fenced => ?_, fun gap => ?_, fun text nothing => ?_,
    fun text filled => ⟨exists_last_written (fun inside => text.1 (.inl inside)) filled, ?_⟩⟩
  · have written := unwrap_is_prefix (front ++ [line]) rest
    rwa [List.append_assoc] at written
  · have flag : (Flow.behind front).started = true ↔ ¬unwrap front = [] := started_iff
    rw [unwrap_snoc, fenced.snoc.1, List.append_assoc]
    by_cases nothing : unwrap front = []
    · simp [nothing, Bool.not_eq_true _ ▸ mt flag.mp (not_not.mpr nothing)]
    · simp [nothing, flag.mpr nothing]
  · rw [unwrap_snoc, gap.snoc.1, List.append_nil]
  · have flag : (Flow.behind front).started = false :=
      Bool.not_eq_true _ ▸ mt started_iff.mp (not_not.mpr nothing)
    simp [unwrap_snoc, text.snoc.1, nothing, Flow.separator, flag]
  · intro earlier last gaps latest
    obtain ⟨held, free⟩ := latest.separator_eq
    rw [unwrap_snoc, text.snoc.1, ← List.append_assoc]
    refine ⟨⟨fun same carried => ?_, fun uncarried => by rw [free uncarried]⟩,
      fun carried => by rw [held carried]⟩
    rw [held carried] at same
    have called := List.append_cancel_left (List.append_cancel_right same)
    simp [separatorBehind, carried.1, carried.2.1] at called

/-- Lines with a fenced block, a blank line and text. -/
def spacedOut : List (List Char) :=
  [" the text".toList, fence, "  x = 1".toList, fence, [], " more ".toList]

/-- The line inside the block is written as it is, nothing is written for the blank line, and
that line becomes a paragraph break before the text behind it. -/
theorem spaced_out_layout :
    IsText [] " the text".toList ∧ unwrap (spacedOut.take 1) = "the text".toList ∧
      Fenced (spacedOut.take 2) "  x = 1".toList ∧
      unwrap (spacedOut.take 3) = unwrap (spacedOut.take 2) ++ ['\n'] ++ "  x = 1".toList ∧
      IsGap (spacedOut.take 4) [] ∧ unwrap (spacedOut.take 5) = unwrap (spacedOut.take 4) ∧
      IsText (spacedOut.take 5) " more ".toList ∧ unwrap (spacedOut.take 5) ≠ [] ∧
      LastWritten (spacedOut.take 5) (spacedOut.take 3) fence [[]] ∧
      unwrap spacedOut = unwrap (spacedOut.take 5) ++ ['\n', '\n'] ++ "more".toList := by
  have first : IsText [] " the text".toList := by decide
  have inside : Fenced (spacedOut.take 2) "  x = 1".toList := by decide
  have gap : IsGap (spacedOut.take 4) [] := by decide
  have text : IsText (spacedOut.take 5) " more ".toList := by decide
  have filled : unwrap (spacedOut.take 5) ≠ [] := by decide
  have latest : LastWritten (spacedOut.take 5) (spacedOut.take 3) fence [[]] :=
    ⟨rfl, by decide, by decide, by decide⟩
  obtain ⟨_, verbatim, _, _, _⟩ := unwrap_layout (spacedOut.take 2) "  x = 1".toList
  obtain ⟨_, _, silent, _, _⟩ := unwrap_layout (spacedOut.take 4) []
  obtain ⟨_, _, _, begins, _⟩ := unwrap_layout [] " the text".toList
  obtain ⟨_, _, _, _, separated⟩ := unwrap_layout (spacedOut.take 5) " more ".toList
  have called := ((separated text filled).2 _ _ _ latest).1.mpr
    fun held => List.cons_ne_nil _ _ held.1
  exact ⟨first, begins first rfl, inside, verbatim inside, gap, silent gap, text, filled, latest,
    called⟩

/-- Text, a blank line, a fenced block and text directly behind the block. -/
def closeBehind : List (List Char) :=
  ["text".toList, [], fence, "x = 1".toList, fence, "more".toList]

/-- The blank line before the block becomes a paragraph break behind it, although the text
there follows the block directly. -/
theorem close_behind_separated :
    LastWritten (closeBehind.take 5) (closeBehind.take 4) fence [] ∧
      IsText (closeBehind.take 5) "more".toList ∧
      BreakHeld (closeBehind.take 4) fence [] ∧
      unwrap closeBehind ≠
        unwrap (closeBehind.take 5) ++ separatorBehind fence [] ++ trim "more".toList ∧
      unwrap closeBehind = "text\n\x60\x60\x60\nx = 1\n\x60\x60\x60\n\nmore".toList := by
  refine ⟨⟨rfl, by decide, by decide, by decide⟩, by decide, ⟨rfl, by decide, ?_⟩, by decide,
    by decide⟩
  exact paragraph_break_iff.mp (by decide)

end DocGraph.Comment
