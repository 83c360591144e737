import DocGraph.Comment.Group

/-!
# What stands in brackets

A scan for the closing bracket counts the brackets that are open and skips quoted stretches. Here
the texts that it passes over are described without a count: they are put together from plain
characters, quoted stretches and bracketed groups. A text begins with a group exactly when such a
text stands between the brackets, so there is only one way to split it.

This holds for any two brackets that are different and are no quotes.

The description and the scan are tied together by two inductions. Along the description it is seen
where the scan stands behind each part of a balanced text. The other way, a text that brings a scan
out of all brackets is put together from its end, where what is still to be closed is described for
every state that the scan can be in.
-/

namespace DocGraph.Comment

variable {opening closing mark c : Char} {text content after rest front : List Char} {depth : Nat}
  {quoting : Quoting}

/-- Two characters that can serve as brackets. Different brackets are needed because the scan asks
for the opening one first; a bracket that was a quote would begin a quoted stretch and never be
counted. -/
structure IsBracketPair (opening closing : Char) : Prop where
  distinct : opening ≠ closing
  opensNoQuote : isQuote opening = false
  closesNoQuote : isQuote closing = false

/-- Braces are brackets. -/
theorem braces : IsBracketPair '{' '}' := ⟨by decide, by decide, by decide⟩

/-- Square brackets are brackets. -/
theorem brackets : IsBracketPair '[' ']' := ⟨by decide, by decide, by decide⟩

/-- A text between two quotes. The closing quote can stand in it behind a backslash only. Behind a
backslash any character is taken, a quote or another backslash among them, so the stretch ends at
the first quote that is not escaped. -/
inductive Quoted (mark : Char) : List Char → Prop where
  | nil : Quoted mark []
  | plain {c : Char} {rest : List Char} (noMark : c ≠ mark) (noBackslash : c ≠ '\\')
      (quoted : Quoted mark rest) : Quoted mark (c :: rest)
  | escape {c : Char} {rest : List Char} (quoted : Quoted mark rest) :
      Quoted mark ('\\' :: c :: rest)

/-- A text in which the brackets outside of quoted stretches are balanced and every quoted stretch
is closed. Brackets within the quotes do not count, and quotes of another kind do not end a stretch.
The constructors read the text from the left, so a balanced text is split in one way only. -/
inductive Balanced (opening closing : Char) : List Char → Prop where
  | nil : Balanced opening closing []
  | plain {c : Char} {rest : List Char} (noQuote : isQuote c = false) (noOpening : c ≠ opening)
      (noClosing : c ≠ closing) (balanced : Balanced opening closing rest) :
      Balanced opening closing (c :: rest)
  | quotes {mark : Char} {inner rest : List Char} (isMark : isQuote mark = true)
      (quoted : Quoted mark inner) (balanced : Balanced opening closing rest) :
      Balanced opening closing (mark :: inner ++ mark :: rest)
  | group {inner rest : List Char} (within : Balanced opening closing inner)
      (balanced : Balanced opening closing rest) :
      Balanced opening closing (opening :: inner ++ closing :: rest)

/-- A text that closes the given number of brackets and is balanced apart from that. It says what is
left to read when a scan has gone past some opening brackets: a balanced front for each bracket
still open, and a balanced rest behind the last of them. -/
inductive Closes (opening closing : Char) : Nat → List Char → Prop where
  | done {text : List Char} (balanced : Balanced opening closing text) :
      Closes opening closing 0 text
  | close {front rest : List Char} {depth : Nat} (balanced : Balanced opening closing front)
      (closes : Closes opening closing depth rest) :
      Closes opening closing (depth + 1) (front ++ closing :: rest)

section Balance

/-- Two balanced texts make up a balanced text. The induction is on the first text, since the second
one only ever stands behind it. -/
theorem Balanced.append (balanced : Balanced opening closing front)
    (continues : Balanced opening closing rest) : Balanced opening closing (front ++ rest) := by
  induction balanced with
  | nil => exact continues
  | plain noQuote noOpening noClosing _ inductionHypothesis =>
    exact .plain noQuote noOpening noClosing inductionHypothesis
  | quotes isMark quoted _ inductionHypothesis =>
    rw [List.append_assoc, List.cons_append]
    exact .quotes isMark quoted inductionHypothesis
  | group within _ _ inductionHypothesis =>
    rw [List.append_assoc, List.cons_append]
    exact .group within inductionHypothesis

/-- A text without quotes and brackets is balanced. Names and types without any nesting are of this
kind, so no text in common use needs a derivation of its own. -/
theorem balanced_of_plain
    (plain : ∀ c ∈ text, isQuote c = false ∧ c ≠ opening ∧ c ≠ closing) :
    Balanced opening closing text := by
  induction text with
  | nil => exact .nil
  | cons c rest inductionHypothesis =>
    obtain ⟨⟨noQuote, noOpening, noClosing⟩, others⟩ := List.forall_mem_cons.mp plain
    exact .plain noQuote noOpening noClosing (inductionHypothesis others)

/-- A balanced text can be put before a text that closes brackets. The balanced text is absorbed by
the front before the first bracket that is closed, or by the whole text where none is. -/
theorem Closes.prepend (balanced : Balanced opening closing front)
    (closes : Closes opening closing depth rest) :
    Closes opening closing depth (front ++ rest) := by
  cases closes with
  | done continues => exact .done (balanced.append continues)
  | close continues closes =>
    rw [← List.append_assoc]
    exact .close (balanced.append continues) closes

/-- An opening bracket leaves one bracket less to be closed by the whole. The bracket forms a group
with what comes before the first closing one, and the group then belongs to the front of the next
bracket. This is the step by which a text is put together from its end. -/
theorem Closes.open (closes : Closes opening closing (depth + 1) rest) :
    Closes opening closing depth (opening :: rest) := by
  cases closes with
  | close balanced closes =>
    have group : Balanced opening closing (opening :: _ ++ closing :: []) := .group balanced .nil
    simpa using closes.prepend group

end Balance

section Scanning

/-- Where a scan stands behind a character. There is no such place behind the bracket that closes
the group. The state consists of the number of brackets open beside that of the group and of the way
in which the scan is quoting. -/
def scanStep (opening closing : Char) (depth : Nat) (quoting : Quoting) (c : Char) :
    Option (Nat × Quoting) :=
  match quoting with
  | .escaped mark => some (depth, .inside mark)
  | .inside mark =>
    if c = '\\' then some (depth, .escaped mark)
    else if c = mark then some (depth, .outside)
    else some (depth, .inside mark)
  | .outside =>
    if isQuote c then some (depth, .inside c)
    else if c = opening then some (depth + 1, .outside)
    else if c = closing then
      match depth with
      | 0 => none
      | outer + 1 => some (outer, .outside)
    else some (depth, .outside)

/-- Where a scan stands behind a text that does not close the group. The scan itself also collects
the characters of the group; this is left out here, because it depends on the states only through
the place where the scan ends. -/
def scanOver (opening closing : Char) (depth : Nat) (quoting : Quoting) :
    List Char → Option (Nat × Quoting)
  | [] => some (depth, quoting)
  | c :: rest =>
    match scanStep opening closing depth quoting c with
    | some (depth, quoting) => scanOver opening closing depth quoting rest
    | none => none

/-- A scan keeps the characters that it passes over and ends at the one that it does not. It
separates what a character does to the state from what is collected, and it is the only place where
the definition of the scan is unfolded. -/
theorem scan_group_cons :
    scanGroup opening closing depth quoting (c :: rest) =
      match scanStep opening closing depth quoting c with
      | some (depth, quoting) =>
        (scanGroup opening closing depth quoting rest).map fun (content, after) =>
          (c :: content, after)
      | none => some ([], rest) := by
  rw [scanGroup.eq_def, scanStep.eq_def]
  cases quoting with
  | escaped mark => rfl
  | inside mark =>
    dsimp only
    split
    · rfl
    · split <;> rfl
  | outside =>
    dsimp only
    split
    · rfl
    · split
      · rfl
      · split
        · cases depth <;> rfl
        · rfl

/-- A scan ends at the closing bracket outside of quotes when no other bracket is open, and nowhere
else. In all other states the bracket is a character like others. That the brackets are different is
needed here: an opening bracket always opens. -/
theorem scan_step_eq_none_iff (pair : IsBracketPair opening closing) :
    scanStep opening closing depth quoting c = none ↔
      depth = 0 ∧ quoting = .outside ∧ c = closing := by
  cases quoting with
  | escaped mark => simp [scanStep]
  | inside mark =>
    simp only [scanStep]
    split
    · simp
    · split <;> simp
  | outside =>
    by_cases closes : c = closing
    · subst closes
      cases depth <;> simp [scanStep, pair.closesNoQuote, pair.distinct.symm]
    · simp only [scanStep, closes, if_false]
      split
      · simp
      · split <;> simp

/-- A scan finds the closing bracket exactly behind the texts that lead it out of all other brackets
and quotes. The characters that were passed over are the content, and what stands behind the closing
bracket is left as it is. -/
theorem scan_group_eq_some_iff (pair : IsBracketPair opening closing) :
    scanGroup opening closing depth quoting text = some (content, after) ↔
      text = content ++ closing :: after ∧
        scanOver opening closing depth quoting content = some (0, .outside) := by
  induction text generalizing depth quoting content with
  | nil => simp [scanGroup]
  | cons c rest inductionHypothesis =>
    rw [scan_group_cons]
    cases content with
    | nil =>
      rw [scanOver, List.nil_append, List.cons.injEq, Option.some.injEq, Prod.mk.injEq]
      cases step : scanStep opening closing depth quoting c with
      | none =>
        obtain ⟨rfl, rfl, rfl⟩ := (scan_step_eq_none_iff pair).mp step
        simp
      | some state =>
        have goesOn := mt (scan_step_eq_none_iff pair).mpr (step ▸ Option.some_ne_none state)
        simp only [Option.map_eq_some_iff, Prod.mk.injEq, reduceCtorEq, false_and, and_false,
          exists_false, false_iff]
        rintro ⟨⟨rfl, _⟩, rfl, rfl⟩
        exact goesOn ⟨rfl, rfl, rfl⟩
    | cons d content =>
      by_cases same : c = d
      · subst same
        rw [scanOver]
        cases step : scanStep opening closing depth quoting c with
        | none => simp
        | some state => simp [inductionHypothesis]
      · cases step : scanStep opening closing depth quoting c with
        | none => simp [same]
        | some state => simp [same]

/-- A scan goes on behind a character where the character leads it. It is stated for a character
that does not end the group, which is all that the texts described here consist of. -/
theorem scan_over_cons {state : Nat × Quoting}
    (step : scanStep opening closing depth quoting c = some state) :
    scanOver opening closing depth quoting (c :: rest) =
      scanOver opening closing state.1 state.2 rest := by
  rw [scanOver, step]

/-- A scan goes on behind a text where the text leads it. A text that the scan goes through
therefore acts on the state as a whole, and two texts act one after the other. -/
theorem scan_over_append {state : Nat × Quoting}
    (leads : scanOver opening closing depth quoting front = some state) :
    scanOver opening closing depth quoting (front ++ rest) =
      scanOver opening closing state.1 state.2 rest := by
  induction front generalizing depth quoting with
  | nil =>
    cases leads
    rfl
  | cons c front inductionHypothesis =>
    rw [scanOver] at leads
    cases step : scanStep opening closing depth quoting c with
    | none => simp [step] at leads
    | some reached =>
      rw [step] at leads
      rw [List.cons_append, scan_over_cons step]
      exact inductionHypothesis leads

/-- A quoted stretch leads a scan to the closing quote and out of quotes behind it. The depth stays
what it was, since brackets are not counted within quotes. -/
theorem scan_over_quoted (isMark : isQuote mark = true) (quoted : Quoted mark text) :
    scanOver opening closing depth (.inside mark) (text ++ [mark]) = some (depth, .outside) := by
  induction quoted with
  | nil =>
    have noBackslash : mark ≠ '\\' := by
      rintro rfl
      exact absurd isMark (by decide)
    simp [scanOver, scanStep, noBackslash]
  | plain noMark noBackslash _ inductionHypothesis =>
    simpa [scanOver, scanStep, noMark, noBackslash] using inductionHypothesis
  | escape _ inductionHypothesis =>
    simpa [scanOver, scanStep] using inductionHypothesis

/-- A balanced text leaves a scan outside of quotes where it was. The depth is left open in the
induction, because the text inside a group is passed over one bracket deeper. -/
theorem scan_over_balanced (pair : IsBracketPair opening closing)
    (balanced : Balanced opening closing text) :
    scanOver opening closing depth .outside text = some (depth, .outside) := by
  induction balanced generalizing depth with
  | nil => rfl
  | plain noQuote noOpening noClosing _ inductionHypothesis =>
    simpa [scanOver, scanStep, noQuote, noOpening, noClosing] using inductionHypothesis
  | @quotes mark inner rest isMark quoted _ inductionHypothesis =>
    have enters : scanStep opening closing depth .outside mark = some (depth, .inside mark) := by
      simp [scanStep, isMark]
    rw [List.cons_append, scan_over_cons enters, List.append_cons,
      scan_over_append (scan_over_quoted isMark quoted)]
    exact inductionHypothesis
  | @group inner rest _ _ within inductionHypothesis =>
    have opens : scanStep opening closing depth .outside opening = some (depth + 1, .outside) := by
      simp [scanStep, pair.opensNoQuote]
    have closes : scanStep opening closing (depth + 1) .outside closing =
        some (depth, .outside) := by
      simp [scanStep, pair.closesNoQuote, pair.distinct.symm]
    rw [List.cons_append, scan_over_cons opens, scan_over_append within, scan_over_cons closes]
    exact inductionHypothesis

/-- The ways in which a scan passes over a character. -/
inductive Passes (opening closing : Char) : Nat → Quoting → Char → Nat → Quoting → Prop where
  | escaped {depth : Nat} {mark c : Char} :
      Passes opening closing depth (.escaped mark) c depth (.inside mark)
  | backslash {depth : Nat} {mark : Char} :
      Passes opening closing depth (.inside mark) '\\' depth (.escaped mark)
  | unquote {depth : Nat} {mark : Char} :
      Passes opening closing depth (.inside mark) mark depth .outside
  | quoted {depth : Nat} {mark c : Char} (noMark : c ≠ mark) (noBackslash : c ≠ '\\') :
      Passes opening closing depth (.inside mark) c depth (.inside mark)
  | quote {depth : Nat} {c : Char} (isMark : isQuote c = true) :
      Passes opening closing depth .outside c depth (.inside c)
  | opens {depth : Nat} : Passes opening closing depth .outside opening (depth + 1) .outside
  | closes {depth : Nat} : Passes opening closing (depth + 1) .outside closing depth .outside
  | plain {depth : Nat} {c : Char} (noQuote : isQuote c = false) (noOpening : c ≠ opening)
      (noClosing : c ≠ closing) : Passes opening closing depth .outside c depth .outside

/-- There are no other ways. The constructors name the cases, so that a proof about the scan splits
on them and not on the nested conditions of the definition. -/
theorem passes_of_scan_step {state : Nat × Quoting}
    (step : scanStep opening closing depth quoting c = some state) :
    Passes opening closing depth quoting c state.1 state.2 := by
  cases quoting with
  | escaped mark =>
    cases step
    exact .escaped
  | inside mark =>
    simp only [scanStep] at step
    split at step
    · next escapes =>
      cases step
      exact escapes ▸ .backslash
    · next noBackslash =>
      split at step
      · next ends =>
        cases step
        exact ends ▸ .unquote
      · next noMark =>
        cases step
        exact .quoted noMark noBackslash
  | outside =>
    simp only [scanStep] at step
    split at step
    · next isMark =>
      cases step
      exact .quote isMark
    · next noQuote =>
      split at step
      · next opens =>
        cases step
        exact opens ▸ .opens
      · next noOpening =>
        split at step
        · next closes =>
          cases depth with
          | zero => cases step
          | succ depth =>
            cases step
            exact closes ▸ .closes
        · next noClosing =>
          cases step
          exact .plain (Bool.not_eq_true _ ▸ noQuote) noOpening noClosing

/-- What is left of a text for a scan that starts with some brackets open and in some state of
quoting, if the text closes all of them. Within quotes the stretch must first come to its end;
behind a backslash one more character belongs to it, whatever it is. -/
def ClosesFrom (opening closing : Char) (depth : Nat) : Quoting → List Char → Prop
  | .outside, text => Closes opening closing depth text
  | .inside mark, text => ∃ inner rest, text = inner ++ mark :: rest ∧ Quoted mark inner ∧
      Closes opening closing depth rest
  | .escaped mark, text => ∃ c inner rest, text = c :: inner ++ mark :: rest ∧ Quoted mark inner ∧
      Closes opening closing depth rest

/-- A text that leads a scan out of all brackets and quotes closes them. The text is put together
from its end: each character is put before what the rest of the text closes, and the cases are those
in which a scan passes over a character. -/
theorem closes_from_of_scan_over
    (leads : scanOver opening closing depth quoting text = some (0, .outside)) :
    ClosesFrom opening closing depth quoting text := by
  -- The depth and the quoting change from one character to the next, so both are left open.
  induction text generalizing depth quoting with
  | nil =>
    cases leads
    exact .done .nil
  | cons c rest inductionHypothesis =>
    obtain ⟨⟨reached, state⟩, step⟩ :
        ∃ state, scanStep opening closing depth quoting c = some state := by
      rw [← Option.isSome_iff_exists, Option.isSome_iff_ne_none]
      intro stops
      rw [scanOver, stops] at leads
      cases leads
    rw [scan_over_cons step] at leads
    have closes := inductionHypothesis leads
    cases passes_of_scan_step step with
    | escaped =>
      obtain ⟨inner, others, rfl, quoted, closes⟩ := closes
      exact ⟨c, inner, others, rfl, quoted, closes⟩
    | backslash =>
      obtain ⟨next, inner, others, rfl, quoted, closes⟩ := closes
      exact ⟨'\\' :: next :: inner, others, rfl, .escape quoted, closes⟩
    | unquote => exact ⟨[], rest, rfl, .nil, closes⟩
    | quoted noMark noBackslash =>
      obtain ⟨inner, others, rfl, quoted, closes⟩ := closes
      exact ⟨c :: inner, others, rfl, .plain noMark noBackslash quoted, closes⟩
    | quote isMark =>
      obtain ⟨inner, others, rfl, quoted, closes⟩ := closes
      have stretch : Balanced opening closing (c :: inner ++ [c]) := .quotes isMark quoted .nil
      have whole := closes.prepend stretch
      rwa [List.append_assoc] at whole
    | opens => exact closes.open
    | closes => exact .close .nil closes
    | plain noQuote noOpening noClosing =>
      have single : Balanced opening closing [c] := .plain noQuote noOpening noClosing .nil
      exact closes.prepend single

end Scanning

section Groups

/-- A text is balanced exactly when a scan comes out of it where it went in. So balance can be
decided by a scan, without looking for a derivation. -/
theorem balanced_iff (pair : IsBracketPair opening closing) :
    Balanced opening closing text ↔
      scanOver opening closing 0 .outside text = some (0, .outside) := by
  refine ⟨scan_over_balanced pair, fun leads => ?_⟩
  -- Outside of quotes and with no bracket open, to close what is open is to be balanced.
  have closes : Closes opening closing 0 text := closes_from_of_scan_over leads
  cases closes with
  | done balanced => exact balanced

instance (text : List Char) : Decidable (Balanced '{' '}' text) :=
  decidable_of_iff _ (balanced_iff braces).symm

instance (text : List Char) : Decidable (Balanced '[' ']' text) :=
  decidable_of_iff _ (balanced_iff brackets).symm

/-- A text begins with a group exactly when a balanced text stands between its brackets. The scan
starts behind the opening bracket with no other one open, which is why the content must be balanced
by itself. -/
theorem split_group_eq_found_iff (pair : IsBracketPair opening closing) :
    splitGroup opening closing text = .found content after ↔
      text = opening :: content ++ closing :: after ∧ Balanced opening closing content := by
  cases text with
  | nil => simp [splitGroup]
  | cons c rest =>
    rw [splitGroup, balanced_iff pair, List.cons_append, List.cons.injEq, and_assoc,
      ← scan_group_eq_some_iff pair]
    split
    · next opens =>
      cases scanGroup opening closing 0 .outside rest with
      | none => simp
      | some parts => simp [opens, Prod.ext_iff]
    · next other => simp [other]

/-- There is only one way to split a text behind a group. Both ways are found by the same scan, and
the scan gives one result. No induction on the texts is needed. -/
theorem group_unique {other remaining : List Char} (pair : IsBracketPair opening closing)
    (balanced : Balanced opening closing content) (alike : Balanced opening closing other)
    (same : opening :: content ++ closing :: after = opening :: other ++ closing :: remaining) :
    content = other ∧ after = remaining := by
  have first := (split_group_eq_found_iff pair).mpr ⟨same.symm, balanced⟩
  have second := (split_group_eq_found_iff pair).mpr
    ⟨Eq.refl (opening :: other ++ closing :: remaining), alike⟩
  exact Group.found.inj (first.symm.trans second)

/-- There is no group exactly where the opening bracket is missing. With an opening bracket there is
a group or one that is never closed, and the two are told apart by the scan. -/
theorem split_group_eq_absent_iff :
    splitGroup opening closing text = .absent ↔ text.head? ≠ some opening := by
  cases text with
  | nil => simp [splitGroup]
  | cons c rest =>
    rw [splitGroup, List.head?_cons, ne_eq, Option.some.injEq]
    split
    · next opens =>
      cases scanGroup opening closing 0 .outside rest <;> simp [opens]
    · next other => simp [other]

end Groups

end DocGraph.Comment
