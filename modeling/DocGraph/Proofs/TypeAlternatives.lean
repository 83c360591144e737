import DocGraph.Comment.Group
import DocGraph.Draft.Overload
import DocGraph.Proofs.Collecting
import DocGraph.Proofs.Cutting
import DocGraph.Proofs.Trimming

/-!
# The alternatives of a type

A bar separates the alternatives of a type where it stands outside of brackets and quotes. Two types
are joined without regard to this: they are cut at every bar, and the fragments that are already
there are left out. What comes out is written with one space on both sides of each bar.

The joined type has the alternatives of both types exactly if uniting the fragments is uniting the
alternatives, and if the alternatives were written with single spaces in the first place. This is
the case when no alternative holds a bar. Where two types share a fragment and not the whole
alternative around it, the joined type may not even have its brackets balanced.

Bars are looked for by an automaton that follows brackets and quotes. What trimming and spacing
change are blanks next to bars, and these do not matter to the automaton, since both lead to the
same place. This carries the matching of brackets over from the parts to the joined text.
-/

namespace DocGraph.Draft

open Text Comment

/-- Where a reading of a type stands. Outside of quotes, behind an equals sign `>` belongs to an
arrow. An arrow has to be told from a closing bracket, since function types are common in type
arguments. -/
inductive TypeScan where
  /-- Inside the brackets that are closed by the given ones, the innermost first. -/
  | code (closers : List Char) (behindEquals : Bool)
  /-- Inside quotes, and there possibly behind a backslash. -/
  | quoted (closers : List Char) (mark : Char) (isMark : isQuote mark = true) (escaped : Bool)

namespace TypeScan

variable {scan next : TypeScan} {c : Char} {text front back tail piece : List Char}
  {pieces : List (List Char)}

/-- The start of a type. -/
def start : TypeScan := .code [] false

/-- Whether a place is outside of brackets and quotes. -/
def isTop : TypeScan → Bool
  | .code [] _ => true
  | _ => false

/-- The bracket that closes a given one. -/
def closerOf? : Char → Option Char
  | '(' => some ')'
  | '[' => some ']'
  | '{' => some '}'
  | '<' => some '>'
  | _ => none

/-- Whether a character is a closing bracket. -/
def isCloser (c : Char) : Bool := c = ')' || c = ']' || c = '}' || c = '>'

/-- Where the reading stands behind a character. There is no such place behind a bracket that does
not close the innermost open one. Quotes are not nested, and in them only the closing mark and
backslashes count. -/
def step : TypeScan → Char → Option TypeScan
  | .quoted closers mark isMark true, _ => some (.quoted closers mark isMark false)
  | .quoted closers mark isMark false, c =>
    if c = mark then some (.code closers false)
    else some (.quoted closers mark isMark (c = '\\'))
  | .code closers behindEquals, c =>
    if isMark : isQuote c = true then some (.quoted closers c isMark false)
    else
      match closerOf? c with
      | some closer => some (.code (closer :: closers) false)
      | none =>
        if isCloser c && !(behindEquals && c = '>') then
          match closers with
          | innermost :: outer => if c = innermost then some (.code outer false) else none
          | [] => none
        else some (.code closers (c = '='))

/-- The pieces of a text between the bars outside of brackets and quotes. There are none if brackets
or quotes do not match. It is the independent reading of a type that the joining is measured by. -/
def splitTop (scan : TypeScan) : List Char → Option (List (List Char))
  | [] => if scan.isTop then some [[]] else none
  | c :: rest =>
    if c = '|' && scan.isTop then (splitTop start rest).map ([] :: ·)
    else (scan.step c).bind fun next => (next.splitTop rest).map (List.modifyHead (c :: ·))

/-- Whether brackets and quotes match in a text and no bar stands outside of them. A whole text from
the start is one alternative, up to blanks. -/
def isWhole (scan : TypeScan) : List Char → Bool
  | [] => scan.isTop
  | c :: rest => !(c = '|' && scan.isTop) && (scan.step c).any fun next => next.isWhole rest

/-- The same place, not behind an equals sign or a backslash. The two readings differ at most in the
next character. -/
def calm : TypeScan → TypeScan
  | .code closers _ => .code closers false
  | .quoted closers mark isMark _ => .quoted closers mark isMark false

end TypeScan

open TypeScan

/-- The alternatives of a type, trimmed. There are none if its brackets or quotes do not match. A
type with brackets that do not match has no alternatives to speak of. -/
def topAlternatives? (text : List Char) : Option (List (List Char)) :=
  (start.splitTop text).map fun pieces => pieces.map trim

/-- What stands between any bars of a text, trimmed. These are what the joining goes by. -/
def fragments (text : List Char) : List (List Char) := (text.splitOn '|').map trim

/-- Texts with bars between them, set off by single spaces. -/
def spread (parts : List (List Char)) : List Char := [' ', '|', ' '].intercalate parts

/-- A text with every bar in it set off by single spaces. A type is written in this form after it
was joined, whatever its own spacing was. -/
def respaced (text : List Char) : List Char := trim (spread (fragments text))

/-- Texts, and those of others that are not already there. The first texts are kept as they are,
even when they repeat. -/
def unite (present others : List (List Char)) : List (List Char) :=
  present ++ (others.filter fun part => part ∉ present).eraseDups

namespace TypeScan

variable {scan next : TypeScan} {c : Char} {text front back tail piece : List Char}
  {pieces : List (List Char)}

section Calm

/-- Whether a character means something in a type apart from separating alternatives. A bar is no
sign: inside of brackets it means nothing, and outside it ends the piece. -/
def isSign (c : Char) : Bool :=
  isQuote c || (closerOf? c).isSome || isCloser c || c = '=' || c = '\\'

/-- A calm place is at the top where the place itself is. -/
theorem is_top_calm (scan : TypeScan) : scan.calm.isTop = scan.isTop := by
  rcases scan with ⟨_ | _, _⟩ | _ <;> rfl

/-- A calm place is calm. -/
theorem calm_calm (scan : TypeScan) : scan.calm.calm = scan.calm := by
  cases scan <;> rfl

/-- Behind a character without a meaning the place is calm. So such characters may be dropped or
added between others. -/
theorem step_of_plain (plain : isSign c = false) : scan.step c = some scan.calm := by
  simp only [isSign, Bool.or_eq_false_iff, decide_eq_false_iff_not, Option.isSome_eq_false_iff,
    Option.isNone_iff_eq_none] at plain
  obtain ⟨⟨⟨⟨noQuote, opensNothing⟩, closesNothing⟩, noEquals⟩, noBackslash⟩ := plain
  match scan with
  | .quoted closers mark isMark true => rfl
  | .quoted closers mark isMark false =>
    have noMark : c ≠ mark := by
      rintro rfl
      cases isMark.symm.trans noQuote
    simp [step, calm, noMark, noBackslash]
  | .code closers behindEquals => simp [step, calm, noQuote, opensNothing, closesNothing, noEquals]

/-- An opening bracket is no blank. -/
theorem is_blank_of_closer_of? (opens : (closerOf? c).isSome = true) : isBlank c = false := by
  unfold closerOf? at opens
  split at opens
  case h_5 => cases opens
  all_goals rfl

/-- A blank has no meaning. -/
theorem is_sign_of_is_blank (blank : isBlank c = true) : isSign c = false := by
  by_contra sign
  simp only [isSign, isQuote, isCloser, Bool.not_eq_false, Bool.or_eq_true,
    decide_eq_true_eq] at sign
  have solid : isBlank c = false := by
    rcases sign with (((quote | opens) | closer) | rfl) | rfl
    · rcases quote with (rfl | rfl) | rfl <;> rfl
    · exact is_blank_of_closer_of? opens
    · rcases closer with ((rfl | rfl) | rfl) | rfl <;> rfl
    · rfl
    · rfl
  cases blank.symm.trans solid

/-- A blank leads to a calm place. It is one of the two facts on which respacing rests. -/
theorem step_of_is_blank (blank : isBlank c = true) : scan.step c = some scan.calm :=
  step_of_plain (is_sign_of_is_blank blank)

/-- A bar leads to a calm place. It is the other fact: blanks next to a bar do not change what is
behind. -/
theorem step_bar (scan : TypeScan) : scan.step '|' = some scan.calm := step_of_plain (by decide)

end Calm

section Wholes

/-- A whole text begins with no separating bar and goes on whole. It takes a text apart at its first
character. -/
theorem is_whole_cons_iff :
    scan.isWhole (c :: text) = true ↔
      ¬(c = '|' && scan.isTop) = true ∧
        ∃ next, scan.step c = some next ∧ next.isWhole text = true := by
  rw [isWhole, Bool.and_eq_true, Bool.not_eq_true', Bool.not_eq_true]
  cases scan.step c <;> simp

/-- A leading blank does not matter. -/
theorem is_whole_cons_blank (blank : isBlank c = true) :
    scan.isWhole (c :: text) = scan.calm.isWhole text := by
  have noBar : c ≠ '|' := by
    rintro rfl
    cases blank
  simp [isWhole, step_of_is_blank blank, noBar]

/-- What stands behind a bar is read from a calm place. -/
theorem is_whole_cons_bar (text : List Char) :
    scan.isWhole ('|' :: text) = (!scan.isTop && scan.calm.isWhole text) := by
  simp [isWhole, step_bar]

/-- A text that is read alike from a place and from the calm place. Texts that begin with a bar are
of this kind, and so is the empty one. -/
def ReadCalmly (text : List Char) : Prop :=
  ∀ scan : TypeScan, scan.calm.isWhole text = scan.isWhole text

/-- The empty text is read calmly: both places are at the top, or neither is. -/
theorem read_calmly_nil : ReadCalmly [] := is_top_calm

/-- What begins with a bar is read calmly, since a bar leads to a calm place from either one. -/
theorem read_calmly_cons_bar (text : List Char) : ReadCalmly ('|' :: text) := fun scan => by
  rw [is_whole_cons_bar, is_whole_cons_bar, is_top_calm, calm_calm]

/-- A blank before such a text does not matter. The blank may be removed in front of a bar or at the
end, then. -/
theorem is_whole_append_blank (calmly : ReadCalmly tail) (blank : isBlank c = true)
    (front : List Char) : scan.isWhole (front ++ c :: tail) = scan.isWhole (front ++ tail) := by
  induction front generalizing scan with
  | nil => exact (is_whole_cons_blank blank).trans (calmly scan)
  | cons d front inductionHypothesis =>
    simp only [List.cons_append, isWhole, inductionHypothesis]

/-- Where the reading stands calmly, a text may be trimmed. The premise is on what follows, since
trimming at the end takes blanks away in front of it. -/
theorem is_whole_trim_append (calmly : ReadCalmly tail) (scan : TypeScan) (text : List Char) :
    scan.calm.isWhole (trim text ++ tail) = scan.calm.isWhole (text ++ tail) := by
  refine apply_trim (fun text => scan.calm.isWhole (text ++ tail)) (fun c text blank => ?_)
    (fun c text blank => ?_) text
  · rw [List.cons_append, is_whole_cons_blank blank, calm_calm]
  · rw [List.append_assoc]
    exact is_whole_append_blank calmly blank text

/-- What stands behind a bar may be changed to what is read alike from calm places. The text in
front is the same, so the reading gets to the bar alike. -/
theorem is_whole_append_bar_congr
    (alike : ∀ scan : TypeScan, scan.calm.isWhole text = scan.calm.isWhole tail)
    (front : List Char) :
    scan.isWhole (front ++ '|' :: text) = scan.isWhole (front ++ '|' :: tail) := by
  induction front generalizing scan with
  | nil => rw [List.nil_append, List.nil_append, is_whole_cons_bar, is_whole_cons_bar, alike]
  | cons d front inductionHypothesis => simp only [List.cons_append, isWhole, inductionHypothesis]

/-- Bars may be set off by single spaces.

Proof by induction on the pieces: each one is trimmed in front of its bar, and the others are read
from behind the bar. -/
theorem is_whole_spread (pieces : List (List Char)) (scan : TypeScan) :
    scan.calm.isWhole (spread (pieces.map trim)) =
      scan.calm.isWhole (['|'].intercalate pieces) := by
  induction pieces generalizing scan with
  | nil => rfl
  | cons piece pieces inductionHypothesis =>
    cases pieces with
    | nil => simpa [spread] using is_whole_trim_append read_calmly_nil scan piece
    | cons other pieces =>
      have text : spread ((piece :: other :: pieces).map trim) =
          trim piece ++ ' ' :: '|' :: ' ' :: spread ((other :: pieces).map trim) := by
        simp [spread]
      have plain : ['|'].intercalate (piece :: other :: pieces) =
          piece ++ '|' :: ['|'].intercalate (other :: pieces) := by
        simp
      rw [text, plain, is_whole_append_blank (read_calmly_cons_bar _) (by decide),
        is_whole_trim_append (read_calmly_cons_bar _)]
      refine is_whole_append_bar_congr (fun scan => ?_) piece
      rw [is_whole_cons_blank (by decide), calm_calm]
      exact inductionHypothesis scan

end Wholes

section Splitting

/-- A whole text is its only piece. -/
theorem split_top_of_is_whole (whole : scan.isWhole text = true) :
    scan.splitTop text = some [text] := by
  induction text generalizing scan with
  | nil => exact if_pos whole
  | cons c rest inductionHypothesis =>
    obtain ⟨noBar, next, leads, whole⟩ := is_whole_cons_iff.mp whole
    rw [splitTop, if_neg noBar, leads]
    simp [inductionHypothesis whole]

/-- Behind a whole text a bar separates the pieces. The place behind a separating bar is the start
again. -/
theorem split_top_append_bar (whole : scan.isWhole front = true) (back : List Char) :
    scan.splitTop (front ++ '|' :: back) = (start.splitTop back).map (front :: ·) := by
  induction front generalizing scan with
  | nil =>
    have top : scan.isTop = true := whole
    simp [splitTop, top]
  | cons c rest inductionHypothesis =>
    obtain ⟨noBar, next, leads, whole⟩ := is_whole_cons_iff.mp whole
    rw [List.cons_append, splitTop, if_neg noBar, leads]
    simp [inductionHypothesis whole, Function.comp_def]

/-- The first piece is whole from where the reading stands, and the others are from the start. So
the pieces are texts without separating bars. -/
theorem is_whole_of_split_top (split : scan.splitTop text = some pieces) :
    ∃ first rest, pieces = first :: rest ∧ scan.isWhole first = true ∧
      ∀ piece ∈ rest, start.isWhole piece = true := by
  induction text generalizing scan pieces with
  | nil =>
    unfold splitTop at split
    split at split
    · next top =>
      cases split
      exact ⟨[], [], rfl, top, fun _ none => absurd none List.not_mem_nil⟩
    · cases split
  | cons c rest inductionHypothesis =>
    unfold splitTop at split
    split at split
    · next bar =>
      obtain ⟨others, found, rfl⟩ := Option.map_eq_some_iff.mp split
      obtain ⟨first, rest, rfl, own, later⟩ := inductionHypothesis found
      have top : scan.isTop = true := (Bool.and_eq_true_iff.mp bar).2
      exact ⟨[], first :: rest, rfl, top, List.forall_mem_cons.mpr ⟨own, later⟩⟩
    · next noBar =>
      obtain ⟨next, leads, split⟩ := Option.bind_eq_some_iff.mp split
      obtain ⟨others, found, rfl⟩ := Option.map_eq_some_iff.mp split
      obtain ⟨first, rest, rfl, own, later⟩ := inductionHypothesis found
      exact ⟨c :: first, rest, rfl, is_whole_cons_iff.mpr ⟨noBar, next, leads, own⟩, later⟩

/-- To cut the pieces at every bar is to cut the text at every bar. A separating bar is one of the
bars, and the others are within the pieces. -/
theorem split_on_eq_flat_map_of_split_top (split : scan.splitTop text = some pieces) :
    text.splitOn '|' = pieces.flatMap fun piece => piece.splitOn '|' := by
  induction text generalizing scan pieces with
  | nil =>
    unfold splitTop at split
    split at split
    · cases split
      rfl
    · cases split
  | cons c rest inductionHypothesis =>
    unfold splitTop at split
    split at split
    · next bar =>
      obtain ⟨others, found, rfl⟩ := Option.map_eq_some_iff.mp split
      have isBar : c = '|' := of_decide_eq_true (Bool.and_eq_true_iff.mp bar).1
      rw [List.splitOn_cons_eq_if_modifyHead, if_pos (by simpa using isBar),
        inductionHypothesis found]
      rfl
    · obtain ⟨next, leads, split⟩ := Option.bind_eq_some_iff.mp split
      obtain ⟨others, found, rfl⟩ := Option.map_eq_some_iff.mp split
      obtain ⟨first, rest, rfl, -, -⟩ := is_whole_of_split_top found
      have pieces := inductionHypothesis found
      rw [List.flatMap_cons] at pieces
      rw [List.splitOn_cons_eq_if_modifyHead, pieces, List.modifyHead_cons, List.flatMap_cons,
        List.splitOn_cons_eq_if_modifyHead]
      split
      · rfl
      · cases shape : first.splitOn '|' with
        | nil => exact absurd shape (List.splitOn_ne_nil _ _)
        | cons head others => rfl

end Splitting

end TypeScan

variable {text front part : List Char} {parts present added found : List (List Char)}

section Fragments

/-- A type is joined fragment by fragment. The joining knows nothing of brackets. -/
theorem alternatives_eq_fragments (typeText : String) :
    alternatives typeText = fragments typeText.toList :=
  congrArg (List.map trim) (pieces_eq_split_on '|' typeText.toList)

/-- There is always a fragment. -/
theorem fragments_ne_nil (text : List Char) : fragments text ≠ [] :=
  mt List.map_eq_nil_iff.mp (List.splitOn_ne_nil _ _)

/-- A bar ends a fragment. There is no other way for texts to be put together here. -/
theorem fragments_append_bar (front back : List Char) :
    fragments (front ++ '|' :: back) = fragments front ++ fragments back := by
  rw [fragments, List.splitOn_append_cons_self, List.map_append]
  rfl

/-- A leading blank belongs to no fragment. -/
theorem fragments_cons_blank {c : Char} (blank : isBlank c = true) (text : List Char) :
    fragments (c :: text) = fragments text := by
  have noBar : ¬(c == '|') = true := by
    rw [beq_iff_eq]
    rintro rfl
    cases blank
  rw [fragments, List.splitOn_cons_eq_if_modifyHead, if_neg noBar, fragments]
  cases text.splitOn '|' with
  | nil => rfl
  | cons piece others => simp [trim_cons_blank blank]

/-- Behind the last bar a text may go on. It serves to remove a trailing blank. -/
theorem split_on_concat {c : Char} (noBar : c ≠ '|') (text : List Char) :
    ∃ pieces last, text.splitOn '|' = pieces ++ [last] ∧
      (text ++ [c]).splitOn '|' = pieces ++ [last ++ [c]] := by
  induction text with
  | nil => exact ⟨[], [], rfl, by simp [List.splitOn_cons_eq_if_modifyHead, noBar]⟩
  | cons d text inductionHypothesis =>
    obtain ⟨pieces, last, plain, longer⟩ := inductionHypothesis
    rw [List.cons_append, List.splitOn_cons_eq_if_modifyHead, List.splitOn_cons_eq_if_modifyHead,
      plain, longer]
    split
    · exact ⟨[] :: pieces, last, rfl, rfl⟩
    · cases pieces with
      | nil => exact ⟨[], d :: last, rfl, rfl⟩
      | cons first pieces => exact ⟨(d :: first) :: pieces, last, rfl, rfl⟩

/-- A trailing blank belongs to no fragment. -/
theorem fragments_concat_blank {c : Char} (blank : isBlank c = true) (text : List Char) :
    fragments (text ++ [c]) = fragments text := by
  have noBar : c ≠ '|' := by
    rintro rfl
    cases blank
  obtain ⟨pieces, last, plain, longer⟩ := split_on_concat noBar text
  rw [fragments, longer, fragments, plain, List.map_append, List.map_append, List.map_singleton,
    trim_concat_blank blank, List.map_singleton]

/-- Trimming keeps the fragments. It goes by removing one blank at a time. -/
theorem fragments_trim (text : List Char) : fragments (trim text) = fragments text :=
  apply_trim fragments (fun _ text blank => fragments_cons_blank blank text)
    (fun _ text blank => fragments_concat_blank blank text) text

/-- A mark stands between the pieces that it separates. -/
theorem not_mem_of_mem_split_on {mark : Char} (listed : part ∈ text.splitOn mark) :
    mark ∉ part := by
  induction text generalizing part with
  | nil =>
    rw [List.splitOn_nil, List.mem_singleton] at listed
    exact listed ▸ List.not_mem_nil
  | cons c text inductionHypothesis =>
    rw [List.splitOn_cons_eq_if_modifyHead] at listed
    split at listed
    · rcases List.mem_cons.mp listed with rfl | later
      · exact List.not_mem_nil
      · exact inductionHypothesis later
    · next other =>
      cases shape : text.splitOn mark with
      | nil => exact absurd shape (List.splitOn_ne_nil _ _)
      | cons piece others =>
        rw [shape, List.modifyHead_cons] at listed
        rw [shape] at inductionHypothesis
        rcases List.mem_cons.mp listed with rfl | later
        · have apart : mark ≠ c := fun same => other (beq_iff_eq.mpr same.symm)
          exact mt List.mem_cons.mp (not_or.mpr ⟨apart, inductionHypothesis List.mem_cons_self⟩)
        · exact inductionHypothesis (List.mem_cons_of_mem _ later)

/-- A text without bars is its only fragment. -/
theorem fragments_of_not_mem (noBar : '|' ∉ text) : fragments text = [trim text] := by
  have whole : (['|'].intercalate [text]).splitOn '|' = [text] :=
    List.splitOn_intercalate '|' (by simpa using noBar) (List.cons_ne_nil _ _)
  rw [List.intercalate_singleton] at whole
  rw [fragments, whole, List.map_singleton]

/-- A fragment is the only fragment of itself. So fragments are what cutting cannot take apart. -/
theorem fragments_of_mem (listed : part ∈ fragments text) : fragments part = [part] := by
  obtain ⟨piece, among, rfl⟩ := List.mem_map.mp listed
  rw [fragments_trim, fragments_of_not_mem (not_mem_of_mem_split_on among)]

/-- Texts are spread out one after the other. -/
theorem spread_cons_cons (part other : List Char) (parts : List (List Char)) :
    spread (part :: other :: parts) = part ++ ' ' :: '|' :: ' ' :: spread (other :: parts) := by
  simp [spread]

/-- The fragments of texts that are spread out are those of the texts. The spaces belong to no
fragment. -/
theorem fragments_spread (filled : parts ≠ []) :
    fragments (spread parts) = parts.flatMap fragments := by
  induction parts with
  | nil => exact absurd rfl filled
  | cons part parts inductionHypothesis =>
    cases parts with
    | nil => simp [spread]
    | cons other parts =>
      have front : part ++ ' ' :: '|' :: ' ' :: spread (other :: parts) =
          (part ++ [' ']) ++ '|' :: ' ' :: spread (other :: parts) := by simp
      rw [spread_cons_cons, front, fragments_append_bar, fragments_concat_blank (by decide),
        fragments_cons_blank (by decide), inductionHypothesis (List.cons_ne_nil _ _)]
      exact List.flatMap_cons.symm

/-- Two lists of texts are spread out one after the other. -/
theorem spread_append {others : List (List Char)} (filled : parts ≠ []) (more : others ≠ []) :
    spread (parts ++ others) = spread parts ++ ' ' :: '|' :: ' ' :: spread others := by
  induction parts with
  | nil => exact absurd rfl filled
  | cons part parts inductionHypothesis =>
    cases parts with
    | nil =>
      cases others with
      | nil => exact absurd rfl more
      | cons other others => simp [spread]
    | cons next parts =>
      rw [List.cons_append, List.cons_append, spread_cons_cons, ← List.cons_append,
        inductionHypothesis (List.cons_ne_nil _ _), spread_cons_cons]
      simp

/-- Texts are spread out as their fragments are. A text with several fragments is spread out with
the others. -/
theorem spread_flat_map_fragments (parts : List (List Char)) :
    spread (parts.flatMap fragments) = spread (parts.map fun part => spread (fragments part)) := by
  induction parts with
  | nil => rfl
  | cons part parts inductionHypothesis =>
    cases parts with
    | nil => simp [spread]
    | cons other parts =>
      have more : (other :: parts).flatMap fragments ≠ [] := by
        rw [List.flatMap_cons]
        exact List.append_ne_nil_of_left_ne_nil (fragments_ne_nil other) _
      rw [List.flatMap_cons, spread_append (fragments_ne_nil part) more, inductionHypothesis]
      exact (spread_cons_cons _ _ _).symm

end Fragments

section Alternatives

/-- An alternative is a trimmed text in which brackets and quotes match and no bar stands outside of
them. These are what a type has between its separating bars. -/
structure IsAlternative (text : List Char) : Prop where
  trimmed : trim text = text
  whole : start.isWhole text = true

/-- The alternatives of a type have its fragments, and there is one at least. It is all that the
main statement needs to know of the two types. -/
theorem of_top_alternatives? (split : topAlternatives? text = some found) :
    found ≠ [] ∧ (∀ alternative ∈ found, IsAlternative alternative) ∧
      fragments text = found.flatMap fragments := by
  obtain ⟨pieces, pieced, rfl⟩ := Option.map_eq_some_iff.mp split
  obtain ⟨first, rest, shape, own, later⟩ := is_whole_of_split_top pieced
  refine ⟨?_, ?_, ?_⟩
  · rw [shape]
    exact List.cons_ne_nil _ _
  · rw [List.forall_mem_map]
    intro piece listed
    have whole : start.isWhole piece = true := by
      rw [shape] at listed
      rcases List.mem_cons.mp listed with rfl | among
      · exact own
      · exact later piece among
    have trimmed := is_whole_trim_append read_calmly_nil start piece
    rw [List.append_nil, List.append_nil] at trimmed
    exact ⟨trim_trim piece, trimmed.trans whole⟩
  · rw [fragments, split_on_eq_flat_map_of_split_top pieced, List.map_flatMap, List.flatMap_map]
    exact List.flatMap_congr fun piece _ => (fragments_trim piece).symm

/-- Texts that are whole are the alternatives when they are spread out.

Proof by induction on the texts: each one ends in front of a separating bar. -/
theorem top_alternatives?_spread (filled : parts ≠ [])
    (whole : ∀ part ∈ parts, start.isWhole part = true) :
    topAlternatives? (spread parts) = some (parts.map trim) := by
  induction parts with
  | nil => exact absurd rfl filled
  | cons part parts inductionHypothesis =>
    obtain ⟨own, later⟩ := List.forall_mem_cons.mp whole
    cases parts with
    | nil =>
      rw [spread, List.intercalate_singleton, topAlternatives?, split_top_of_is_whole own]
      rfl
    | cons other parts =>
      have front : part ++ ' ' :: '|' :: ' ' :: spread (other :: parts) =
          (part ++ [' ']) ++ '|' :: ' ' :: spread (other :: parts) := by simp
      have spaced : start.isWhole (part ++ [' ']) = true := by
        rw [is_whole_append_blank read_calmly_nil (by decide), List.append_nil]
        exact own
      have behind (text : List Char) : start.splitTop (' ' :: text) =
          (start.splitTop text).map (List.modifyHead (' ' :: ·)) := rfl
      have rest := inductionHypothesis (List.cons_ne_nil _ _) later
      obtain ⟨pieces, pieced, same⟩ := Option.map_eq_some_iff.mp rest
      have blank : (pieces.modifyHead (' ' :: ·)).map trim = pieces.map trim := by
        cases pieces with
        | nil => rfl
        | cons piece others => simp [trim_cons_blank (by decide : isBlank ' ' = true)]
      rw [spread_cons_cons, front, topAlternatives?, split_top_append_bar spaced, behind, pieced]
      simp only [Option.map_some, List.map_cons, blank, same,
        trim_concat_blank (by decide : isBlank ' ' = true)]

/-- An alternative stays whole when its bars are set off by single spaces. Only blanks next to bars
are changed. -/
theorem IsAlternative.whole_spread (alternative : IsAlternative text) :
    start.isWhole (spread (fragments text)) = true := by
  have same := is_whole_spread (text.splitOn '|') start
  rw [List.intercalate_splitOn] at same
  exact same.trans alternative.whole

/-- United texts are those of both sides. The order is not spoken of here. -/
theorem mem_unite : part ∈ unite present added ↔ part ∈ present ∨ part ∈ added := by
  simp only [unite, List.mem_append, List.mem_eraseDups, List.mem_filter, decide_eq_true_eq]
  constructor
  · exact Or.imp_right And.left
  · rintro (there | listed)
    · exact .inl there
    · by_cases there : part ∈ present
      · exact .inl there
      · exact .inr ⟨listed, there⟩

/-- United texts are not none if those of the first side are not. -/
theorem unite_ne_nil (filled : present ≠ []) : unite present added ≠ [] :=
  List.append_ne_nil_of_left_ne_nil filled _

/-- The united fragments of two texts can be read off the text that is spread out from them. So the
joined type can be asked for its fragments. -/
theorem fragments_spread_unite (one other : List Char) :
    fragments (spread (unite (fragments one) (fragments other))) =
      unite (fragments one) (fragments other) := by
  have single : ∀ part ∈ unite (fragments one) (fragments other), fragments part = [part] := by
    intro part listed
    rcases mem_unite.mp listed with own | new
    · exact fragments_of_mem own
    · exact fragments_of_mem new
  rw [fragments_spread (unite_ne_nil (fragments_ne_nil one)), List.flatMap_congr single,
    List.flatMap_singleton']

/-- Types are joined by uniting their fragments. The walk over the fragments of the second type is
collecting without repetition. -/
theorem join_types_eq (one other : String) :
    joinTypes (some one) (some other) =
      some (String.ofList (spread (unite (fragments one.toList) (fragments other.toList)))) := by
  have walk : (fun (parts : List (List Char)) part =>
      if parts.contains part then parts else parts ++ [part]) = collectByKey id keepEntry := by
    funext parts part
    by_cases there : part ∈ parts
    · rw [collect_by_key_keep_entry_of_mem (by simpa using there), if_pos (by simpa using there)]
    · rw [collect_by_key_of_not_mem (by simpa using there), if_neg (by simpa using there)]
  have united (parts others : List (List Char)) :
      others.foldl (collectByKey id keepEntry) parts = unite parts others := by
    have keys := map_key_collected id keepEntry (fun _ _ => rfl)
      (others.filter fun part => part ∉ parts)
    rw [List.map_id, List.map_id] at keys
    rw [foldl_collect_by_key_keep_entry, unite, ← keys, List.map_id]
    rfl
  rw [joinTypes, walk, united, alternatives_eq_fragments, alternatives_eq_fragments]
  rfl

/-- Where uniting the fragments unites the alternatives, the joined type has these alternatives with
their bars set off by single spaces. It is the direction in which the joined type is as it should
be. -/
theorem top_alternatives?_spread_fragments (filled : found ≠ [])
    (alternatives : ∀ alternative ∈ found, IsAlternative alternative) :
    topAlternatives? (spread (found.flatMap fragments)) = some (found.map respaced) := by
  have whole : ∀ part ∈ found.map (fun part => spread (fragments part)),
      start.isWhole part = true :=
    List.forall_mem_map.mpr fun part listed => (alternatives part listed).whole_spread
  rw [spread_flat_map_fragments, top_alternatives?_spread (mt List.map_eq_nil_iff.mp filled) whole,
    List.map_map]
  rfl

/-- Alternatives without bars are their own fragments. For such types cutting at every bar is
right. -/
theorem flat_map_fragments_of_not_mem
    (alternatives : ∀ alternative ∈ found, IsAlternative alternative)
    (noBars : ∀ alternative ∈ found, '|' ∉ alternative) : found.flatMap fragments = found := by
  have single : ∀ alternative ∈ found, fragments alternative = [alternative] := by
    intro alternative listed
    rw [fragments_of_not_mem (noBars alternative listed), (alternatives alternative listed).trimmed]
  rw [List.flatMap_congr single, List.flatMap_singleton']

end Alternatives

/-- **When the joined type has the alternatives of both.** Two types with matching brackets and
quotes are always joined. The joined type has matching brackets and quotes again, and as its
alternatives those of the first and the missing ones of the second, exactly if uniting the fragments
between any bars is uniting the alternatives, and each alternative has its own bars set off by
single spaces. In particular it does if no alternative holds a bar.

Proof: the joined type is the united fragments, spread out. If these are the fragments of the united
alternatives, then the joined type has the alternatives with their bars respaced. Conversely the
fragments of a type are those of its alternatives, so they can be compared. -/
theorem join_types_unites_iff {one other : String}
    (ofOne : topAlternatives? one.toList = some present)
    (ofOther : topAlternatives? other.toList = some added) :
    ∃ joined, joinTypes (some one) (some other) = some joined ∧
      (topAlternatives? joined.toList = some (unite present added) ↔
        unite (present.flatMap fragments) (added.flatMap fragments) =
            (unite present added).flatMap fragments ∧
          ∀ alternative ∈ unite present added, respaced alternative = alternative) ∧
      ((∀ alternative ∈ unite present added, '|' ∉ alternative) →
        topAlternatives? joined.toList = some (unite present added)) := by
  obtain ⟨filled, ownParts, ownFragments⟩ := of_top_alternatives? ofOne
  obtain ⟨-, otherParts, otherFragments⟩ := of_top_alternatives? ofOther
  have alternatives : ∀ alternative ∈ unite present added, IsAlternative alternative := by
    intro alternative listed
    rcases mem_unite.mp listed with own | new
    · exact ownParts alternative own
    · exact otherParts alternative new
  have more : unite present added ≠ [] := unite_ne_nil filled
  have characterized : topAlternatives?
        (spread (unite (fragments one.toList) (fragments other.toList))) =
          some (unite present added) ↔
      unite (present.flatMap fragments) (added.flatMap fragments) =
          (unite present added).flatMap fragments ∧
        ∀ alternative ∈ unite present added, respaced alternative = alternative := by
    rw [← ownFragments, ← otherFragments]
    constructor
    · intro split
      have united := (fragments_spread_unite _ _).symm.trans (of_top_alternatives? split).2.2
      rw [united, top_alternatives?_spread_fragments more alternatives, Option.some.injEq] at split
      refine ⟨united, fun alternative listed => ?_⟩
      exact List.map_inj_left.mp (split.trans (List.map_id _).symm) alternative listed
    · rintro ⟨united, spaced⟩
      rw [united, top_alternatives?_spread_fragments more alternatives, Option.some.injEq,
        List.map_congr_left spaced, List.map_id']
  refine ⟨_, join_types_eq one other, ?_, fun noBars => ?_⟩
  · rw [String.toList_ofList]
    exact characterized
  · rw [String.toList_ofList]
    refine characterized.mpr ⟨?_, fun alternative listed => ?_⟩
    · rw [flat_map_fragments_of_not_mem alternatives noBars,
        flat_map_fragments_of_not_mem ownParts fun part own =>
          noBars part (mem_unite.mpr (.inl own)),
        flat_map_fragments_of_not_mem otherParts fun part new =>
          noBars part (mem_unite.mpr (.inr new))]
    · rw [respaced, fragments_of_not_mem (noBars alternative listed), spread,
        List.intercalate_singleton, trim_trim, (alternatives alternative listed).trimmed]

/-- Types with bars in type arguments and in a function type are joined as they should be when they
share no fragment but a whole alternative. The only common fragment is the alternative that both
types end with. -/
theorem nullable_map_unites :
    topAlternatives? "Map<string | number> | null".toList =
        some ["Map<string | number>".toList, "null".toList] ∧
      topAlternatives? "(x: a | b) => null | null".toList =
        some ["(x: a | b) => null".toList, "null".toList] ∧
      ∃ joined, joinTypes (some "Map<string | number> | null") (some "(x: a | b) => null | null") =
          some joined ∧
        topAlternatives? joined.toList =
          some ["Map<string | number>".toList, "null".toList, "(x: a | b) => null".toList] := by
  have ofOne : topAlternatives? "Map<string | number> | null".toList =
      some ["Map<string | number>".toList, "null".toList] := by decide
  have ofOther : topAlternatives? "(x: a | b) => null | null".toList =
      some ["(x: a | b) => null".toList, "null".toList] := by decide
  obtain ⟨joined, joins, unites, -⟩ := join_types_unites_iff ofOne ofOther
  exact ⟨ofOne, ofOther, joined, joins, unites.mpr (by decide)⟩

/-- Two types that share a fragment in different type arguments lose it in the second one, and the
joined type has an open bracket. The second fragment of the second type is the end of its
alternative, and it is dropped since the first type has it as well. -/
theorem arrays_lose_bracket :
    topAlternatives? "Array<string|number>".toList = some ["Array<string|number>".toList] ∧
      topAlternatives? "Array<boolean|number>".toList = some ["Array<boolean|number>".toList] ∧
      joinTypes (some "Array<string|number>") (some "Array<boolean|number>") =
        some "Array<string | number> | Array<boolean" ∧
      topAlternatives? "Array<string | number> | Array<boolean".toList = none := by
  decide

end DocGraph.Draft
