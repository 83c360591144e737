/-!
# Cutting text at characters and at fixed edges

Texts are handled as lists of characters. A cut at a separator loses only that separator, and a
fixed edge is removed only when it is really there.

Readers with a grammar of their own aside, texts are taken apart by these functions and by cutting
them into lines.
-/

namespace DocGraph.Text

/-- Remove `edge` from the front, if the text starts with it. An empty edge is always there. -/
def dropFront? (edge : List Char) (text : List Char) : Option (List Char) :=
  match edge, text with
  | [], rest => some rest
  | _ :: _, [] => none
  | e :: edge, c :: rest => if e = c then dropFront? edge rest else none

/-- Remove `edge` from the back, if the text ends with it. It is the other function on both texts
turned around. -/
def dropBack? (edge : List Char) (text : List Char) : Option (List Char) :=
  (dropFront? edge.reverse text.reverse).map List.reverse

/-- What stands before and after the first occurrence of a character. There is no result when the
character is missing. -/
def cutFirst? (mark : Char) : List Char → Option (List Char × List Char)
  | [] => none
  | c :: rest =>
    if c = mark then some ([], rest)
    else (cutFirst? mark rest).map fun (before, after) => (c :: before, after)

/-- What stands before and after the last occurrence of a character. Of a dotted name this is the
container and the name itself. -/
def cutLast? (mark : Char) (text : List Char) : Option (List Char × List Char) :=
  (cutFirst? mark text.reverse).map fun (after, before) => (before.reverse, after.reverse)

/-- All pieces between the occurrences of a character, empty ones included. There is always one
piece more than there are occurrences. Joining the pieces with the character gives the text back. -/
def pieces (mark : Char) : List Char → List (List Char)
  | [] => [[]]
  | c :: rest =>
    if c = mark then [] :: pieces mark rest
    else
      match pieces mark rest with
      | [] => [[c]]
      | piece :: others => (c :: piece) :: others

/-- The first word of a text and what follows it, both without leading blanks. A text of gaps alone
has the empty word. -/
def splitWord (isGap : Char → Bool) (text : List Char) : List Char × List Char :=
  let start := text.dropWhile isGap
  (start.takeWhile (!isGap ·), (start.dropWhile (!isGap ·)).dropWhile isGap)

/-- A front edge is removed exactly when the text starts with it. It takes the place of the
definition wherever an edge is spoken of. -/
@[simp]
theorem drop_front?_eq_some_iff (edge text rest : List Char) :
    dropFront? edge text = some rest ↔ text = edge ++ rest := by
  induction edge generalizing text with
  | nil => simp [dropFront?, eq_comm]
  | cons e edge inductionHypothesis =>
    cases text with
    | nil => simp [dropFront?]
    | cons c text =>
      simp only [dropFront?, List.cons_append, List.cons.injEq]
      split
      · next same => simp [inductionHypothesis, same]
      · next differs => simp [Ne.symm differs]

/-- A back edge is removed exactly when the text ends with it. Proof by turning everything
around. -/
@[simp]
theorem drop_back?_eq_some_iff (edge text rest : List Char) :
    dropBack? edge text = some rest ↔ text = rest ++ edge := by
  unfold dropBack?
  rw [Option.map_eq_some_iff]
  constructor
  · rintro ⟨reversed, removed, rfl⟩
    rw [drop_front?_eq_some_iff] at removed
    simpa using congrArg List.reverse removed
  · rintro rfl
    exact ⟨rest.reverse, (drop_front?_eq_some_iff ..).mpr (by simp), by simp⟩

end DocGraph.Text
