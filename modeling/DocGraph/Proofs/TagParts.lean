import DocGraph.Comment.Basic
import DocGraph.Proofs.BracketGroups
import DocGraph.Proofs.Cutting
import DocGraph.Proofs.Trimming

/-!
# The parts of a tag

A tag begins with a type in braces, or with none, and the tag of a parameter goes on with a name: a
word, or a name in square brackets with a default behind an equals sign. For each of the readers of
these parts it is said here what it reads, and which text it leaves. The blanks behind a part never
count.

Readers fail only on an open bracket, and this never happens here: each lemma assumes a complete
group, or that there is none at all. So the two statements on parameters cover all tags with both
parts well formed.
-/

namespace DocGraph.Comment

open Text

variable {kind : TagKind} {text content word rest after afterType afterName type : List Char}
  {param : TagParam}

section Readers

/-- A complete group in braces is read as a type. The content may hold braces again, as long as they
match. -/
theorem read_type_group (balanced : Balanced '{' '}' content) (rest : List Char) :
    readType ('{' :: content ++ '}' :: rest) = .ok (some (trim content), trimStart rest) := by
  have group : splitBraces ('{' :: content ++ '}' :: rest) = .found content rest :=
    (split_group_eq_found_iff braces).mpr ⟨rfl, balanced⟩
  rw [readType, group]

/-- A text that does not begin with a brace has no type. Nothing is taken from the text, not even
blanks. -/
theorem read_type_of_no_brace (noBrace : text.head? ≠ some '{') :
    readType text = .ok (none, text) := by
  have absent : splitBraces text = .absent := split_group_eq_absent_iff.mpr noBrace
  rw [readType, absent]

/-- A complete group in square brackets is read as a name. The content is taken apart at its first
equals sign. -/
theorem read_name_group (balanced : Balanced '[' ']' content) (rest : List Char) :
    readName ('[' :: content ++ ']' :: rest) = .ok (optionalName content, trimStart rest) := by
  have group : splitBrackets ('[' :: content ++ ']' :: rest) = .found content rest :=
    (split_group_eq_found_iff brackets).mpr ⟨rfl, balanced⟩
  rw [readName, group]

/-- A word is read as a name. The word has to be followed by a blank or by nothing, since otherwise
it would go on. -/
theorem read_name_word (noBracket : (word ++ rest).head? ≠ some '[')
    (solid : ∀ c ∈ word, isBlank c = false) (filled : word ≠ [])
    (ends : ∀ c ∈ rest.head?, isBlank c = true) :
    readName (word ++ rest) = .ok ({ name := String.ofList word }, trimStart rest) := by
  have absent : splitBrackets (word ++ rest) = .absent := split_group_eq_absent_iff.mpr noBracket
  have start : (word ++ rest).dropWhile isBlank = word ++ rest := by
    cases word with
    | nil => exact absurd rfl filled
    | cons c word => exact trim_start_cons (solid c List.mem_cons_self)
  have inside : ∀ c ∈ word, (!isBlank c) = true := fun c present => by rw [solid c present]; rfl
  have stops : rest.takeWhile (!isBlank ·) = [] ∧ rest.dropWhile (!isBlank ·) = rest := by
    cases rest with
    | nil => exact ⟨rfl, rfl⟩
    | cons c rest => simp [ends c rfl]
  have split : splitWord isBlank (word ++ rest) = (word, trimStart rest) := by
    rw [splitWord, start, List.takeWhile_append_of_pos inside, List.dropWhile_append_of_pos inside,
      stops.1, stops.2, List.append_nil]
    rfl
  rw [readName, absent, split]

end Readers

section Parameters

/-- A parameter is complete behind a leading type and a name. What stands behind the name is its
description, even if it begins with a brace. -/
theorem read_param_of_leading
    (typed : readType (trimStart text) = .ok (some type, afterType))
    (named : readName afterType = .ok (param, afterName)) (filled : param.name ≠ "") :
    readParam kind text = ⟨paramTag kind param (some type) afterName, none⟩ := by
  have nonempty : ¬param.name.isEmpty = true := by simpa using filled
  rw [readParam, typed]
  dsimp only
  rw [named]
  dsimp only
  rw [if_neg nonempty]

/-- A parameter without a leading type may have one behind its name. The second type is read only
when there is no first one. -/
theorem read_param_of_trailing {trailing : Option (List Char)}
    (untyped : readType (trimStart text) = .ok (none, afterType))
    (named : readName afterType = .ok (param, afterName)) (filled : param.name ≠ "")
    (typed : readType afterName = .ok (trailing, rest)) :
    readParam kind text = ⟨paramTag kind param trailing rest, none⟩ := by
  have nonempty : ¬param.name.isEmpty = true := by simpa using filled
  rw [readParam, untyped]
  dsimp only
  rw [named]
  dsimp only
  rw [if_neg nonempty, typed]

end Parameters

end DocGraph.Comment
