import Mathlib.Data.List.Basic
import Mathlib.Data.List.DropRight
import Mathlib.Data.List.TakeWhile
import DocGraph.Text.Blank

/-!
# What trimming leaves

A text has a solid end when it is empty or its last character is not blank. Trimming at the end
leaves the longest beginning of a text with a solid end; so it leaves such a text alone, and of a
text that is continued behind a solid end it trims the continuation only.

A text that trimming on both sides leaves alone begins with no blank either, and two such texts make
up a third. Of any text trimming drops nothing but blanks.

Statements on trimming are used in two ways. A text of a known form is trimmed by simplification,
blank by blank; and a property of a trimmed text is carried over to the text by `apply_trim`, which
asks only for single blanks.
-/

namespace DocGraph.Text

variable {front back text : List Char}

/-- A text that is empty or ends in a character that is not blank. The empty text has to be
included, since all of a text may be trimmed. -/
def EndsSolid (text : List Char) : Prop := ∀ c ∈ text.getLast?, isBlank c = false

instance (text : List Char) : Decidable (EndsSolid text) :=
  decidable_of_iff (text.getLast?.all fun c => !isBlank c) <| by
    simp [EndsSolid, Option.all_eq_true]

/-- A trimmed text has a solid end. -/
theorem ends_solid_trim_end (text : List Char) : EndsSolid (trimEnd text) := by
  intro c last
  rw [trimEnd, List.getLast?_reverse] at last
  have solid := List.head?_dropWhile_not isBlank text.reverse
  rw [Option.mem_def.mp last] at solid
  exact solid

/-- Of a trimmed text the beginning is left. So what is trimmed at its end begins as before. -/
theorem is_prefix_trim_end (text : List Char) : trimEnd text <+: text := by
  have suffix : text.reverse.dropWhile isBlank <:+ text.reverse := List.dropWhile_suffix _
  simpa [trimEnd] using List.reverse_prefix.mpr suffix

/-- Behind a solid end only the continuation is trimmed. It is the law by which trimming passes over
what is written in front. -/
theorem trim_end_append (solid : EndsSolid front) :
    trimEnd (front ++ back) = front ++ trimEnd back := by
  have kept : front.reverse.dropWhile isBlank = front.reverse := by
    cases shape : front.reverse with
    | nil => rfl
    | cons c rest =>
      have last : front.getLast? = some c := by
        rw [← List.head?_reverse, shape]
        rfl
      simp [solid c last]
  unfold trimEnd
  rw [List.reverse_append, List.dropWhile_append]
  split
  · next empty =>
    rw [kept, List.isEmpty_iff.mp empty, List.reverse_reverse, List.reverse_nil, List.append_nil]
  · rw [List.reverse_append, List.reverse_reverse]

/-- A text with a solid end has nothing to trim there. -/
theorem trim_end_of_ends_solid (solid : EndsSolid text) : trimEnd text = text := by
  have whole : trimEnd (text ++ []) = text ++ trimEnd [] := trim_end_append solid
  simpa [trimEnd] using whole

/-- A text without blanks to trim has none at its end. -/
theorem trim_end_of_trim (trimmed : trim text = text) : trimEnd text = text := by
  have solid : EndsSolid (trim text) := ends_solid_trim_end _
  rw [trimmed] at solid
  exact trim_end_of_ends_solid solid

/-- A trimmed text has no blanks at its start. Otherwise the text would have become shorter. -/
theorem trim_start_of_trim (trimmed : trim text = text) : trimStart text = text := by
  have shorter : text.length ≤ (trimStart text).length := by
    conv_lhs => rw [← trimmed]
    exact (is_prefix_trim_end (trimStart text)).length_le
  have suffix : trimStart text <:+ text := List.dropWhile_suffix _
  exact suffix.eq_of_length_le shorter

/-- The first character of a trimmed text is not blank. What is put in front of such a text stays
apart from it. -/
theorem solid_head_of_trim (trimmed : trim text = text) : ∀ c ∈ text.head?, isBlank c = false := by
  intro c first
  have solid := List.head?_dropWhile_not isBlank text
  have whole : text.dropWhile isBlank = text := trim_start_of_trim trimmed
  rw [whole, Option.mem_def.mp first] at solid
  exact solid

/-- Nothing is left of a text trimmed at its end exactly when the text is blank. Blankness is
decided character by character. -/
theorem trim_end_eq_nil_iff : trimEnd text = [] ↔ allBlank text = true := by
  rw [trimEnd, List.reverse_eq_nil_iff, List.dropWhile_eq_nil_iff, allBlank, List.all_eq_true]
  exact forall_congr' fun c => by rw [List.mem_reverse]

/-- Nothing is left of a text trimmed at both sides exactly when the text is blank. -/
theorem trim_eq_nil_iff : trim text = [] ↔ allBlank text = true := by
  have blank : (text.takeWhile isBlank).all isBlank = true :=
    List.all_eq_true.mpr fun c present => List.mem_takeWhile_imp present
  have parts : allBlank text = allBlank (trimStart text) := by
    conv_lhs => rw [allBlank, ← List.takeWhile_append_dropWhile (p := isBlank) (l := text)]
    rw [List.all_append, blank, Bool.true_and]
    rfl
  rw [trim, trim_end_eq_nil_iff, parts]

/-- The end of a text is the end of what is left of it at the front. A suffix that is empty ends
solid as well. -/
theorem EndsSolid.of_suffix (solid : EndsSolid text) (suffix : back <:+ text) : EndsSolid back := by
  obtain ⟨front, rfl⟩ := suffix
  intro c last
  refine solid c ?_
  rw [List.getLast?_append, Option.mem_def.mp last]
  rfl

/-- The end of a text is the end of its last part. -/
theorem ends_solid_append (filled : back ≠ []) (solid : EndsSolid back) :
    EndsSolid (front ++ back) := by
  intro c last
  rw [List.getLast?_append_of_ne_nil _ filled] at last
  exact solid c last

/-- Nothing is left to drop at the start once it was dropped. -/
@[simp]
theorem trim_start_trim_start (text : List Char) : trimStart (trimStart text) = trimStart text :=
  List.dropWhile_idempotent ..

/-- A text without its leading blanks is trimmed as it is with them. -/
@[simp]
theorem trim_trim_start (text : List Char) : trim (trimStart text) = trim text :=
  congrArg trimEnd (trim_start_trim_start text)

/-- A text without blanks at its start is left alone there. -/
theorem trim_start_of_solid_head (solid : ∀ c ∈ text.head?, isBlank c = false) :
    trimStart text = text := by
  cases text with
  | nil => rfl
  | cons c rest => exact trim_start_cons (solid c rfl)

/-- A text without any blanks is trimmed. -/
theorem trim_of_solid (solid : ∀ c ∈ text, isBlank c = false) : trim text = text := by
  have start : trimStart text = text :=
    trim_start_of_solid_head fun c first => solid c (List.mem_of_mem_head? first)
  rw [trim, start]
  exact trim_end_of_ends_solid fun c last => solid c (List.mem_of_mem_getLast? last)

/-- Two trimmed texts make up a trimmed text. The inner ends do not matter, but one of the texts may
be empty. -/
theorem trim_append (begins : trim front = front) (ends : trim back = back) :
    trim (front ++ back) = front ++ back := by
  have solid : EndsSolid front := trim_end_of_trim begins ▸ ends_solid_trim_end front
  have start : trimStart (front ++ back) = front ++ back := by
    cases front with
    | nil => exact trim_start_of_trim ends
    | cons c rest => exact trim_start_cons (solid_head_of_trim begins c rfl)
  rw [trim, start, trim_end_append solid, trim_end_of_trim ends]

/-- What does not depend on a blank at either end of a text does not depend on trimming.

Proof: by induction on the text for the leading blanks, and for the trailing ones by induction from
its end. -/
theorem apply_trim {β : Type} (trait : List Char → β)
    (leading : ∀ c text, isBlank c = true → trait (c :: text) = trait text)
    (trailing : ∀ c text, isBlank c = true → trait (text ++ [c]) = trait text)
    (text : List Char) : trait (trim text) = trait text := by
  have start (text : List Char) : trait (trimStart text) = trait text := by
    induction text with
    | nil => rfl
    | cons c text inductionHypothesis =>
      by_cases blank : isBlank c = true
      · rw [leading c text blank, ← inductionHypothesis, trimStart,
          List.dropWhile_cons_of_pos blank]
        rfl
      · rw [trim_start_cons (Bool.eq_false_iff.mpr blank)]
  have finish (text : List Char) : trait (trimEnd text) = trait text := by
    induction text using List.reverseRecOn with
    | nil => rfl
    | append_singleton text c inductionHypothesis =>
      by_cases blank : isBlank c = true
      · rw [trailing c text blank, ← inductionHypothesis, trimEnd, List.reverse_append]
        simp [blank, trimEnd]
      · simp [trimEnd, blank]
  rw [trim, finish, start]

/-- A leading blank is trimmed. -/
@[simp]
theorem trim_cons_blank {c : Char} (blank : isBlank c = true) (text : List Char) :
    trim (c :: text) = trim text := by
  rw [trim, trimStart, List.dropWhile_cons_of_pos blank]
  rfl

/-- A trailing blank is trimmed. -/
@[simp]
theorem trim_concat_blank {c : Char} (blank : isBlank c = true) (text : List Char) :
    trim (text ++ [c]) = trim text := by
  have ends (text : List Char) : trimEnd (text ++ [c]) = trimEnd text := by
    simp [trimEnd, blank]
  unfold trim trimStart
  rw [List.dropWhile_append]
  split
  · next empty =>
    rw [List.isEmpty_iff.mp empty, List.dropWhile_cons_of_pos blank]
    rfl
  · exact ends _

/-- Trimming leaves a trimmed text alone. -/
@[simp]
theorem trim_trim (text : List Char) : trim (trim text) = trim text :=
  apply_trim trim (fun _ text blank => trim_cons_blank blank text)
    (fun _ text blank => trim_concat_blank blank text) text

/-- A text without the blanks at its ends: nothing but blanks stood around it, and no blank stands
at either end of it any more. It speaks of the text alone and not of how trimming goes about it. -/
structure TrimsTo (text core : List Char) : Prop where
  surrounded : ∃ front back, text = front ++ core ++ back ∧ (∀ c ∈ front, isBlank c = true) ∧
    ∀ c ∈ back, isBlank c = true
  begins : ∀ c ∈ core.head?, isBlank c = false
  ends : ∀ c ∈ core.getLast?, isBlank c = false

/-- Any number of leading blanks is trimmed. -/
theorem trim_append_of_blank (blank : ∀ c ∈ front, isBlank c = true) :
    trim (front ++ text) = trim text := by
  induction front with
  | nil => rfl
  | cons c front inductionHypothesis =>
    obtain ⟨first, others⟩ := List.forall_mem_cons.mp blank
    rw [List.cons_append, trim_cons_blank first, inductionHypothesis others]

/-- Any number of trailing blanks is trimmed. -/
theorem trim_of_blank_append (blank : ∀ c ∈ back, isBlank c = true) :
    trim (text ++ back) = trim text := by
  induction back using List.reverseRecOn with
  | nil => rw [List.append_nil]
  | append_singleton back c inductionHypothesis =>
    obtain ⟨others, last⟩ := List.forall_mem_append.mp blank
    rw [← List.append_assoc, trim_concat_blank (last c (List.mem_singleton_self c)),
      inductionHypothesis others]

/-- Trimming leaves exactly the text without the blanks at its ends. What is dropped is blank, since
it is what a scan for the first solid character from either end passes over; conversely the blanks
around a text can be taken away one by one. -/
theorem trim_eq_iff {core : List Char} : trim text = core ↔ TrimsTo text core := by
  constructor
  · rintro rfl
    refine ⟨⟨text.takeWhile isBlank, ((trimStart text).reverse.takeWhile isBlank).reverse,
      ?_, fun c => List.mem_takeWhile_imp, fun c present => ?_⟩,
      solid_head_of_trim (trim_trim text), ends_solid_trim_end _⟩
    · have finish : trim text ++ ((trimStart text).reverse.takeWhile isBlank).reverse =
          trimStart text := by
        rw [trim, trimEnd, ← List.reverse_append, List.takeWhile_append_dropWhile,
          List.reverse_reverse]
      rw [List.append_assoc, finish]
      exact List.takeWhile_append_dropWhile.symm
    · exact List.mem_takeWhile_imp (List.mem_reverse.mp present)
  · rintro ⟨⟨front, back, rfl, leading, trailing⟩, begins, ends⟩
    rw [trim_of_blank_append trailing, trim_append_of_blank leading, trim,
      trim_start_of_solid_head begins, trim_end_of_ends_solid ends]

/-- The number of characters that are not blank. Whether text is lost is told by comparing these
numbers. -/
def solidCount (text : List Char) : Nat := text.countP (!isBlank ·)

/-- Dropping blanks at the start drops nothing else. -/
theorem solid_count_trim_start (text : List Char) :
    solidCount (trimStart text) = solidCount text := by
  have none : (text.takeWhile isBlank).countP (!isBlank ·) = 0 :=
    List.countP_eq_zero.mpr fun c present => by simp [List.mem_takeWhile_imp present]
  conv_rhs => rw [solidCount, ← List.takeWhile_append_dropWhile (p := isBlank) (l := text)]
  rw [List.countP_append, none, Nat.zero_add]
  rfl

/-- Trimming drops nothing but blanks. The count at the end is the count at the start of the text
turned around. -/
theorem solid_count_trim (text : List Char) : solidCount (trim text) = solidCount text := by
  have turned (text : List Char) : solidCount text.reverse = solidCount text :=
    List.countP_reverse
  have ends (text : List Char) : solidCount (trimEnd text) = solidCount text := by
    rw [trimEnd, turned]
    exact (solid_count_trim_start text.reverse).trans (turned text)
  rw [trim, ends, solid_count_trim_start]

end DocGraph.Text
