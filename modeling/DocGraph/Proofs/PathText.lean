import Mathlib
import DocGraph.NamePath.Json

/-!
# Reading written name-paths

Every name is read back from its written form, quoted or bare, and with it every segment but for one
detail: the first binding is not written, so it is read as static. A written path is therefore read
as the same path with a static head, and two paths are written alike exactly when they differ in
nothing but the first binding.

Paths that begin with another binding exist; nothing here says that they do not.

The proof goes from names to segments to paths. At each layer the reader is given what the writer
has written and some rest, and it gives back the same and leaves the rest; the rest is what the next
layer continues with.
-/

namespace DocGraph.NamePath

/-- An escaped name is read up to the closing quote. Quotes and backslashes in the name are written
with a backslash, so the first bare quote is the closing one. -/
theorem read_quoted_escape_name (name rest : List Char) :
    readQuoted (escapeName name ++ '"' :: rest) = some (name, rest) := by
  induction name with
  | nil => rfl
  | cons c tail inductionHypothesis =>
    by_cases quote : c = '"'
    · subst quote
      simp [escapeName, readQuoted, inductionHypothesis]
    · by_cases backslash : c = '\\'
      · subst backslash
        simp [escapeName, readQuoted, inductionHypothesis]
      · simp [escapeName, readQuoted, quote, backslash, inductionHypothesis]

/-- What may follow a name: nothing, or a separator. Whatever else followed would become a part of
the name. -/
def Ends (rest : List Char) : Prop := ∀ c ∈ rest.head?, Binding.isSeparator c = true

/-- A name without separators and backslashes is read up to the end of the name. -/
theorem read_bare_append {name rest : List Char} (ends : Ends rest)
    (plain : ∀ c ∈ name, Binding.isSeparator c = false ∧ c ≠ '\\') :
    readBare (name ++ rest) = (name, rest) := by
  induction name with
  | nil =>
    cases rest with
    | nil => rfl
    | cons c tail =>
      have mark : Binding.isSeparator c = true := ends c rfl
      have bare : c ≠ '\\' := by
        rintro rfl
        exact absurd mark (by decide)
      simp [readBare, bare, mark]
  | cons c tail inductionHypothesis =>
    obtain ⟨joined, bare⟩ := plain c List.mem_cons_self
    have later := inductionHypothesis fun other present =>
      plain other (List.mem_cons_of_mem c present)
    simp [readBare, bare, joined, later]

/-- A name that needs no quotes begins with a character of its own and holds neither separators nor
quotes nor backslashes. These are the characters that the reader treats in a way of its own. -/
theorem plain_of_needs_quotes {name : List Char} (bare : needsQuotes name = false) :
    name ≠ [] ∧ ∀ c ∈ name, Binding.isSeparator c = false ∧ c ≠ '"' ∧ c ≠ '\\' := by
  simp only [needsQuotes, Bool.or_eq_false_iff, List.isEmpty_eq_false_iff, List.any_eq_false,
    Bool.or_eq_true, not_or, decide_eq_true_eq, Bool.not_eq_true] at bare
  exact ⟨bare.1, fun c present =>
    ⟨(bare.2 c present).1.1.1, (bare.2 c present).1.1.2, (bare.2 c present).1.2⟩⟩

/-- A name that needs no quotes has no blanks. -/
theorem is_blank_of_needs_quotes {name : List Char} (bare : needsQuotes name = false) {c : Char}
    (present : c ∈ name) : Text.isBlank c = false := by
  simp only [needsQuotes, Bool.or_eq_false_iff, List.any_eq_false, Bool.or_eq_true, not_or,
    Bool.not_eq_true] at bare
  exact (bare.2 c present).2

/-- A written name is not empty and does not begin with a separator. So the first character of a
path is not taken for a leading separator. -/
theorem exists_render_name (name : String) :
    ∃ first rest, renderName name = first :: rest ∧ Binding.isSeparator first = false := by
  unfold renderName
  split
  · exact ⟨'"', _, rfl, by decide⟩
  · next bare =>
    obtain ⟨filled, plain⟩ := plain_of_needs_quotes (Bool.not_eq_true _ ▸ bare)
    obtain ⟨first, rest, written⟩ := List.exists_cons_of_ne_nil filled
    exact ⟨first, rest, written, (plain first (written ▸ List.mem_cons_self)).1⟩

/-- A written name is read back, whatever follows it. Quoted names are read up to the quote and then
up to the rest, between which nothing stands. -/
theorem read_name_render_name (name : String) {rest : List Char} (ends : Ends rest) :
    readName (renderName name ++ rest) = .ok (name.toList, rest) := by
  unfold renderName
  split
  · have nothing : rest.takeWhile (!Binding.isSeparator ·) = [] ∧
        rest.dropWhile (!Binding.isSeparator ·) = rest := by
      cases rest with
      | nil => exact ⟨rfl, rfl⟩
      | cons c tail =>
        have mark : Binding.isSeparator c = true := ends c rfl
        simp [mark]
    simp [readName, read_quoted_escape_name, nothing]
  · next bare =>
    obtain ⟨filled, plain⟩ := plain_of_needs_quotes (Bool.not_eq_true _ ▸ bare)
    have reads := read_bare_append ends fun c present =>
      ⟨(plain c present).1, (plain c present).2.2⟩
    obtain ⟨first, tail, written⟩ := List.exists_cons_of_ne_nil filled
    rw [written] at plain reads ⊢
    have unquoted : first ≠ '"' := (plain first List.mem_cons_self).2.1
    rw [List.cons_append] at reads ⊢
    unfold readName
    split
    · next rest same => exact absurd (List.cons.inj same).1 unquoted
    · rw [reads]

/-- The segments after a name begin with a separator, if there are any. -/
theorem ends_render_rest (segments : List Segment) : Ends (renderRest segments) := by
  cases segments with
  | nil => simp [Ends, renderRest]
  | cons first rest =>
    simp [Ends, renderRest, Binding.isSeparator]

section Reading

variable {binding next : Binding} {text rest name : List Char}

/-- Where a name cannot be read, no segments are. -/
theorem read_segments_of_error {fault : SegmentFault} (refused : readName text = .error fault) :
    readSegments binding text = .error fault := by
  unfold readSegments
  split <;> simp_all

/-- A name that ends the text is the last segment. -/
theorem read_segments_of_last (reads : readName text = .ok (name, [])) :
    readSegments binding text = .ok [⟨binding, String.ofList name⟩] := by
  unfold readSegments
  split <;> simp_all

/-- Behind a name and a separator further segments are read. It is the equation that the induction
over the segments uses. -/
theorem read_segments_of_more (reads : readName text = .ok (name, next.separator :: rest)) :
    readSegments binding text =
      (readSegments next rest).map (⟨binding, String.ofList name⟩ :: ·) := by
  rw [readSegments]
  split
  · simp_all
  · simp_all
  · next found mark after accepted =>
    rw [reads] at accepted
    obtain ⟨rfl, same⟩ := Prod.mk.inj (Except.ok.inj accepted)
    obtain ⟨rfl, rfl⟩ := List.cons.inj same
    rw [Binding.of_separator?_separator, Option.getD_some]
    cases readSegments next rest <;> rfl

end Reading

/-- Written segments are read back, the first with the binding that is given. Each binding but the
first is written as the separator in front of its segment. -/
theorem read_segments_render (binding : Binding) (name : String) (rest : List Segment) :
    readSegments binding (renderName name ++ renderRest rest) =
      .ok (⟨binding, name⟩ :: rest) := by
  induction rest generalizing binding name with
  | nil =>
    simpa [renderRest] using
      read_segments_of_last (read_name_render_name name (ends_render_rest []))
  | cons second rest inductionHypothesis =>
    have reads : readName (renderName name ++ renderRest (second :: rest)) =
        .ok (name.toList,
          second.binding.separator :: (renderName second.name ++ renderRest rest)) :=
      read_name_render_name name (ends_render_rest (second :: rest))
    rw [read_segments_of_more reads, inductionHypothesis]
    simp [Except.map]

/-- A written path that is not the root is read back with a static head. The written path has no
leading separator, so the first binding is taken to be static. -/
theorem parse_render {path : NamePath} (below : path ≠ root) :
    parse path.render = .ok path.withStaticHead := by
  obtain ⟨segments⟩ := path
  cases segments with
  | nil => exact absurd rfl below
  | cons first rest =>
    obtain ⟨start, tail, written, unmarked⟩ := exists_render_name first.name
    have reads := read_segments_render .static first.name rest
    have unled : Binding.ofSeparator? start = none := by
      simpa [Binding.isSeparator] using unmarked
    rw [written, List.cons_append] at reads
    simp [parse, render, renderChars, written, splitLead, unled, reads, withStaticHead]

/-- A written path is read back with a static head. Only the root is written as the empty text. -/
theorem parse_or_root_render (path : NamePath) :
    parseOrRoot path.render = .ok path.withStaticHead := by
  by_cases below : path = root
  · subst below
    decide
  · have filled : path.render.isEmpty = false := by
      obtain ⟨segments⟩ := path
      cases segments with
      | nil => exact absurd rfl below
      | cons first rest =>
        obtain ⟨start, tail, written, _⟩ := exists_render_name first.name
        simp [render, renderChars, written]
    rw [parseOrRoot, if_neg (by simp [filled]), parse_render below]

/-- The head is made static once and for all. -/
@[simp]
theorem with_static_head_with_static_head (path : NamePath) :
    path.withStaticHead.withStaticHead = path.withStaticHead := by
  obtain ⟨segments⟩ := path
  cases segments <;> rfl

/-- Making the head static does not change the written form. -/
@[simp]
theorem render_with_static_head (path : NamePath) : path.withStaticHead.render = path.render := by
  obtain ⟨segments⟩ := path
  cases segments <;> rfl

/-- Two paths are written alike exactly when they differ at most in the first binding.

Proof: if two paths are written alike, reading gives the same path for both, and this is either with
a static head. Conversely the head is not written. -/
theorem render_eq_iff {left right : NamePath} :
    left.render = right.render ↔ left.withStaticHead = right.withStaticHead := by
  constructor
  · intro alike
    have reads := parse_or_root_render left
    rw [alike, parse_or_root_render right] at reads
    exact (Except.ok.inj reads).symm
  · intro same
    rw [← render_with_static_head left, same, render_with_static_head]

/-- A path is read back from JSON with a static head. -/
theorem of_json?_to_json (path : NamePath) : ofJson? path.toJson = some path.withStaticHead := by
  simp [ofJson?, toJson, parse_or_root_render]

/-- Two paths have the same form with a static head exactly when their first names and all their
later segments agree. It says in terms of names and segments what it means to differ in the first
binding only. -/
theorem with_static_head_eq_iff {left right : NamePath} :
    left.withStaticHead = right.withStaticHead ↔
      left.segments.head?.map Segment.name = right.segments.head?.map Segment.name ∧
        left.segments.tail = right.segments.tail := by
  obtain ⟨leftSegments⟩ := left
  obtain ⟨rightSegments⟩ := right
  cases leftSegments <;> cases rightSegments <;> simp [withStaticHead]

/-- A text that is read has at least one segment. -/
theorem ne_nil_of_read_segments {binding : Binding} {text : List Char} {segments : List Segment}
    (reads : readSegments binding text = .ok segments) : segments ≠ [] := by
  unfold readSegments at reads
  split at reads
  · cases reads
  · cases reads
    exact List.cons_ne_nil _ _
  · split at reads
    · cases reads
    · cases reads
      exact List.cons_ne_nil _ _

/-- No text is read as the root. It is used where a path is known to come from a text. -/
theorem ne_root_of_parse {text : String} {path : NamePath} (reads : parse text = .ok path) :
    path ≠ root := by
  unfold parse at reads
  dsimp only at reads
  split at reads
  · next segments accepted =>
    cases reads
    intro same
    exact ne_nil_of_read_segments accepted (congrArg NamePath.segments same)
  · cases reads
  · cases reads

/-- Writing and reading are inverse up to the first binding, whatever characters the names hold:
every path but the root is read back from its written form with a static head; two such paths are
written alike exactly when they agree in the first name and in all later segments; and what was read
from any text is read again from its own written form.

Proof: reading back is the law for written paths; that two of them are written alike is the fact
about writing, spelled out; and a path that was read is not the root, so the first part applies to
it. -/
theorem read_back_up_to_head :
    (∀ path : NamePath, path ≠ root → parse path.render = .ok path.withStaticHead) ∧
    (∀ left right : NamePath, left ≠ root → right ≠ root →
      (left.render = right.render ↔
        left.segments.head?.map Segment.name = right.segments.head?.map Segment.name ∧
          left.segments.tail = right.segments.tail)) ∧
    ∀ (text : String) (path : NamePath), parse text = .ok path →
      path ≠ root ∧ parse path.render = .ok path.withStaticHead := by
  refine ⟨?_, ?_, ?_⟩
  · intro path below
    exact parse_render below
  · intro left right _ _
    rw [render_eq_iff, with_static_head_eq_iff]
  · intro text path reads
    have below := ne_root_of_parse reads
    exact ⟨below, parse_render below⟩

/-- An empty name below the root and a member with a separator, a blank, a quote and a
backslash in its name are read back; of the first binding only the written form is left. -/
theorem read_back_odd_names :
    (⟨[⟨.inner, ""⟩, ⟨.onInstance, ".a \"b\\"⟩]⟩ : NamePath) ≠ root ∧
    parse (render ⟨[⟨.inner, ""⟩, ⟨.onInstance, ".a \"b\\"⟩]⟩) =
      .ok ⟨[⟨.static, ""⟩, ⟨.onInstance, ".a \"b\\"⟩]⟩ := by
  have below : (⟨[⟨.inner, ""⟩, ⟨.onInstance, ".a \"b\\"⟩]⟩ : NamePath) ≠ root := by decide
  exact ⟨below, read_back_up_to_head.1 _ below⟩

end DocGraph.NamePath
