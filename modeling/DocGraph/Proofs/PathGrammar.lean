import DocGraph.Proofs.PathText

/-!
# The grammar of written name-paths

A written path is an optional separator and one or more segments with separators between them. A
segment is a quoted part with any text behind it, or a bare part. Both may take a character as it is
behind a backslash. A bare part gives at least one character, and a backslash at the very end of the
text gives none.

The grammar is stated as relations between texts and what they stand for, without a reader. The
reader accepts exactly the texts of the grammar and finds what they stand for. The other texts have
a leftmost segment that is not of this form. It is a quote that stays open, or it gives nothing;
this decides what the reader reports.

Soundness and completeness are proved for each layer of the reader in turn: what stands in quotes,
bare text, a segment, a list of segments, the whole text. At each layer reading succeeds exactly on
the texts of the grammar, and where it fails the layer above learns which of two faults it is. The
faults are described independently of each other and exclude each other, which is what makes the
reports exact.
-/

namespace DocGraph.NamePath

variable {text rest written after name : List Char} {c : Char} {binding : Binding}
  {segments : List Segment} {fault : SegmentFault}

section Grammar

/-- A text for the inside of quotes, and the name it stands for. No quote stands in it without a
backslash. A separator means nothing inside of quotes. -/
inductive SpellsQuoted : List Char → List Char → Prop where
  | nil : SpellsQuoted [] []
  | plain {c : Char} {text name : List Char} (noQuote : c ≠ '"') (noBackslash : c ≠ '\\')
      (spells : SpellsQuoted text name) : SpellsQuoted (c :: text) (c :: name)
  | escape {c : Char} {text name : List Char} (spells : SpellsQuoted text name) :
      SpellsQuoted ('\\' :: c :: text) (c :: name)

/-- A text without quotes around it, and the name it stands for. No separator stands in it without a
backslash. A quote may stand in it, only not in the first place of a segment. -/
inductive SpellsBare : List Char → List Char → Prop where
  | nil : SpellsBare [] []
  | plain {c : Char} {text name : List Char} (noSeparator : Binding.isSeparator c = false)
      (noBackslash : c ≠ '\\') (spells : SpellsBare text name) : SpellsBare (c :: text) (c :: name)
  | escape {c : Char} {text name : List Char} (spells : SpellsBare text name) :
      SpellsBare ('\\' :: c :: text) (c :: name)

/-- The text of a segment and its name. Only in the `last` segment of a path a backslash may take
nothing. The text behind a closing quote is taken as it stands, backslashes included; it belongs to
the name. -/
inductive SpellsName (last : Bool) : List Char → List Char → Prop where
  | quoted {inside name behind : List Char} (spells : SpellsQuoted inside name)
      (joined : ∀ c ∈ behind, Binding.isSeparator c = false) :
      SpellsName last ('"' :: inside ++ '"' :: behind) (name ++ behind)
  | bare {text name : List Char} (spells : SpellsBare text name) (unquoted : text.head? ≠ some '"')
      (filled : name ≠ []) : SpellsName last text name
  | cutShort {text name : List Char} (ends : last = true) (spells : SpellsBare text name)
      (unquoted : text.head? ≠ some '"') (filled : name ≠ []) :
      SpellsName last (text ++ ['\\']) name

/-- The text of one or more segments with separators between them. Each separator stands for the
binding of the segment behind it. The binding of the first segment is passed in, since its separator
stands in front. -/
inductive SpellsSegments : Binding → List Char → List Segment → Prop where
  | last {binding : Binding} {text name : List Char} (spells : SpellsName true text name) :
      SpellsSegments binding text [⟨binding, String.ofList name⟩]
  | more {binding next : Binding} {text rest name : List Char} {segments : List Segment}
      (spells : SpellsName false text name) (others : SpellsSegments next rest segments) :
      SpellsSegments binding (text ++ next.separator :: rest)
        (⟨binding, String.ofList name⟩ :: segments)

/-- What stands behind the leading separator, and the binding the separator stands for. Without one
it is the whole text, and the binding is static. A separator in front is always taken for a binding,
so no text has both forms. -/
inductive Leads : List Char → Binding → List Char → Prop where
  | unmarked {text : List Char} (unmarked : ∀ c ∈ text.head?, Binding.isSeparator c = false) :
      Leads text .static text
  | marked {binding : Binding} {text : List Char} : Leads (binding.separator :: text) binding text

/-- The text stands for the path. The root is spelled by no text, since there is at least one
segment. -/
def Spells (text : String) (path : NamePath) : Prop :=
  ∃ binding rest, Leads text.toList binding rest ∧ SpellsSegments binding rest path.segments

/-- The text begins with a segment: what stands behind it, if anything, is a separator. Whether the
segment is the last one is read off what follows it. -/
def BeginsSegment (text : List Char) : Prop :=
  ∃ written after name,
    text = written ++ after ∧ Ends after ∧ SpellsName after.isEmpty written name

/-- What is left of a text from its leftmost segment on that is not of the form. Everything in front
of the stuck part consists of segments, which is what makes it the leftmost. -/
inductive FaultyFrom : List Char → List Char → Prop where
  | here {text : List Char} (faulty : ¬BeginsSegment text) : FaultyFrom text text
  | behind {next : Binding} {text rest name stuck : List Char} (spells : SpellsName false text name)
      (faulty : FaultyFrom rest stuck) : FaultyFrom (text ++ next.separator :: rest) stuck

/-- The leftmost segment of the text that is not of the form begins here. -/
def StuckAt (text : String) (stuck : List Char) : Prop :=
  ∃ binding rest, Leads text.toList binding rest ∧ FaultyFrom rest stuck

/-- The text begins with a quote that stays open. In the second form a backslash at the very end
takes nothing. -/
def Unclosed (text : List Char) : Prop :=
  ∃ inside name, SpellsQuoted inside name ∧
    (text = '"' :: inside ∨ text = '"' :: inside ++ ['\\'])

/-- The text begins with a segment that gives no character: nothing stands there but a separator or
the backslash at the very end. A pair of quotes gives nothing either, but it is a segment and has
the empty name. -/
def GivesNothing (text : List Char) : Prop :=
  text = [] ∨ text = ['\\'] ∨ ∃ binding rest, text = Binding.separator binding :: rest

end Grammar

section Names

/-- A separator ends the segment before it. -/
theorem ends_separator (binding : Binding) (rest : List Char) :
    Ends (binding.separator :: rest) := by
  simp [Ends, Binding.isSeparator]

/-- What may follow a name is nothing, or a separator and more. -/
theorem Ends.cases (ends : Ends after) :
    after = [] ∨ ∃ next rest, after = Binding.separator next :: rest := by
  cases after with
  | nil => exact .inl rfl
  | cons c rest =>
    obtain ⟨next, denoted⟩ := Option.isSome_iff_exists.mp (ends c rfl)
    exact .inr ⟨next, rest, by rw [Binding.separator_of_of_separator? denoted]⟩

/-- A quoted text is read up to its closing quote. The rest is left open because more of the segment
may stand behind the quote. -/
theorem SpellsQuoted.read_quoted (spells : SpellsQuoted text name) (after : List Char) :
    readQuoted (text ++ '"' :: after) = some (name, after) := by
  induction spells with
  | nil => rfl
  | plain noQuote noBackslash _ inductionHypothesis =>
    simp [NamePath.readQuoted, noBackslash, inductionHypothesis]
  | escape _ inductionHypothesis => simp [NamePath.readQuoted, inductionHypothesis]

/-- A character that opens no escape, whatever follows it, is no backslash. -/
theorem ne_backslash (alone : c = '\\' → rest = [] → False)
    (before : ∀ next after, c = '\\' → rest = next :: after → False) : c ≠ '\\' := by
  intro same
  cases rest with
  | nil => exact alone same rfl
  | cons next after => exact before next after same rfl

/-- Reading quotes finds the closing one behind a quoted text, or the quote stays open. The
induction is that of the reader, and each of its branches extends one of the two forms by a
character. -/
theorem read_quoted_cases (text : List Char) :
    (∃ inside name after, text = inside ++ '"' :: after ∧ SpellsQuoted inside name ∧
        readQuoted text = some (name, after)) ∨
      (readQuoted text = none ∧
        ∃ inside name, SpellsQuoted inside name ∧ (text = inside ∨ text = inside ++ ['\\'])) := by
  fun_induction readQuoted text with
  | case1 => exact .inr ⟨rfl, [], [], .nil, .inl rfl⟩
  | case2 rest => exact .inl ⟨[], [], rest, rfl, .nil, rfl⟩
  | case3 => exact .inr ⟨rfl, [], [], .nil, .inr rfl⟩
  | case4 c rest inductionHypothesis =>
    obtain ⟨inside, name, after, rfl, spells, reads⟩ | ⟨unclosed, inside, name, spells, ends⟩ :=
      inductionHypothesis
    · exact .inl ⟨'\\' :: c :: inside, c :: name, after, rfl, .escape spells, by rw [reads]; rfl⟩
    · refine .inr ⟨by rw [unclosed]; rfl, '\\' :: c :: inside, c :: name, .escape spells, ?_⟩
      exact ends.imp (congrArg (['\\', c] ++ ·)) (congrArg (['\\', c] ++ ·))
  | case5 c rest noQuote alone before inductionHypothesis =>
    have noBackslash := ne_backslash alone before
    obtain ⟨inside, name, after, rfl, spells, reads⟩ | ⟨unclosed, inside, name, spells, ends⟩ :=
      inductionHypothesis
    · exact .inl ⟨c :: inside, c :: name, after, rfl, .plain noQuote noBackslash spells,
        by rw [reads]; rfl⟩
    · refine .inr ⟨by rw [unclosed]; rfl, c :: inside, c :: name,
        .plain noQuote noBackslash spells, ?_⟩
      exact ends.imp (congrArg (c :: ·)) (congrArg (c :: ·))

/-- A bare text is read up to the separator behind it. The premise on the rest is what ends the
text; without it the text would go on. -/
theorem SpellsBare.read_bare (spells : SpellsBare text name) (ends : Ends after) :
    readBare (text ++ after) = (name, after) := by
  induction spells with
  | nil => exact read_bare_append ends (by simp)
  | plain noSeparator noBackslash _ inductionHypothesis =>
    simp [NamePath.readBare, noSeparator, noBackslash, inductionHypothesis]
  | escape _ inductionHypothesis => simp [NamePath.readBare, inductionHypothesis]

/-- A bare text is read without the backslash at the very end. -/
theorem SpellsBare.read_bare_cut_short (spells : SpellsBare text name) :
    NamePath.readBare (text ++ ['\\']) = (name, []) := by
  induction spells with
  | nil => rfl
  | plain noSeparator noBackslash _ inductionHypothesis =>
    simp [NamePath.readBare, noSeparator, noBackslash, inductionHypothesis]
  | escape _ inductionHypothesis => simp [NamePath.readBare, inductionHypothesis]

/-- Whatever is read without quotes is a bare text up to a separator or the end, where a backslash
may stand behind it. It is the converse of the two facts before: whatever was read is spelled by
what was passed over. -/
theorem exists_spells_bare (text : List Char) :
    ∃ written, SpellsBare written (readBare text).1 ∧
      ((text = written ++ (readBare text).2 ∧ Ends (readBare text).2) ∨
        (text = written ++ ['\\'] ∧ (readBare text).2 = [])) := by
  fun_induction readBare text with
  | case1 => exact ⟨[], .nil, .inl ⟨rfl, by simp [Ends]⟩⟩
  | case2 => exact ⟨[], .nil, .inr ⟨rfl, rfl⟩⟩
  | case3 c rest name after reads inductionHypothesis =>
    rw [reads] at inductionHypothesis
    obtain ⟨written, spells, ends⟩ := inductionHypothesis
    exact ⟨'\\' :: c :: written, .escape spells,
      ends.imp (And.imp_left (congrArg (['\\', c] ++ ·)))
        (And.imp_left (congrArg (['\\', c] ++ ·)))⟩
  | case4 c rest alone before separates =>
    refine ⟨[], .nil, .inl ⟨rfl, ?_⟩⟩
    simpa [Ends] using separates
  | case5 c rest alone before joins name after reads inductionHypothesis =>
    rw [reads] at inductionHypothesis
    obtain ⟨written, spells, ends⟩ := inductionHypothesis
    exact ⟨c :: written, .plain (by simpa using joins) (ne_backslash alone before) spells,
      ends.imp (And.imp_left (congrArg (c :: ·))) (And.imp_left (congrArg (c :: ·)))⟩

/-- A bare text is read where no quote stands first. -/
theorem read_name_of_read_bare (unquoted : text.head? ≠ some '"') (filled : name ≠ [])
    (reads : readBare text = (name, after)) : readName text = .ok (name, after) := by
  unfold readName
  split
  · simp at unquoted
  · rw [reads]
    split
    · next empty => exact absurd (Prod.mk.inj empty).1 filled
    · next same => rw [same]

/-- The first character of a bare text stays first whatever follows, if the text gives any. It keeps
a bare text from becoming a quoted one when it is continued. -/
theorem SpellsBare.head?_append (spells : SpellsBare text name) (filled : name ≠ [])
    (after : List Char) : (text ++ after).head? = text.head? := by
  cases spells with
  | nil => exact absurd rfl filled
  | plain => rfl
  | escape => rfl

/-- Text without separators is read up to the separator behind it. -/
theorem take_while_drop_while_append (joined : ∀ c ∈ text, Binding.isSeparator c = false)
    (ends : Ends after) :
    (text ++ after).takeWhile (!Binding.isSeparator ·) = text ∧
      (text ++ after).dropWhile (!Binding.isSeparator ·) = after := by
  have solid : ∀ c ∈ text, (!Binding.isSeparator c) = true := by simpa using joined
  rw [List.takeWhile_append_of_pos solid, List.dropWhile_append_of_pos solid]
  cases after with
  | nil => simp
  | cons c rest =>
    have mark : Binding.isSeparator c = true := ends c rfl
    simp [mark]

/-- The text of a segment is read up to its end, if nothing or a separator follows.

Proof: one case for each form of a segment. Behind closed quotes the text up to a separator is taken
along; a bare text is read up to what follows; and one that is cut short has nothing behind it, so
the backslash is the end. -/
theorem SpellsName.read_name (spells : SpellsName after.isEmpty written name) (ends : Ends after) :
    readName (written ++ after) = .ok (name, after) := by
  cases spells with
  | @quoted inside name behind spells joined =>
    have reads := spells.read_quoted (behind ++ after)
    obtain ⟨taken, left⟩ := take_while_drop_while_append joined ends
    simp [NamePath.readName, reads, taken, left]
  | bare spells unquoted filled =>
    refine read_name_of_read_bare ?_ filled (spells.read_bare ends)
    rwa [spells.head?_append filled]
  | cutShort closed spells unquoted filled =>
    obtain rfl := List.isEmpty_iff.mp closed
    rw [List.append_nil]
    refine read_name_of_read_bare ?_ filled spells.read_bare_cut_short
    rwa [spells.head?_append filled]

/-- Where text without separators is dropped, nothing or a separator is left. -/
theorem ends_drop_while (text : List Char) : Ends (text.dropWhile (!Binding.isSeparator ·)) := by
  intro c first
  have found := List.head?_dropWhile_not (!Binding.isSeparator ·) text
  rw [Option.mem_def.mp first] at found
  simpa using found

/-- A bare text that gives no character is empty, so nothing is there but what follows it. -/
theorem gives_nothing_of_read_bare (reads : (readBare text).1 = []) : GivesNothing text := by
  obtain ⟨written, spells, ends⟩ := exists_spells_bare text
  rw [reads] at spells
  cases spells
  rcases ends with ⟨same, ends⟩ | ⟨backslash, _⟩
  · rw [List.nil_append] at same
    rw [← same] at ends
    exact ends.cases.imp_right .inr
  · exact .inr (.inl backslash)

/-- A closed quote and the text behind it are a segment. -/
theorem SpellsQuoted.begins_segment {inside : List Char} (spells : SpellsQuoted inside name)
    (after : List Char) : BeginsSegment ('"' :: (inside ++ '"' :: after)) := by
  refine ⟨'"' :: inside ++ '"' :: after.takeWhile (!Binding.isSeparator ·),
    after.dropWhile (!Binding.isSeparator ·), _, ?_, ends_drop_while after, .quoted spells ?_⟩
  · simp
  · intro c taken
    simpa using List.mem_takeWhile_imp taken

/-- A bare text that gives a character is a segment. -/
theorem begins_segment_of_read_bare (unquoted : text.head? ≠ some '"') (filled : name ≠ [])
    (reads : readBare text = (name, after)) : BeginsSegment text := by
  obtain ⟨written, spells, ends⟩ := exists_spells_bare text
  rw [reads] at spells ends
  have first := spells.head?_append filled
  rcases ends with ⟨same, ends⟩ | ⟨cut, ended⟩
  · rw [same, first] at unquoted
    exact ⟨written, after, name, same, ends, .bare spells unquoted filled⟩
  · rw [cut, first] at unquoted
    exact ⟨text, [], name, by simp, by simp [Ends], cut ▸ .cutShort rfl spells unquoted filled⟩

/-- A text begins with a segment, which is read, or with a quote that stays open, or with a segment
that gives nothing. The reader looks for a quote first, so the cases are split by that. -/
theorem read_name_cases (text : List Char) :
    (BeginsSegment text ∧ ∃ name after, readName text = .ok (name, after)) ∨
      (Unclosed text ∧ readName text = .error .unterminatedQuote) ∨
      (GivesNothing text ∧ readName text = .error .emptySegment) := by
  unfold readName
  split
  · next rest =>
    obtain ⟨inside, name, after, rfl, spells, reads⟩ | ⟨unclosed, inside, name, spells, ends⟩ :=
      read_quoted_cases rest
    · rw [reads]
      exact .inl ⟨spells.begins_segment after, _, _, rfl⟩
    · rw [unclosed]
      exact .inr (.inl ⟨⟨inside, name, spells, ends.imp (congrArg _) (congrArg _)⟩, rfl⟩)
  · next noQuote =>
    split
    · next after reads =>
      exact .inr (.inr ⟨gives_nothing_of_read_bare (congrArg Prod.fst reads), rfl⟩)
    · next name after filled reads =>
      have unquoted : text.head? ≠ some '"' := fun first =>
        noQuote _ (List.head?_eq_some_iff.mp first).choose_spec
      exact .inl ⟨begins_segment_of_read_bare unquoted (fun empty => filled empty) reads,
        name, after, rfl⟩

/-- A name is read exactly where the text of a segment stands up to the end or a separator. From
left to right the two readers have been inverted, from right to left the segment is read back. -/
theorem read_name_ok_iff : readName text = .ok (name, after) ↔
    ∃ written, text = written ++ after ∧ Ends after ∧ SpellsName after.isEmpty written name := by
  constructor
  · intro reads
    obtain ⟨⟨written, behind, found, rfl, ends, spells⟩, _⟩ | ⟨_, refused⟩ | ⟨_, refused⟩ :=
      read_name_cases text
    · cases (spells.read_name ends).symm.trans reads
      exact ⟨written, rfl, ends, spells⟩
    · cases reads.symm.trans refused
    · cases reads.symm.trans refused
  · rintro ⟨written, rfl, ends, spells⟩
    exact spells.read_name ends

/-- A text that begins with an open quote begins with more than nothing. -/
theorem Unclosed.not_gives_nothing (unclosed : Unclosed text) : ¬GivesNothing text := by
  obtain ⟨inside, name, _, same | same⟩ := unclosed
  all_goals
    subst same
    rintro (empty | backslash | ⟨binding, rest, separator⟩)
    · cases empty
    · cases backslash
    · cases binding <;> cases separator

/-- No name is read exactly where no segment begins. What is reported tells an open quote from a
segment that gives nothing.

Proof: a text is of one of the three kinds above. Where a segment begins, one is read, so an error
leaves the other two; and these exclude each other, so the report determines the kind and the kind
the report. -/
theorem read_name_error_iff : readName text = .error fault ↔
    ¬BeginsSegment text ∧ (fault = .unterminatedQuote ∧ Unclosed text ∨
      fault = .emptySegment ∧ GivesNothing text) := by
  constructor
  · intro refused
    refine ⟨?_, ?_⟩
    · rintro ⟨written, after, name, rfl, ends, spells⟩
      cases refused.symm.trans (spells.read_name ends)
    · obtain ⟨_, _, _, reads⟩ | ⟨unclosed, same⟩ | ⟨nothing, same⟩ := read_name_cases text
      · cases refused.symm.trans reads
      · cases refused.symm.trans same
        exact .inl ⟨rfl, unclosed⟩
      · cases refused.symm.trans same
        exact .inr ⟨rfl, nothing⟩
  · rintro ⟨faulty, kind⟩
    obtain ⟨begins, _⟩ | ⟨unclosed, refused⟩ | ⟨nothing, refused⟩ := read_name_cases text
    · exact absurd begins faulty
    · obtain ⟨rfl, _⟩ | ⟨_, nothing⟩ := kind
      · exact refused
      · exact absurd nothing unclosed.not_gives_nothing
    · obtain ⟨_, unclosed⟩ | ⟨rfl, _⟩ := kind
      · exact absurd nothing unclosed.not_gives_nothing
      · exact refused

end Names

section Segments

/-- Segments are read as what they stand for. The induction is on how the text is spelled, which
follows the reader. -/
theorem SpellsSegments.read_segments (spells : SpellsSegments binding text segments) :
    readSegments binding text = .ok segments := by
  induction spells with
  | @last binding text name spells =>
    have reads : readName (text ++ []) = .ok (name, []) :=
      SpellsName.read_name spells (by simp [Ends])
    rw [List.append_nil] at reads
    exact read_segments_of_last reads
  | @more binding next text rest name segments spells _ inductionHypothesis =>
    have reads : readName (text ++ next.separator :: rest) = .ok (name, next.separator :: rest) :=
      SpellsName.read_name spells (ends_separator next rest)
    rw [read_segments_of_more reads, inductionHypothesis]
    rfl

/-- Where the leftmost faulty segment is not read, no segments are. Segments in front of the stuck
part are read and then dropped. -/
theorem FaultyFrom.read_segments {stuck : List Char} (faulty : FaultyFrom text stuck)
    (refused : readName stuck = .error fault) (binding : Binding) :
    readSegments binding text = .error fault := by
  induction faulty generalizing binding with
  | here => exact read_segments_of_error refused
  | @behind next text rest name stuck spells _ inductionHypothesis =>
    have reads : readName (text ++ next.separator :: rest) = .ok (name, next.separator :: rest) :=
      SpellsName.read_name spells (ends_separator next rest)
    rw [read_segments_of_more reads, inductionHypothesis refused]
    rfl

/-- A text is made of segments, or there is a leftmost segment at which reading stops. The recursion
is on the length of the text, which a segment and the separator behind it make shorter. -/
theorem spells_segments_or_faulty_from (binding : Binding) (text : List Char) :
    (∃ segments, SpellsSegments binding text segments) ∨
      ∃ stuck fault, FaultyFrom text stuck ∧ readName stuck = .error fault := by
  cases read : readName text with
  | error fault => exact .inr ⟨text, fault, .here (read_name_error_iff.mp read).1, read⟩
  | ok found =>
    obtain ⟨name, after⟩ := found
    obtain ⟨written, same, ends, spells⟩ := read_name_ok_iff.mp read
    obtain rfl | ⟨next, rest, rfl⟩ := ends.cases
    · rw [List.append_nil] at same
      subst same
      exact .inl ⟨_, .last spells⟩
    · subst same
      have shorter : rest.length < (written ++ next.separator :: rest).length := by
        simp only [List.length_append, List.length_cons]
        omega
      obtain ⟨segments, others⟩ | ⟨stuck, fault, faulty, refused⟩ :=
        spells_segments_or_faulty_from next rest
      · exact .inl ⟨_, .more spells others⟩
      · exact .inr ⟨stuck, fault, .behind spells faulty, refused⟩
termination_by text.length

/-- Segments are read exactly where the text stands for them. If the segments were not of the form,
there would be a leftmost fault, and reading would stop there. -/
theorem read_segments_ok_iff :
    readSegments binding text = .ok segments ↔ SpellsSegments binding text segments := by
  constructor
  · intro reads
    obtain ⟨found, spells⟩ | ⟨stuck, fault, faulty, refused⟩ :=
      spells_segments_or_faulty_from binding text
    · cases spells.read_segments.symm.trans reads
      exact spells
    · cases reads.symm.trans (faulty.read_segments refused binding)
  · exact SpellsSegments.read_segments

/-- The leftmost segment that is not of the form is no segment. -/
theorem FaultyFrom.not_begins_segment {stuck : List Char} (faulty : FaultyFrom text stuck) :
    ¬BeginsSegment stuck := by
  induction faulty with
  | here faulty => exact faulty
  | behind _ _ inductionHypothesis => exact inductionHypothesis

/-- Segments are not read exactly where there is a leftmost segment that is not of the form, and
what is wrong with it is reported. Whichever stuck part is given, reading stops there, so there is
only one report. -/
theorem read_segments_error_iff : readSegments binding text = .error fault ↔
    ∃ stuck, FaultyFrom text stuck ∧ (fault = .unterminatedQuote ∧ Unclosed stuck ∨
      fault = .emptySegment ∧ GivesNothing stuck) := by
  constructor
  · intro fails
    obtain ⟨found, spells⟩ | ⟨stuck, other, faulty, refused⟩ :=
      spells_segments_or_faulty_from binding text
    · cases fails.symm.trans spells.read_segments
    · cases fails.symm.trans (faulty.read_segments refused binding)
      exact ⟨stuck, faulty, (read_name_error_iff.mp refused).2⟩
  · rintro ⟨stuck, faulty, kind⟩
    exact faulty.read_segments (read_name_error_iff.mpr ⟨faulty.not_begins_segment, kind⟩) binding

end Segments

section Paths

/-- A leading separator is split off exactly where there is one. It is the only place where the
characters for the bindings are looked at. -/
theorem leads_iff : Leads text binding rest ↔ splitLead text = (binding, rest) := by
  constructor
  · rintro (⟨unmarked⟩ | _)
    · cases text with
      | nil => rfl
      | cons c rest =>
        have none : Binding.ofSeparator? c = none := by
          simpa [Binding.isSeparator] using unmarked c rfl
        simp [splitLead, none]
    · simp [splitLead]
  · intro split
    unfold splitLead at split
    split at split
    · cases split
      exact .unmarked (by simp)
    · next c rest =>
      split at split
      · next marks =>
        cases split
        exact Binding.separator_of_of_separator? marks ▸ .marked
      · next plain =>
        cases split
        exact .unmarked (by simpa [Binding.isSeparator] using plain)

/-- Every text has one part behind the leading separator. -/
theorem exists_leads (text : List Char) : ∃ binding rest, Leads text binding rest ∧
    ∀ other others, Leads text other others → other = binding ∧ others = rest := by
  refine ⟨(splitLead text).1, (splitLead text).2, leads_iff.mpr rfl, fun other others leads => ?_⟩
  rw [leads_iff.mp leads]
  exact ⟨rfl, rfl⟩

/-- Reading a path is reading the segments behind the leading separator. A fault in them is reported
with the whole text, and that they give nothing only for a text that is not empty. The three results
are kept apart here, so that the main statement is a matter of cases. -/
theorem parse_eq {text : String} (leads : Leads text.toList binding rest) :
    parse text = match readSegments binding rest with
      | .ok segments => .ok ⟨segments⟩
      | .error .unterminatedQuote => .error (.unterminatedQuote text)
      | .error .emptySegment => .error (if text.isEmpty then .empty else .emptySegment text) := by
  have split := leads_iff.mp leads
  unfold parse
  generalize splitLead text.toList = parts at split
  subst split
  rfl

/-- **The reader of written paths accepts exactly the grammar.** A text is read as a path exactly
when it stands for it. The empty text is reported as such. Any other text that is not read has a
leftmost segment that is not of the form, and the report says whether this is a quote that stays
open or a segment that gives nothing.

Proof: the text has one part behind the leading separator, and reading the path is reading the
segments of this part. They are read exactly where the part is spelled, and otherwise the report is
that of the leftmost fault. The empty text is the one whose fault is reported without it: it has no
separator and its part is empty, so it gives nothing. For every other text the two faults are
reported as they are, and since each report names the text, they can be told apart. -/
theorem parse_exact (text : String) :
    (∀ path, parse text = .ok path ↔ Spells text path) ∧
    (parse text = .error .empty ↔ text = "") ∧
    (∀ given, parse text = .error (.unterminatedQuote given) ↔
      given = text ∧ ∃ stuck, StuckAt text stuck ∧ Unclosed stuck) ∧
    (∀ given, parse text = .error (.emptySegment given) ↔
      given = text ∧ text ≠ "" ∧ ∃ stuck, StuckAt text stuck ∧ GivesNothing stuck) := by
  obtain ⟨binding, rest, leads, only⟩ := exists_leads text.toList
  have spells (path : NamePath) : Spells text path ↔ SpellsSegments binding rest path.segments := by
    constructor
    · rintro ⟨other, others, again, spells⟩
      obtain ⟨rfl, rfl⟩ := only other others again
      exact spells
    · exact fun spells => ⟨binding, rest, leads, spells⟩
  have stuckAt (stuck : List Char) : StuckAt text stuck ↔ FaultyFrom rest stuck := by
    constructor
    · rintro ⟨other, others, again, faulty⟩
      obtain ⟨rfl, rfl⟩ := only other others again
      exact faulty
    · exact fun faulty => ⟨binding, rest, leads, faulty⟩
  have unclosed : readSegments binding rest = .error .unterminatedQuote ↔
      ∃ stuck, FaultyFrom rest stuck ∧ Unclosed stuck := by
    simp [read_segments_error_iff]
  have nothing : readSegments binding rest = .error .emptySegment ↔
      ∃ stuck, FaultyFrom rest stuck ∧ GivesNothing stuck := by
    simp [read_segments_error_iff]
  have empty : text = "" → readSegments binding rest = .error .emptySegment := by
    rintro rfl
    obtain ⟨-, rfl⟩ := only .static [] (.unmarked (by simp))
    exact read_segments_of_error rfl
  simp only [spells, stuckAt, ← unclosed, ← nothing, ← read_segments_ok_iff, parse_eq leads]
  clear unclosed nothing
  generalize readSegments binding rest = outcome at empty ⊢
  match outcome with
  | .ok segments =>
    have filled : text ≠ "" := fun blank => nomatch empty blank
    refine ⟨fun path => ?_, by simp [filled], by simp, by simp⟩
    obtain ⟨found⟩ := path
    simp
  | .error .unterminatedQuote =>
    have filled : text ≠ "" := fun blank => nomatch empty blank
    simp [filled, eq_comm]
  | .error .emptySegment =>
    by_cases blank : text = ""
    · simp [blank]
    · have turned (given : String) : text = given ↔ given = text := eq_comm
      simpa [blank] using turned

end Paths

end DocGraph.NamePath
