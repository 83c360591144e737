import DocGraph.Proofs.TagParts

/-!
# The text of faulty tags

A tag that cannot be read to its end keeps the parts that were read before the fault, and the rest
of its text becomes its body. There are four places where reading can end: at a type that is never
closed, before or behind the name, at a name in square brackets that are never closed, and where the
name is missing.

At all of them nothing is lost but blanks, with one exception. Where square brackets stand in the
place of the name and hold no name, they are neither recorded nor kept: the body begins behind them,
and a default that they hold is gone.

The four places are the constructors of one relation between a text and its reading. That every
fault is one of them is shown once for the two ways in which tags are read, and what becomes of the
text is then shown for each constructor.
-/

namespace DocGraph.Comment

open Text

variable {kind : TagKind} {text content rest after start : List Char} {param : TagParam}
  {type : Option (List Char)} {recorded : Option String} {reading : TagReading} {tag : Tag}
  {fault : TagFault} {block : Block}

/-- A text begins with the recorded type: a complete group in braces, or nothing. The last text is
what stands behind the type. Blanks in the group are not recorded, which is the first of the two
places where some are left out. -/
inductive HoldsType : Option String → List Char → List Char → Prop where
  | none {text : List Char} : HoldsType none text text
  | group {content rest : List Char} (balanced : Balanced '{' '}' content) :
      HoldsType (some (String.ofList (trim content))) ('{' :: content ++ '}' :: rest) rest

/-- A text begins with the recorded name: a word, a complete group in square brackets, or nothing.
That the word ends at a blank makes the name as long as it can be. -/
inductive HoldsName : Option TagParam → List Char → List Char → Prop where
  | none {text : List Char} : HoldsName none text text
  | word {word rest : List Char} (filled : word ≠ []) (solid : ∀ c ∈ word, isBlank c = false)
      (ends : ∀ c ∈ rest.head?, isBlank c = true) :
      HoldsName (some { name := String.ofList word }) (word ++ rest) rest
  | group {content rest : List Char} (balanced : Balanced '[' ']' content) :
      HoldsName (some (optionalName content)) ('[' :: content ++ ']' :: rest) rest

/-- The body of a tag is the whole text behind the parts that the tag records, but for blanks around
these. It does not say how the tag was read, only what it records and what is left for its body. -/
def KeepsText (tag : Tag) (text : List Char) : Prop :=
  ∃ behindType behindName,
    HoldsType tag.typeExpr (trimStart text) behindType ∧
      HoldsName tag.param (trimStart behindType) behindName ∧
      tag.body = String.ofList (trim behindName)

/-- Square brackets around `content`, which is no name, stand behind the recorded type of a tag, and
`after` follows them. The content may hold a default, a space or nothing at all, so long as no name
stands in front of it. -/
def LacksName (tag : Tag) (text content after : List Char) : Prop :=
  ∃ behindType,
    HoldsType tag.typeExpr (trimStart text) behindType ∧
      trimStart behindType = '[' :: content ++ ']' :: after ∧
      Balanced '[' ']' content ∧ (optionalName content).name = ""

section Parts

/-- The recorded type leaves only one rest. Two groups at the start of one text are the same, since
a balanced content ends where its bracket is closed. -/
theorem HoldsType.unique {other : List Char} (holds : HoldsType recorded text rest)
    (again : HoldsType recorded text other) : rest = other := by
  cases holds with
  | none =>
    cases again
    rfl
  | @group content rest balanced =>
    generalize whole : '{' :: content ++ '}' :: rest = text at again
    generalize same : some (String.ofList (trim content)) = recorded at again
    cases again with
    | none => cases same
    | group alike => exact (group_unique braces balanced alike whole).2

/-- A type that was read is recorded, and blanks behind it are left out. A text without a brace has
no type, and then nothing is left out. -/
theorem holds_type_of_read_type (begins : trimStart text = text)
    (typed : readType text = .ok (type, after)) :
    ∃ rest, HoldsType (type.map String.ofList) text rest ∧ after = trimStart rest := by
  rw [readType] at typed
  split at typed
  · cases typed
    exact ⟨text, .none, begins.symm⟩
  · next content rest group =>
    obtain ⟨rfl, balanced⟩ := (split_group_eq_found_iff braces).mp group
    cases typed
    exact ⟨rest, .group balanced, rfl⟩
  · cases typed

/-- What is read as a name is a group in square brackets or a word. The word may be empty, and then
there is no name. -/
theorem read_name_cases (named : readName text = .ok (param, after)) :
    (∃ content rest, text = '[' :: content ++ ']' :: rest ∧ Balanced '[' ']' content ∧
        param = optionalName content ∧ after = trimStart rest) ∨
      text.head? ≠ some '[' ∧ param = { name := String.ofList (splitWord isBlank text).1 } ∧
        after = (splitWord isBlank text).2 := by
  rw [readName] at named
  split at named
  · next content rest group =>
    obtain ⟨rfl, balanced⟩ := (split_group_eq_found_iff brackets).mp group
    cases named
    exact .inl ⟨content, rest, rfl, balanced, rfl, rfl⟩
  · cases named
  · next absent =>
    cases named
    exact .inr ⟨split_group_eq_absent_iff.mp absent, rfl, rfl⟩

/-- A text that does not begin with a blank begins with a word, if it is not empty. -/
theorem eq_nil_of_split_word (begins : trimStart text = text)
    (wordless : (splitWord isBlank text).1 = []) : text = [] := by
  have whole : text.dropWhile isBlank = text := begins
  rw [splitWord, whole] at wordless
  cases text with
  | nil => rfl
  | cons c rest =>
    have solid := List.head?_dropWhile_not isBlank (c :: rest)
    rw [whole] at solid
    simp [show isBlank c = false from solid] at wordless

/-- A name that was read is recorded, and blanks behind it are left out. -/
theorem holds_name_of_read_name (begins : trimStart text = text)
    (named : readName text = .ok (param, after)) (filled : param.name ≠ "") :
    ∃ rest, HoldsName (some param) text rest ∧ after = trimStart rest := by
  obtain ⟨content, rest, rfl, balanced, rfl, rfl⟩ | ⟨_, rfl, rfl⟩ := read_name_cases named
  · exact ⟨rest, .group balanced, rfl⟩
  · -- The word is not empty, and behind it stands a blank or nothing.
    have parts : (splitWord isBlank text).1 = text.takeWhile (!isBlank ·) ∧
        (splitWord isBlank text).2 = trimStart (text.dropWhile (!isBlank ·)) := by
      have whole : text.dropWhile isBlank = text := begins
      rw [splitWord, whole]
      exact ⟨rfl, rfl⟩
    obtain ⟨word, next⟩ := parts
    rw [word] at filled ⊢
    rw [next]
    refine ⟨text.dropWhile (!isBlank ·), ?_, rfl⟩
    have held : HoldsName (some { name := String.ofList (text.takeWhile (!isBlank ·)) })
        (text.takeWhile (!isBlank ·) ++ text.dropWhile (!isBlank ·))
        (text.dropWhile (!isBlank ·)) := by
      refine .word (fun empty => filled (by rw [empty])) (fun c present => ?_) fun c first => ?_
      · simpa using List.mem_takeWhile_imp present
      · have stops := List.head?_dropWhile_not (!isBlank ·) text
        rw [Option.mem_def.mp first] at stops
        simpa using stops
    rwa [List.takeWhile_append_dropWhile] at held

end Parts

section Exits

/-- The places at which the reading of a tag ends with a fault. Each constructor gives the whole
reading, so that body and recorded parts are known from it. A type behind the name is looked for
only where none stands in front of it. -/
inductive FaultyReading (kind : TagKind) (text : List Char) : TagReading → Prop where
  | openType (unclosed : splitBraces (trimStart text) = .unterminated) :
      FaultyReading kind text (keptAsText { kind := kind } (trimStart text) .unterminatedBrace)
  | openBrackets {type : Option (List Char)} {start : List Char}
      (typed : readType (trimStart text) = .ok (type, start))
      (unclosed : splitBrackets start = .unterminated) :
      FaultyReading kind text
        (keptAsText { kind := kind, typeExpr := type.map String.ofList } start .unterminatedBracket)
  | nameless {type : Option (List Char)} {start after : List Char} {param : TagParam}
      (typed : readType (trimStart text) = .ok (type, start))
      (named : readName start = .ok (param, after)) (empty : param.name = "") :
      FaultyReading kind text
        (keptAsText { kind := kind, typeExpr := type.map String.ofList } after .missingName)
  | openTypeBehind {start after : List Char} {param : TagParam}
      (untyped : readType (trimStart text) = .ok (none, start))
      (named : readName start = .ok (param, after)) (filled : param.name ≠ "")
      (unclosed : splitBraces after = .unterminated) :
      FaultyReading kind text
        (keptAsText { kind := kind, param := some param } after .unterminatedBrace)

/-- A type is not read only where its brace is never closed. -/
theorem read_type_eq_error (failed : readType text = .error fault) :
    splitBraces text = .unterminated ∧ fault = .unterminatedBrace := by
  rw [readType] at failed
  split at failed
  · cases failed
  · cases failed
  · next unclosed =>
    cases failed
    exact ⟨unclosed, rfl⟩

/-- A name is not read only where its square bracket is never closed. -/
theorem read_name_eq_error (failed : readName text = .error fault) :
    splitBrackets text = .unterminated ∧ fault = .unterminatedBracket := by
  rw [readName] at failed
  split at failed
  · cases failed
  · next unclosed =>
    cases failed
    exact ⟨unclosed, rfl⟩
  · cases failed

/-- The tag of a parameter ends with a fault at one of the four places. The branches of reading are
gone through, and in all others there is no fault. -/
theorem faulty_reading_of_read_param (faulty : (readParam kind text).fault = some fault) :
    FaultyReading kind text (readParam kind text) := by
  rw [readParam] at faulty ⊢
  dsimp only at faulty ⊢
  cases typed : readType (trimStart text) with
  | error fault =>
    obtain ⟨unclosed, rfl⟩ := read_type_eq_error typed
    exact .openType unclosed
  | ok parts =>
    obtain ⟨type, start⟩ := parts
    rw [typed] at faulty
    dsimp only at faulty ⊢
    cases named : readName start with
    | error fault =>
      obtain ⟨unclosed, rfl⟩ := read_name_eq_error named
      exact .openBrackets typed unclosed
    | ok parts =>
      obtain ⟨param, after⟩ := parts
      rw [named] at faulty
      dsimp only at faulty ⊢
      by_cases empty : param.name = ""
      · rw [if_pos (String.isEmpty_iff.mpr empty)]
        exact .nameless typed named empty
      · have filled : ¬param.name.isEmpty = true := mt String.isEmpty_iff.mp empty
        rw [if_neg filled] at faulty ⊢
        cases type with
        | some type => cases faulty
        | none =>
          dsimp only at faulty ⊢
          cases behind : readType after with
          | error fault =>
            obtain ⟨unclosed, rfl⟩ := read_type_eq_error behind
            exact .openTypeBehind typed named empty unclosed
          | ok parts =>
            rw [behind] at faulty
            cases faulty

/-- A typed tag ends with a fault at a type that is never closed. -/
theorem faulty_reading_of_read_typed (faulty : (readTyped kind text).fault = some fault) :
    FaultyReading kind text (readTyped kind text) := by
  rw [readTyped] at faulty ⊢
  dsimp only at faulty ⊢
  cases typed : readType (trimStart text) with
  | error fault =>
    obtain ⟨unclosed, rfl⟩ := read_type_eq_error typed
    exact .openType unclosed
  | ok parts =>
    rw [typed] at faulty
    cases faulty

/-- A tag of a comment ends with a fault at one of the four places. -/
theorem faulty_reading_of_read (faulty : block.read.fault = some fault) :
    FaultyReading (TagKind.ofName (String.ofList block.name)) (unwrap block.lines) block.read := by
  unfold Block.read at faulty ⊢
  generalize TagKind.ofName (String.ofList block.name) = kind at faulty ⊢
  dsimp only at faulty ⊢
  split at faulty
  · cases faulty
  · exact faulty_reading_of_read_param faulty
  · exact faulty_reading_of_read_param faulty
  · cases faulty
  · split at faulty
    · cases faulty
    · next argued =>
      rw [if_neg argued]
      exact faulty_reading_of_read_typed faulty

end Exits

section Keeping

/-- What happens to the text of a faulty tag: it is kept if there are no square brackets without a
name, and otherwise what stands in front of the body is lost together with them. The second part
says what the body is when the text is not kept, so that both cases are described. -/
structure Outcome (text : List Char) (reading : TagReading) : Prop where
  keeps_iff : KeepsText reading.tag text ↔
    ¬∃ content after, LacksName reading.tag text content after
  lost : ∀ content after, LacksName reading.tag text content after →
    reading.fault = some .missingName ∧ reading.tag.param = none ∧
      reading.tag.body = String.ofList (trim after)

/-- A tag that keeps its text and does not lack a name has the expected outcome. -/
theorem Outcome.kept (keeps : KeepsText reading.tag text)
    (named : ∀ content after, ¬LacksName reading.tag text content after) :
    Outcome text reading where
  keeps_iff := iff_of_true keeps fun ⟨content, after, lacks⟩ => named content after lacks
  lost content after lacks := absurd lacks (named content after)

/-- A tag without a recorded name keeps its text if its body is what follows the type. -/
theorem keeps_text_of_type (holds : HoldsType tag.typeExpr (trimStart text) rest)
    (nameless : tag.param = none) (body : tag.body = String.ofList (trim (trimStart rest))) :
    KeepsText tag text :=
  ⟨rest, trimStart rest, holds, nameless ▸ .none, body⟩

/-- Only one text follows the recorded type, so brackets without a name stand at its start. It is by
this that a text which is kept is seen not to lack a name. -/
theorem LacksName.behind_type (lacks : LacksName tag text content after)
    (holds : HoldsType tag.typeExpr (trimStart text) rest) :
    trimStart rest = '[' :: content ++ ']' :: after ∧ Balanced '[' ']' content ∧
      (optionalName content).name = "" := by
  obtain ⟨behindType, again, brackets⟩ := lacks
  rwa [holds.unique again]

/-- A type that is never closed is kept with all that follows it. No type is recorded, so the body
is the whole text. -/
theorem outcome_open_type (unclosed : splitBraces (trimStart text) = .unterminated) :
    Outcome text (keptAsText { kind := kind } (trimStart text) .unterminatedBrace) := by
  have holds : HoldsType none (trimStart text) (trimStart text) := .none
  refine .kept (keeps_text_of_type holds rfl ?_) fun content after lacks => ?_
  · rw [trim_trim_start]
    rfl
  · have brackets := (lacks.behind_type holds).1
    rw [trim_start_trim_start] at brackets
    have absent : splitBraces (trimStart text) = .absent :=
      split_group_eq_absent_iff.mpr (by simp [brackets])
    cases unclosed.symm.trans absent

/-- A square bracket that is never closed is kept with all that follows it. -/
theorem outcome_open_brackets (typed : readType (trimStart text) = .ok (type, start))
    (unclosed : splitBrackets start = .unterminated) :
    Outcome text (keptAsText { kind := kind, typeExpr := type.map String.ofList } start
      .unterminatedBracket) := by
  obtain ⟨rest, holds, rfl⟩ := holds_type_of_read_type (trim_start_trim_start text) typed
  refine .kept (keeps_text_of_type holds rfl rfl) fun content after lacks => ?_
  have group : splitBrackets (trimStart rest) = .found content after :=
    have ⟨whole, balanced, _⟩ := lacks.behind_type holds
    (split_group_eq_found_iff brackets).mpr ⟨whole, balanced⟩
  cases unclosed.symm.trans group

/-- A body that begins behind square brackets does not hold them. Trimming takes blanks off both
ends, and the brackets are none, so the lengths differ. -/
theorem trim_behind_brackets_ne (content remaining : List Char) :
    trim (trimStart remaining) ≠ trim ('[' :: content ++ ']' :: remaining) := by
  intro same
  -- The brackets alone are two characters more that are no blanks.
  have counts := congrArg solidCount same
  rw [solid_count_trim, solid_count_trim, solid_count_trim_start] at counts
  have more : solidCount remaining < solidCount ('[' :: content ++ ']' :: remaining) := by
    rw [solidCount, solidCount, List.countP_append, List.countP_cons_of_pos (by decide),
      List.countP_cons_of_pos (by decide)]
    omega
  exact absurd counts (Nat.ne_of_lt more)

/-- Where a name is missing, nothing follows the type, or brackets without a name that are lost.

Proof: if the name was read from brackets, these are what is lost, and the body is what follows
them, so it cannot be the whole rest. If it was read as a word, the word is empty, and so is
everything behind the type. -/
theorem outcome_nameless (typed : readType (trimStart text) = .ok (type, start))
    (named : readName start = .ok (param, after)) (empty : param.name = "") :
    Outcome text (keptAsText { kind := kind, typeExpr := type.map String.ofList } after
      .missingName) := by
  obtain ⟨rest, holds, rfl⟩ := holds_type_of_read_type (trim_start_trim_start text) typed
  obtain ⟨content, remaining, whole, balanced, rfl, rfl⟩ | ⟨noBracket, rfl, rfl⟩ :=
    read_name_cases named
  · refine ⟨iff_of_false ?_ (not_not.mpr ⟨content, remaining, rest, holds, whole, balanced, empty⟩),
      fun other following lacks => ?_⟩
    · rintro ⟨behindType, behindName, again, unnamed, body⟩
      obtain rfl : rest = behindType := holds.unique again
      cases unnamed
      have same := String.ofList_injective body
      rw [whole] at same
      exact trim_behind_brackets_ne content remaining same
    · obtain ⟨again, alike, _⟩ := lacks.behind_type holds
      obtain ⟨_, rfl⟩ := group_unique brackets balanced alike (whole.symm.trans again)
      exact ⟨rfl, rfl, congrArg String.ofList (trim_trim_start remaining)⟩
  · have nothing : trimStart rest = [] :=
      eq_nil_of_split_word (trim_start_trim_start rest) (String.ofList_injective empty)
    refine .kept (keeps_text_of_type holds rfl ?_) fun content after lacks => ?_
    · rw [nothing]
      rfl
    · exact absurd (congrArg List.head? (lacks.behind_type holds).1) noBracket

/-- A type behind the name that is never closed is kept with all that follows it. -/
theorem outcome_open_type_behind (untyped : readType (trimStart text) = .ok (none, start))
    (named : readName start = .ok (param, after)) (filled : param.name ≠ "") :
    Outcome text (keptAsText { kind := kind, param := some param } after .unterminatedBrace) := by
  obtain ⟨rest, holds, rfl⟩ := holds_type_of_read_type (trim_start_trim_start text) untyped
  obtain ⟨behindName, held, rfl⟩ :=
    holds_name_of_read_name (trim_start_trim_start rest) named filled
  refine .kept ⟨rest, behindName, holds, held, congrArg String.ofList (trim_trim_start behindName)⟩
    fun content after lacks => ?_
  obtain ⟨whole, balanced, nameless⟩ := lacks.behind_type holds
  rw [whole, read_name_group balanced] at named
  have same : optionalName content = param := congrArg Prod.fst (Except.ok.inj named)
  exact filled (same ▸ nameless)

/-- At each of the four places a fault has the expected outcome. From here on it does not matter
where the reading ended. -/
theorem outcome_of_faulty_reading (faulty : FaultyReading kind text reading) :
    Outcome text reading := by
  cases faulty with
  | openType unclosed => exact outcome_open_type unclosed
  | openBrackets typed unclosed => exact outcome_open_brackets typed unclosed
  | nameless typed named empty => exact outcome_nameless typed named empty
  | openTypeBehind untyped named filled _ => exact outcome_open_type_behind untyped named filled

end Keeping

/-- The tags of a comment are read one by one. -/
theorem tags_parse (raw : String) (location : Location) :
    (parse raw location).1.tags =
      (gather (roles false (contentLines raw.toList))).2.map fun block => block.read.tag := by
  unfold parse
  generalize gather (roles false (contentLines raw.toList)) = parts
  exact List.map_map

/-- The warnings about a comment are those about its faulty tags. -/
theorem warnings_parse (raw : String) (location : Location) :
    (parse raw location).2 = (gather (roles false (contentLines raw.toList))).2.filterMap
      fun block => block.read.fault.map (warning location block.name) := by
  unfold parse
  generalize gather (roles false (contentLines raw.toList)) = parts
  exact List.filterMap_map

/-- **Faulty tags keep their text, but for square brackets without a name.** A tag of a comment that
was read with a fault stands among the tags, and there is a warning about it. Its body is the whole
text behind the parts that it records exactly if no square brackets without a name follow the type;
such brackets are lost, and the body is what follows them.

Proof: the tags of a comment are the readings of its blocks in order, so the tag and its warning are
found at the place of the block. A faulty reading ends at one of the four places, and at each of
them the outcome is as stated. That brackets without a name are lost, and nothing else, is the
outcome at the third one. -/
theorem keeps_text_iff (raw : String) (location : Location) {earlier later : List Block}
    (found : (gather (roles false (contentLines raw.toList))).2 = earlier ++ block :: later)
    (faulty : block.read.fault = some fault) :
    (parse raw location).1.tags[earlier.length]? = some block.read.tag ∧
      warning location block.name fault ∈ (parse raw location).2 ∧
      (KeepsText block.read.tag (unwrap block.lines) ↔
        ¬∃ content after, LacksName block.read.tag (unwrap block.lines) content after) ∧
      ∀ content after, LacksName block.read.tag (unwrap block.lines) content after →
        fault = .missingName ∧ block.read.tag.param = none ∧
          block.read.tag.body = String.ofList (trim after) := by
  have outcome := outcome_of_faulty_reading (faulty_reading_of_read faulty)
  refine ⟨?_, ?_, outcome.keeps_iff, fun content after lacks => ?_⟩
  · rw [tags_parse, found, List.map_append, List.map_cons, List.getElem?_append_right (by simp)]
    simp
  · rw [warnings_parse, found, List.mem_filterMap]
    exact ⟨block, by simp, by rw [faulty]; rfl⟩
  · obtain ⟨missing, unnamed, body⟩ := outcome.lost content after lacks
    exact ⟨Option.some.inj (faulty.symm.trans missing), unnamed, body⟩

/-- A comment with a parameter whose type, behind its name, is never closed. -/
def openBehind : String := "/**\n * @returns it\n * @param ...[x] \x7bT the rest\n *  of it\n */"

/-- The lines of that parameter. -/
def openBehindBlock : Block :=
  ⟨"param".toList, [" ...[x] \x7bT the rest".toList, " of it".toList, []]⟩

/-- The name is recorded and the rest is kept. -/
theorem open_behind_keeps_text :
    (gather (roles false (contentLines openBehind.toList))).2 =
        [⟨"returns".toList, [" it".toList]⟩] ++ openBehindBlock :: [] ∧
      openBehindBlock.read =
        ⟨{ kind := .param, param := some { name := "...[x]" }, body := "\x7bT the rest of it" },
          some .unterminatedBrace⟩ ∧
      KeepsText openBehindBlock.read.tag (unwrap openBehindBlock.lines) := by
  have lines : contentLines openBehind.toList = [[], "@returns it".toList,
    "@param ...[x] \x7bT the rest".toList, " of it".toList, []] := by cbv
  have found : (gather (roles false (contentLines openBehind.toList))).2 =
      [⟨"returns".toList, [" it".toList]⟩] ++ openBehindBlock :: [] := by
    rw [lines]
    rfl
  have read : openBehindBlock.read =
      ⟨{ kind := .param, param := some { name := "...[x]" }, body := "\x7bT the rest of it" },
        some .unterminatedBrace⟩ := by rfl
  have faulty : openBehindBlock.read.fault = some .unterminatedBrace := congrArg _ read
  have untyped : openBehindBlock.read.tag.typeExpr = none :=
    congrArg (fun read => read.tag.typeExpr) read
  refine ⟨found, read, (keeps_text_iff openBehind ⟨"a.js", 1⟩ found faulty).2.2.1.mpr ?_⟩
  rintro ⟨content, after, lacks⟩
  have holds : HoldsType openBehindBlock.read.tag.typeExpr
      (trimStart (unwrap openBehindBlock.lines)) (trimStart (unwrap openBehindBlock.lines)) := by
    rw [untyped]
    exact .none
  have first : (trimStart (trimStart (unwrap openBehindBlock.lines))).head? = some '[' :=
    congrArg List.head? (lacks.behind_type holds).1
  exact absurd first (by decide)

/-- A comment with a parameter that has a default and no name. -/
def namelessDefault : String := "/** @param \x7bnumber\x7d [=5] The value. */"

/-- The lines of that parameter. -/
def namelessBlock : Block := ⟨"param".toList, [" \x7bnumber\x7d [=5] The value.".toList]⟩

/-- The default is lost, though the warning says that the tag is kept as text. The brackets and the
default are in no part of the tag, and the warning gives only the kind of the fault. -/
theorem nameless_default_loses_text :
    (gather (roles false (contentLines namelessDefault.toList))).2 = [namelessBlock] ∧
      parse namelessDefault ⟨"a.js", 1⟩ =
        ({ tags := [{ kind := .param, typeExpr := "number", body := "The value." }] },
          [⟨.malformedTag, "@param: missing name, kept as text", some ⟨"a.js", 1⟩⟩]) ∧
      ¬KeepsText namelessBlock.read.tag (unwrap namelessBlock.lines) := by
  have lines : contentLines namelessDefault.toList =
      [" @param \x7bnumber\x7d [=5] The value.".toList] := by cbv
  have read : namelessBlock.read =
      ⟨{ kind := .param, typeExpr := "number", body := "The value." }, some .missingName⟩ := by rfl
  have typed : namelessBlock.read.tag.typeExpr = "number" :=
    congrArg (fun read => read.tag.typeExpr) read
  have number : Balanced '{' '}' "number".toList := by decide
  have lacks : LacksName namelessBlock.read.tag (unwrap namelessBlock.lines) "=5".toList
      " The value.".toList :=
    ⟨" [=5] The value.".toList, typed ▸ .group number, by decide, by decide, by decide⟩
  have outcome := outcome_of_faulty_reading (faulty_reading_of_read (congrArg _ read))
  have parsed : parse namelessDefault ⟨"a.js", 1⟩ =
      ({ tags := [{ kind := .param, typeExpr := "number", body := "The value." }] },
        [⟨.malformedTag, "@param: missing name, kept as text", some ⟨"a.js", 1⟩⟩]) := by
    rw [parse, lines]
    rfl
  exact ⟨by rw [lines]; rfl, parsed, fun keeps => outcome.keeps_iff.mp keeps ⟨_, _, lacks⟩⟩

end DocGraph.Comment
