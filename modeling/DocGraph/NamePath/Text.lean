import DocGraph.NamePath.Basic
import DocGraph.NamePath.Error
import DocGraph.Text.Blank

/-!
# The written form of name-paths

A path is written as its names with a separator before each one but the first. A name that is empty
or holds a separator, a quote, a backslash or a blank is written in double quotes, with a backslash
before each quote and backslash.

Reading is more liberal. A leading separator gives the first binding, which is otherwise static. A
bare name may escape any character with a backslash, and a backslash at the very end is dropped.
Text after a closing quote, up to the next separator, is taken literally and belongs to the same
name.

The reader takes one name at a time and what is behind it. That every name takes at least a
character with its separator is what makes it end, and it is proved here beside the reader.
-/

namespace DocGraph.NamePath

/-- What is wrong with one segment, before the whole text is attached to it. -/
inductive SegmentFault where
  | unterminatedQuote
  | emptySegment
deriving DecidableEq

/-- The content of a quoted name up to its closing quote, and what follows. There is no result when
the quote stays open. A backslash keeps whatever follows it, so only a free quote closes the
name. -/
def readQuoted : List Char → Option (List Char × List Char)
  | [] => none
  | '"' :: rest => some ([], rest)
  | ['\\'] => none
  | '\\' :: c :: rest => (readQuoted rest).map fun (name, after) => (c :: name, after)
  | c :: rest => (readQuoted rest).map fun (name, after) => (c :: name, after)

/-- A bare name up to the next unescaped separator, and what follows. Quotes inside of a bare name
are characters like any other. -/
def readBare : List Char → List Char × List Char
  | [] => ([], [])
  | ['\\'] => ([], [])
  | '\\' :: c :: rest =>
    let (name, after) := readBare rest
    (c :: name, after)
  | c :: rest =>
    if Binding.isSeparator c then ([], c :: rest)
    else
      let (name, after) := readBare rest
      (c :: name, after)

/-- One name, quoted or bare, and what follows it: nothing, or a separator. A quoted name may be
empty, and a bare one may not. -/
def readName : List Char → Except SegmentFault (List Char × List Char)
  | '"' :: rest =>
    match readQuoted rest with
    | none => .error .unterminatedQuote
    | some (quoted, after) =>
      .ok (quoted ++ after.takeWhile (!Binding.isSeparator ·),
        after.dropWhile (!Binding.isSeparator ·))
  | text =>
    match readBare text with
    | ([], _) => .error .emptySegment
    | (name, after) => .ok (name, after)

/-- What follows a quoted name is shorter than the quoted text. Proof by induction along the reader:
each case takes a character. -/
theorem read_quoted_length {text name after : List Char}
    (accepted : readQuoted text = some (name, after)) : after.length < text.length := by
  fun_induction readQuoted text generalizing name after with
  | case1 => cases accepted
  | case2 rest => cases accepted; simp
  | case3 => cases accepted
  | case4 c rest inductionHypothesis =>
    obtain ⟨⟨inside, beyond⟩, deeper, same⟩ := Option.map_eq_some_iff.mp accepted
    cases same
    have shorter := inductionHypothesis deeper
    simp only [List.length_cons]
    omega
  | case5 c rest _ _ _ inductionHypothesis =>
    obtain ⟨⟨inside, beyond⟩, deeper, same⟩ := Option.map_eq_some_iff.mp accepted
    cases same
    have shorter := inductionHypothesis deeper
    simp only [List.length_cons]
    omega

/-- What follows a bare name is no longer than the text. A bare name may be empty here, so the two
can be equal. -/
theorem read_bare_length (text : List Char) : (readBare text).2.length ≤ text.length := by
  fun_induction readBare text <;> simp_all <;> omega

/-- What follows a name is no longer than the text. It is stated once for both kinds of names, since
this is how it is used. -/
theorem read_name_length {text name after : List Char}
    (accepted : readName text = .ok (name, after)) : after.length ≤ text.length := by
  unfold readName at accepted
  split at accepted
  · next rest =>
    split at accepted
    · cases accepted
    · next quoted beyond found =>
      cases accepted
      have shorter := read_quoted_length found
      have dropped := (List.dropWhile_sublist (!Binding.isSeparator ·) (l := beyond)).length_le
      simp only [List.length_cons]
      omega
  · split at accepted
    · cases accepted
    · next found =>
      cases accepted
      have bounded := read_bare_length text
      rw [found] at bounded
      exact bounded

/-- All segments of a text, the first with a given binding. A separator at the end of the text
announces a name that is not there. -/
def readSegments (binding : Binding) (text : List Char) : Except SegmentFault (List Segment) :=
  match accepted : readName text with
  | .error fault => .error fault
  | .ok (name, []) => .ok [⟨binding, String.ofList name⟩]
  | .ok (name, mark :: rest) =>
    have : rest.length < text.length :=
      Nat.lt_of_succ_le (read_name_length accepted)
    match readSegments ((Binding.ofSeparator? mark).getD .static) rest with
    | .error fault => .error fault
    | .ok segments => .ok (⟨binding, String.ofList name⟩ :: segments)
termination_by text.length

/-- The leading separator's binding, static without one, and the names. Only one separator is
taken. -/
def splitLead (text : List Char) : Binding × List Char :=
  match text with
  | [] => (.static, [])
  | c :: rest =>
    match Binding.ofSeparator? c with
    | some binding => (binding, rest)
    | none => (.static, c :: rest)

/-- Read a non-empty path. The root is not among the results. -/
def parse (text : String) : Except PathError NamePath :=
  let (binding, names) := splitLead text.toList
  match readSegments binding names with
  | .ok segments => .ok ⟨segments⟩
  | .error .unterminatedQuote => .error (.unterminatedQuote text)
  | .error .emptySegment => .error (if text.isEmpty then .empty else .emptySegment text)

/-- Read a path where the empty text stands for the root. In snapshots the root has to be written
somehow. -/
def parseOrRoot (text : String) : Except PathError NamePath :=
  if text.isEmpty then .ok root else parse text

/-- Whether a text begins with a separator, so that its first binding is meant. -/
def startsWithSeparator (text : String) : Bool :=
  match text.toList with
  | [] => false
  | c :: _ => Binding.isSeparator c

/-- Whether a name cannot be written bare. All characters that the reader of bare names treats in a
special way are among these. -/
def needsQuotes (name : List Char) : Bool :=
  name.isEmpty ||
    name.any fun c => Binding.isSeparator c || c = '"' || c = '\\' || Text.isBlank c

/-- A backslash before each quote and each backslash. So a quote in a name does not close it. -/
def escapeName : List Char → List Char
  | [] => []
  | c :: rest => if c = '"' ∨ c = '\\' then '\\' :: c :: escapeName rest else c :: escapeName rest

/-- The written form of one name. It is never empty. -/
def renderName (name : String) : List Char :=
  if needsQuotes name.toList then '"' :: escapeName name.toList ++ ['"'] else name.toList

/-- The written form of the segments after the first, each behind its separator. These can be told
from the name before, as a written name holds no free separator. -/
def renderRest (segments : List Segment) : List Char :=
  segments.flatMap fun segment => segment.binding.separator :: renderName segment.name

/-- The characters of the written form. The first binding is not written. The root is written as
nothing. -/
def renderChars (path : NamePath) : List Char :=
  match path.segments with
  | [] => []
  | first :: rest => renderName first.name ++ renderRest rest

/-- The written form of a path. -/
def render (path : NamePath) : String := String.ofList path.renderChars

end DocGraph.NamePath
