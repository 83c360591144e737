import Mathlib.Algebra.Ring.Parity
import DocGraph.Comment.Basic

/-!
# Fenced blocks in the two passes over a comment

The lines of a comment are gone through twice. The first pass looks for the lines that open a tag
and passes over fenced blocks; the second one unwraps the lines of a single tag and keeps fenced
blocks as they are. Each pass keeps a flag of its own, and here both flags are computed: behind the
line that opens a tag, each is turned over by the fence lines passed so far.

The passes differ in one line. The second begins with the text that follows the name of the tag,
which the first has taken off together with the name. So both agree on every line of a tag when that
text is no fence line; when it is one, they disagree on all of them.

Fence lines are only counted: a line lies inside a block when an odd number of them stands before
it, and an opening fence is not matched with its closing one by its length or by what follows it.
Both passes do the same, so the comparison may be about parities.
-/

namespace DocGraph.Comment

open Text

variable {line opener own : List Char} {lines front rest before following inner : List (List Char)}
  {inFence : Bool} {flow : Flow} {block : Block}

/-- What stands behind lines with an odd number of fence lines lies in a fenced block. It is a
property of the lines in front, counted from the line that begins the tag. -/
def InFence (lines : List (List Char)) : Prop := Odd (lines.countP isFence)

instance (lines : List (List Char)) : Decidable (InFence lines) :=
  inferInstanceAs (Decidable (Odd (lines.countP isFence)))

/-- Every fence line turns the state over. -/
theorem in_fence_cons : InFence (line :: lines) ↔ ¬(isFence line = true ↔ InFence lines) := by
  unfold InFence
  rw [List.countP_cons]
  cases isFence line
  · simp
  · simp [Nat.odd_add_one]

/-- A flag that every fence line turns over, turned over by one more line. With it a flag that is
carried along a list is compared with a parity by induction. -/
theorem turned_cons (inFence : Bool) (line : List Char) (lines : List (List Char)) :
    (inFence != decide (InFence (line :: lines))) =
      ((inFence != isFence line) != decide (InFence lines)) := by
  have turned : decide (InFence (line :: lines)) = (isFence line != decide (InFence lines)) := by
    by_cases inside : InFence lines
    · cases fence : isFence line <;> simp [in_fence_cons, fence, inside]
    · cases fence : isFence line <;> simp [in_fence_cons, fence, inside]
  rw [turned, Bool.bne_assoc]

/-- Lines without a fence line change nothing. It allows to leave out lines at the end that are
known to hold no fence. -/
theorem in_fence_append_of_plain (plain : ∀ line ∈ rest, isFence line = false) :
    InFence (front ++ rest) ↔ InFence front := by
  have none : rest.countP isFence = 0 := List.countP_eq_zero.mpr fun line present => by
    rw [plain line present]
    exact Bool.false_ne_true
  unfold InFence
  rw [List.countP_append, none, Nat.add_zero]

section FirstPass

/-- The tag that a line opens, if it does not lie in a fenced block. It is the one place where the
first pass asks for its flag. -/
def opening? (inFence : Bool) (line : List Char) : Option (List Char × List Char) :=
  if inFence then none else tagLine? line

/-- Whether the first pass takes what follows some lines for the inside of a fenced block. A line
that opens a tag leaves the flag alone, even if a fence stands in it. That is the slip which the
main result is about. -/
def fenceAfter (inFence : Bool) : List (List Char) → Bool
  | [] => inFence
  | line :: rest =>
    match opening? inFence line with
    | some _ => fenceAfter inFence rest
    | none => fenceAfter (inFence != isFence line) rest

/-- The role of a line is decided by the tag that it opens in the state at hand. -/
theorem roles_cons (inFence : Bool) (line : List Char) (rest : List (List Char)) :
    roles inFence (line :: rest) =
      match opening? inFence line with
      | some (name, own) => .opening name own :: roles inFence rest
      | none => .text line :: roles (inFence != isFence line) rest := by
  rw [roles]
  rfl

/-- A line that opens a tag has that role, and the fence state stays as it is. -/
theorem roles_of_opening {name : List Char} (opens : opening? inFence line = some (name, own)) :
    roles inFence (line :: rest) = .opening name own :: roles inFence rest ∧
      fenceAfter inFence (line :: rest) = fenceAfter inFence rest := by
  constructor
  · rw [roles_cons, opens]
  · rw [fenceAfter, opens]

/-- A line that opens no tag is text, and turns the fence state over if it is a fence line. -/
theorem roles_of_text (plain : opening? inFence line = none) :
    roles inFence (line :: rest) = .text line :: roles (inFence != isFence line) rest ∧
      fenceAfter inFence (line :: rest) = fenceAfter (inFence != isFence line) rest := by
  constructor
  · rw [roles_cons, plain]
  · rw [fenceAfter, plain]

/-- A line has one role, and the first pass leaves it in one state, whatever follows. This is what
lets a fact about the lines behind a line be carried over to the lines from it on. -/
theorem exists_role (inFence : Bool) (line : List Char) :
    ∃ role state, ∀ rest, roles inFence (line :: rest) = role :: roles state rest ∧
      fenceAfter inFence (line :: rest) = fenceAfter state rest := by
  cases found : opening? inFence line with
  | none => exact ⟨.text line, inFence != isFence line, fun _ => roles_of_text found⟩
  | some parts => exact ⟨.opening parts.1 parts.2, inFence, fun _ => roles_of_opening found⟩

/-- The first pass reaches later lines in the state that the earlier ones leave. A comment can
therefore be cut anywhere, as long as the state at the cut is named. -/
theorem roles_append (inFence : Bool) (front rest : List (List Char)) :
    roles inFence (front ++ rest) = roles inFence front ++ roles (fenceAfter inFence front) rest ∧
      fenceAfter inFence (front ++ rest) = fenceAfter (fenceAfter inFence front) rest := by
  induction front generalizing inFence with
  | nil => exact ⟨rfl, rfl⟩
  | cons line front inductionHypothesis =>
    obtain ⟨role, state, reads⟩ := exists_role inFence line
    obtain ⟨later, reached⟩ := inductionHypothesis state
    rw [List.cons_append, (reads _).1, (reads _).2, (reads _).1, (reads _).2, later, reached]
    exact ⟨rfl, rfl⟩

/-- Behind lines that open no tag the first pass has turned its flag over at every fence line.
Within a tag no line opens another one, so all of its lines count. -/
theorem fence_after_of_text (plain : roles inFence lines = lines.map .text) :
    fenceAfter inFence lines = (inFence != decide (InFence lines)) := by
  induction lines generalizing inFence with
  | nil => simp [fenceAfter, InFence]
  | cons line rest inductionHypothesis =>
    rw [List.map_cons] at plain
    cases found : opening? inFence line with
    | some parts =>
      rw [(roles_of_opening found).1] at plain
      cases plain
    | none =>
      rw [(roles_of_text found).1, List.cons.injEq] at plain
      rw [(roles_of_text found).2, inductionHypothesis plain.2, turned_cons]

/-- A tag in its place among the lines of a comment: a line opens it behind the lines `before`,
which hold the tags `earlier`, and the lines `following` belong to it. What remains is nothing or
begins with the next tag. The parts are the lines themselves, so that one may speak of a position in
a comment. The lines of the tag are read from a flag that is not set, because a tag is only opened
outside of a fenced block. -/
structure Stands (inFence : Bool) (comment : List (List Char)) (earlier : List Block)
    (block : Block) (before : List (List Char)) (opener own : List Char)
    (following rest : List (List Char)) : Prop where
  place : comment = before ++ opener :: (following ++ rest)
  behind : gather (roles inFence before) = ((gather (roles inFence comment)).1, earlier)
  opens : opening? (fenceAfter inFence before) opener = some (block.name, own)
  content : block.lines = own :: following
  continues : roles false following = following.map .text
  ends : ∀ line ∈ rest.head?, (opening? (fenceAfter false following) line).isSome = true

/-- The lines before the first tag are text, and what follows them begins with the tag. It is the
case of no tag yet: the description of a comment is a stretch of lines like that of a tag. -/
theorem exists_rest_of_gather (inFence : Bool) (lines : List (List Char)) :
    ∃ rest, lines = (gather (roles inFence lines)).1 ++ rest ∧
      roles inFence (gather (roles inFence lines)).1 =
        (gather (roles inFence lines)).1.map .text ∧
      ∀ line ∈ rest.head?,
        (opening? (fenceAfter inFence (gather (roles inFence lines)).1) line).isSome = true := by
  induction lines generalizing inFence with
  | nil => exact ⟨[], rfl, rfl, by simp⟩
  | cons line rest inductionHypothesis =>
    cases found : opening? inFence line with
    | some parts =>
      refine ⟨line :: rest, ?_⟩
      rw [(roles_of_opening found).1]
      refine ⟨rfl, rfl, fun first same => ?_⟩
      cases same
      exact Option.isSome_of_eq_some found
    | none =>
      obtain ⟨later, place, plain, ends⟩ := inductionHypothesis (inFence != isFence line)
      refine ⟨later, ?_⟩
      rw [(roles_of_text found).1]
      dsimp only [gather]
      rw [(roles_of_text found).1, (roles_of_text found).2, plain]
      exact ⟨congrArg (line :: ·) place, rfl, ends⟩

/-- Only outside of fenced blocks a line opens a tag. -/
theorem eq_false_of_opening {parts : List Char × List Char}
    (opens : opening? inFence line = some parts) : inFence = false := by
  cases inFence with
  | false => rfl
  | true => cases opens

/-- A tag keeps its place when another line comes before all others, if what is gathered up to the
tag goes with that line. The first line goes either with the description or with the tag before, and
what is gathered is the same either way. -/
theorem Stands.cons {role : Role} {state : Bool} {earlier more : List Block}
    (stands : Stands state lines earlier block before opener own following rest)
    (reads : ∀ rest, roles inFence (line :: rest) = role :: roles state rest ∧
      fenceAfter inFence (line :: rest) = fenceAfter state rest)
    (behind : gather (role :: roles state before) =
      ((gather (role :: roles state lines)).1, more)) :
    Stands inFence (line :: lines) more block (line :: before) opener own following rest where
  place := congrArg (line :: ·) stands.place
  behind := by rw [(reads _).1, (reads _).1, behind]
  opens := by rw [(reads _).2, stands.opens]
  content := stands.content
  continues := stands.continues
  ends := stands.ends

/-- Every tag that is gathered from a comment stands in it.

Proof: induction on the lines. If the first one is text, all tags come from the rest and keep their
places. If it opens a tag, either that is the tag in question, and its lines are those up to the
next one, or the tag comes later. -/
theorem exists_stands {earlier later : List Block}
    (found : (gather (roles inFence lines)).2 = earlier ++ block :: later) :
    ∃ before opener own following rest,
      Stands inFence lines earlier block before opener own following rest := by
  induction lines generalizing inFence earlier with
  | nil => simp [roles, gather] at found
  | cons line rest inductionHypothesis =>
    cases opened : opening? inFence line with
    | none =>
      rw [(roles_of_text opened).1] at found
      obtain ⟨before, opener, own, following, others, stands⟩ := inductionHypothesis found
      refine ⟨line :: before, opener, own, following, others,
        stands.cons (fun _ => roles_of_text opened) ?_⟩
      dsimp only [gather]
      rw [stands.behind]
    | some parts =>
      obtain ⟨name, own⟩ := parts
      rw [(roles_of_opening opened).1] at found
      dsimp only [gather] at found
      cases earlier with
      | nil =>
        -- The line opens the tag in question, and its lines are those before the next one.
        obtain ⟨others, place, continues, ends⟩ := exists_rest_of_gather inFence rest
        obtain ⟨rfl, _⟩ := List.cons.inj found
        cases eq_false_of_opening opened
        refine ⟨[], line, own, _, others, congrArg (line :: ·) place, ?_, opened, rfl, continues,
          ends⟩
        rw [(roles_of_opening opened).1]
        rfl
      | cons first earlier =>
        obtain ⟨rfl, remaining⟩ := List.cons.inj found
        obtain ⟨before, opener, text, following, others, stands⟩ := inductionHypothesis remaining
        refine ⟨line :: before, opener, text, following, others,
          stands.cons (fun _ => roles_of_opening opened) ?_⟩
        dsimp only [gather]
        rw [stands.behind]

/-- Every line of a comment has one role. -/
@[simp]
theorem length_roles (inFence : Bool) (lines : List (List Char)) :
    (roles inFence lines).length = lines.length := by
  induction lines generalizing inFence with
  | nil => rfl
  | cons line rest inductionHypothesis =>
    obtain ⟨role, state, reads⟩ := exists_role inFence line
    rw [(reads rest).1, List.length_cons, List.length_cons, inductionHypothesis]

/-- A line has the role of opening a tag exactly when it opens the tag in the state in which the
first pass reaches it. A position is given by the lines in front of it, so no index has to be
computed. -/
theorem get_elem?_roles_eq_opening_iff {name : List Char} :
    (roles inFence (front ++ line :: rest))[front.length]? = some (.opening name own) ↔
      opening? (fenceAfter inFence front) line = some (name, own) := by
  have reached : (roles inFence front).length ≤ front.length :=
    Nat.le_of_eq (length_roles inFence front)
  rw [(roles_append inFence front (line :: rest)).1, List.getElem?_append_right reached,
    length_roles, Nat.sub_self]
  cases opened : opening? (fenceAfter inFence front) line with
  | none => simp [(roles_of_text opened).1]
  | some parts => simp [(roles_of_opening opened).1, Prod.ext_iff]

/-- Behind the line that opens a tag, the first pass has turned its flag over at every fence line of
the tag. The lines before the tag do not matter any more, since the tag was opened with the flag not
set. -/
theorem Stands.fence_after_eq {comment : List (List Char)} {earlier : List Block}
    (stands : Stands inFence comment earlier block before opener own following rest)
    (within : inner <+: following) :
    fenceAfter inFence (before ++ opener :: inner) = decide (InFence inner) := by
  obtain ⟨others, rfl⟩ := within
  have plain : roles false inner = inner.map .text := by
    have continues := stands.continues
    rw [(roles_append false inner others).1, List.map_append] at continues
    exact (List.append_inj continues (by simp)).1
  have outside : fenceAfter inFence before = false := eq_false_of_opening stands.opens
  have opens := stands.opens
  rw [outside] at opens
  rw [(roles_append inFence before _).2, outside, (roles_of_opening opens).2,
    fence_after_of_text plain, Bool.false_bne]

end FirstPass

section SecondPass

/-- What unwrapping writes at a line. Together with the next definition it takes apart what
unwrapping does in one go: what is written, and in which state the next line is read. -/
def Flow.written (flow : Flow) (line : List Char) : List Char :=
  if flow.inFence || isFence line then (if flow.started then ['\n'] else []) ++ line
  else if allBlank line then []
  else flow.separator ++ trim line

/-- Where unwrapping stands behind a line. -/
def Flow.step (flow : Flow) (line : List Char) : Flow :=
  if flow.inFence || isFence line then
    { flow with
      started := true
      inFence := flow.inFence != isFence line
      afterFence := !(flow.inFence != isFence line) }
  else if allBlank line then { flow with paragraphBreak := flow.started }
  else { flow with started := true, paragraphBreak := false, afterFence := false }

/-- Where unwrapping stands behind some lines. -/
def Flow.after (flow : Flow) (lines : List (List Char)) : Flow := lines.foldl Flow.step flow

/-- Where unwrapping a text stands behind some of its lines. -/
def Flow.behind (front : List (List Char)) : Flow := Flow.after {} front

/-- Lines are unwrapped one after the other. -/
theorem unwrap_from_cons (flow : Flow) (line : List Char) (rest : List (List Char)) :
    unwrapFrom flow (line :: rest) = flow.written line ++ unwrapFrom (flow.step line) rest := by
  rw [unwrapFrom, Flow.written, Flow.step]
  split
  · simp only [List.append_assoc]
  · split
    · rfl
    · simp only [List.append_assoc]

/-- Unwrapping reaches later lines in the state that the earlier ones leave. It is the counterpart
of the law for the first pass, with the state of the second one. -/
theorem unwrap_from_append (flow : Flow) (front rest : List (List Char)) :
    unwrapFrom flow (front ++ rest) =
      unwrapFrom flow front ++ unwrapFrom (flow.after front) rest := by
  induction front generalizing flow with
  | nil => rfl
  | cons line front inductionHypothesis =>
    rw [List.cons_append, unwrap_from_cons, unwrap_from_cons, inductionHypothesis,
      List.append_assoc]
    rfl

/-- Every fence line turns the flag over, and no other line does. Paragraphs have no part in it. -/
theorem Flow.in_fence_step (flow : Flow) (line : List Char) :
    (flow.step line).inFence = (flow.inFence != isFence line) := by
  unfold Flow.step
  split
  · rfl
  · next outside =>
    obtain ⟨notInFence, noFence⟩ := Bool.or_eq_false_iff.mp (Bool.not_eq_true _ ▸ outside)
    split
    · simp [notInFence, noFence]
    · simp [notInFence, noFence]

/-- Unwrapping has turned its flag over at every fence line. -/
theorem Flow.in_fence_after (flow : Flow) (lines : List (List Char)) :
    (flow.after lines).inFence = (flow.inFence != decide (InFence lines)) := by
  induction lines generalizing flow with
  | nil => simp [after, InFence]
  | cons line rest inductionHypothesis =>
    rw [turned_cons, ← flow.in_fence_step]
    exact inductionHypothesis (flow.step line)

/-- The fence flag says whether what follows lies in a fenced block. Unwrapping begins outside of
all blocks. -/
theorem in_fence_behind (front : List (List Char)) :
    (Flow.behind front).inFence = decide (InFence front) := by
  rw [Flow.behind, Flow.in_fence_after, Bool.false_bne]

end SecondPass

/-- **The passes agree but for a fence on the tag's own line.** On every line of a tag behind its
first, and on the line that ends the tag, both passes see the same fenced blocks exactly when the
text behind the name of the tag is no fence line. A line that looks like a tag there opens one
exactly when unwrapping stands outside of all fenced blocks, or inside one if that text is a fence
line.

Proof: behind the opening line the first pass has the parity of the lines in between as its flag,
and unwrapping has the parity of these and the tag's own text. The two agree exactly when that text
is no fence line. A line has the role of opening a tag when it looks like one and the flag of the
first pass is not set, which the first part turns into a condition on the flag of the second one. -/
theorem fences_agree_iff (raw : String) {earlier later : List Block}
    (found : (gather (roles false (contentLines raw.toList))).2 = earlier ++ block :: later) :
    ∃ before opener own following rest,
      Stands false (contentLines raw.toList) earlier block before opener own following rest ∧
        ∀ inner line others, following ++ rest = inner ++ line :: others → inner <+: following →
          (fenceAfter false (before ++ opener :: inner) =
              (Flow.behind (own :: inner)).inFence ↔ isFence own = false) ∧
            ∀ name text, tagLine? line = some (name, text) →
              ((roles false (contentLines raw.toList))[(before ++ opener :: inner).length]? =
                  some (.opening name text) ↔
                (Flow.behind (own :: inner)).inFence = isFence own) := by
  obtain ⟨before, opener, own, following, rest, stands⟩ := exists_stands found
  refine ⟨before, opener, own, following, rest, stands, ?_⟩
  intro inner line others split within
  have first := stands.fence_after_eq within
  have second : (Flow.behind (own :: inner)).inFence =
      (isFence own != decide (InFence inner)) := by
    rw [Flow.behind, Flow.in_fence_after, turned_cons, Bool.false_bne]
  refine ⟨?_, fun name text looks => ?_⟩
  · rw [first, second]
    cases isFence own <;> simp
  · have place : contentLines raw.toList = (before ++ opener :: inner) ++ line :: others := by
      rw [stands.place, split, List.append_assoc, List.cons_append]
    rw [place, get_elem?_roles_eq_opening_iff, first, second, opening?, looks]
    by_cases inside : InFence inner
    · cases isFence own <;> simp [inside]
    · cases isFence own <;> simp [inside]

/-- A fence line. -/
def fence : List Char := "\x60\x60\x60".toList

/-- A comment with a fenced block in a tag, and another tag behind it. -/
def fencedTag : String :=
  "/**\n * @returns thing like\n * \x60\x60\x60\n * @notATag\n * \x60\x60\x60\n * @deprecated\n */"

/-- Inside the fenced block both passes stand in it, so the line that looks like a tag is text
of the tag before. -/
theorem fenced_tag_fences_agree :
    (gather (roles false (contentLines fencedTag.toList))).2 =
        [] ++ ⟨"returns".toList, [" thing like".toList, fence, "@notATag".toList, fence]⟩ ::
          [⟨"deprecated".toList, [[], []]⟩] ∧
      ∃ before opener rest,
        Stands false (contentLines fencedTag.toList) []
            ⟨"returns".toList, [" thing like".toList, fence, "@notATag".toList, fence]⟩
            before opener " thing like".toList [fence, "@notATag".toList, fence] rest ∧
          fenceAfter false (before ++ [opener, fence]) = true ∧
          (Flow.behind [" thing like".toList, fence]).inFence = true := by
  have lines : contentLines fencedTag.toList = [[], "@returns thing like".toList, fence,
    "@notATag".toList, fence, "@deprecated".toList, []] := by cbv
  have found : (gather (roles false (contentLines fencedTag.toList))).2 =
      [] ++ ⟨"returns".toList, [" thing like".toList, fence, "@notATag".toList, fence]⟩ ::
        [⟨"deprecated".toList, [[], []]⟩] := by
    rw [lines]
    rfl
  obtain ⟨before, opener, own, following, rest, stands, agree⟩ := fences_agree_iff fencedTag found
  obtain ⟨rfl, rfl⟩ := List.cons.inj stands.content
  have second : (Flow.behind [" thing like".toList, fence]).inFence = true := by decide
  have first := (agree [fence] "@notATag".toList (fence :: rest) rfl ⟨_, rfl⟩).1.mpr (by decide)
  exact ⟨found, before, opener, rest, stands, first.trans second, second⟩

/-- A comment with a tag whose fenced block begins on the tag's own line. -/
def ownFence : String :=
  "/**\n * @returns \x60\x60\x60js\n * x = 1\n * \x60\x60\x60\n * @deprecated\n */"

/-- The first pass misses a fence on the tag's own line. It takes the code for text and what follows
the block for code, so the next tag is lost. The tag that is lost becomes a line of the text before
it. -/
theorem own_fence_loses_tag :
    (gather (roles false (contentLines ownFence.toList))).2 =
        [⟨"returns".toList, [' ' :: fence ++ "js".toList, "x = 1".toList, fence,
          "@deprecated".toList, []]⟩] ∧
      fenceAfter false ((contentLines ownFence.toList).take 2) = false ∧
      (Flow.behind [' ' :: fence ++ "js".toList]).inFence = true ∧
      fenceAfter false ((contentLines ownFence.toList).take 4) = true ∧
      (Flow.behind [' ' :: fence ++ "js".toList, "x = 1".toList, fence]).inFence = false := by
  have lines : contentLines ownFence.toList = [[], "@returns ".toList ++ fence ++ "js".toList,
    "x = 1".toList, fence, "@deprecated".toList, []] := by cbv
  rw [lines]
  exact ⟨rfl, by decide, by decide, by decide, by decide⟩

end DocGraph.Comment
