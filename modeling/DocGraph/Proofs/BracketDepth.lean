import DocGraph.Proofs.BracketGroups

/-!
# How deep a text stands in brackets

A group can also be told by counting. With the quoted stretches of a text skipped, the depth behind
a front of it is the number of opening brackets less the number of closing ones. A text splits into
a group and what follows exactly where the depth stays at least one from the opening bracket on and
is one before the closing bracket.

The depth is an integer. That it never goes below zero is a result and not part of its type: a pass
over the text with a counter that nothing stops at zero finds the same groups, and none of the
values that the counter takes is negative. A scan counts one bracket less than the pass does, for it
begins behind the opening bracket of the group.

The connection goes through balanced texts. That a text holds the opening bracket open and no other
one is the same as that its rest is balanced, and for balanced texts a scan is known to be exact. So
nothing is counted in the proofs about groups, and nothing is scanned in those about depths, apart
from the one lemma that joins the two.
-/

namespace DocGraph.Comment

variable {opening closing c : Char} {text content after rest front bare seen : List Char}
  {depth : Nat} {least : Int} {quoting : Quoting}

section Depth

/-- The quoted stretches of a text are closed, and this is what is left when they are skipped. The
relation is only about texts whose quotes come to an end. A text with an open quote has no rest, and
so no depth. -/
inductive SkipsQuotes : List Char → List Char → Prop where
  | nil : SkipsQuotes [] []
  | plain {c : Char} {text bare : List Char} (noQuote : isQuote c = false)
      (skips : SkipsQuotes text bare) : SkipsQuotes (c :: text) (c :: bare)
  | quotes {mark : Char} {inner text bare : List Char} (isMark : isQuote mark = true)
      (quoted : Quoted mark inner) (skips : SkipsQuotes text bare) :
      SkipsQuotes (mark :: inner ++ mark :: text) bare

/-- How many brackets more are opened than closed in a text without quotes. It is meant for texts
without quoted stretches; within those, brackets are characters like others. -/
def bracketDepth (opening closing : Char) (bare : List Char) : Int :=
  bare.count opening - bare.count closing

/-- The depth is at least this behind every character of a text without quotes. The empty front is
left out, so that a text may begin with the bracket that makes the bound hold. -/
def StaysAtLeast (opening closing : Char) (least : Int) (bare : List Char) : Prop :=
  ∀ front, front <+: bare → front ≠ [] → least ≤ bracketDepth opening closing front

/-- At least one bracket is open behind every character of a text. At its end it is exactly one, and
no quote is open. Such a text is a group without its closing bracket: one more closing bracket would
bring the depth to zero for the first time. -/
def HoldsOneOpen (opening closing : Char) (text : List Char) : Prop :=
  ∃ bare, SkipsQuotes text bare ∧ StaysAtLeast opening closing 1 bare ∧
    bracketDepth opening closing bare = 1

/-- The text is a group with this content, and this follows the group. The closing bracket is the
first one that takes the depth to zero. Nothing is asked of what follows; it may hold brackets and
quotes that are never closed. -/
def SplitsInto (opening closing : Char) (text content after : List Char) : Prop :=
  text = opening :: content ++ closing :: after ∧ HoldsOneOpen opening closing (opening :: content)

/-- The depths of two texts add up. Brackets are counted in each of the two, and the counts are
subtracted from each other afterwards. -/
theorem bracket_depth_append (front bare : List Char) :
    bracketDepth opening closing (front ++ bare) =
      bracketDepth opening closing front + bracketDepth opening closing bare := by
  simp only [bracketDepth, List.count_append]
  omega

/-- The depth of a text is that of its first character and that of the others. In this form the
depth is followed from character to character, with one of the next three lemmas for each of
them. -/
theorem bracket_depth_cons (c : Char) (bare : List Char) :
    bracketDepth opening closing (c :: bare) =
      bracketDepth opening closing [c] + bracketDepth opening closing bare :=
  bracket_depth_append [c] bare

/-- An opening bracket adds one to the depth. The premise that the brackets differ keeps it from
being counted as a closing one, too. -/
theorem bracket_depth_opening (pair : IsBracketPair opening closing) :
    bracketDepth opening closing [opening] = 1 := by
  simp [bracketDepth, pair.distinct]

/-- A closing bracket takes one off the depth. -/
theorem bracket_depth_closing (pair : IsBracketPair opening closing) :
    bracketDepth opening closing [closing] = -1 := by
  simp [bracketDepth, pair.distinct.symm]

/-- Any other character leaves the depth as it is. -/
theorem bracket_depth_plain (noOpening : c ≠ opening) (noClosing : c ≠ closing) :
    bracketDepth opening closing [c] = 0 := by
  simp [bracketDepth, noOpening, noClosing]

/-- The empty text has no character to stand behind. -/
theorem stays_at_least_nil : StaysAtLeast opening closing least [] := by
  intro front isFront filled
  exact absurd (List.prefix_nil.mp isFront) filled

/-- What the first character adds to the depth, the others need not. The bound is shifted by the
depth of the character instead of the depth by the bound, so that the rest is asked about in the
same way as the whole. -/
theorem stays_at_least_cons : StaysAtLeast opening closing least (c :: bare) ↔
    least ≤ bracketDepth opening closing [c] ∧
      StaysAtLeast opening closing (least - bracketDepth opening closing [c]) bare := by
  constructor
  · intro stays
    refine ⟨stays [c] (by simp) (by simp), fun front isFront _ => ?_⟩
    have reaches := stays (c :: front) (List.prefix_cons_inj c |>.mpr isFront) (by simp)
    rw [bracket_depth_cons] at reaches
    omega
  · rintro ⟨first, others⟩ front isFront filled
    obtain rfl | ⟨behind, rfl, continues⟩ := List.prefix_cons_iff.mp isFront
    · exact absurd rfl filled
    · rw [bracket_depth_cons]
      cases behind with
      | nil => simpa [bracketDepth] using first
      | cons d behind =>
        have reaches := others (d :: behind) continues (by simp)
        omega

/-- What a text adds to the depth, the text behind it need not. It is the former fact for more than
one character, and it is by this that a group inside of a balanced text is seen not to go below
zero. -/
theorem stays_at_least_append : StaysAtLeast opening closing least (front ++ bare) ↔
    StaysAtLeast opening closing least front ∧
      StaysAtLeast opening closing (least - bracketDepth opening closing front) bare := by
  induction front generalizing least with
  | nil => simp [stays_at_least_nil, bracketDepth]
  | cons c front inductionHypothesis =>
    rw [List.cons_append, stays_at_least_cons, stays_at_least_cons, inductionHypothesis, and_assoc,
      bracket_depth_cons c front, Int.sub_sub]

/-- A depth that is at least this is at least anything less. A group raises the depth while it
lasts, and the bound for what is inside of it may be lowered again afterwards. -/
theorem StaysAtLeast.mono {less : Int} (stays : StaysAtLeast opening closing least bare)
    (enough : less ≤ least) : StaysAtLeast opening closing less bare :=
  fun front isFront filled => Int.le_trans enough (stays front isFront filled)

/-- Two texts are skipped through one after the other. -/
theorem SkipsQuotes.append {behind : List Char} (skips : SkipsQuotes front bare)
    (goesOn : SkipsQuotes rest behind) : SkipsQuotes (front ++ rest) (bare ++ behind) := by
  induction skips with
  | nil => exact goesOn
  | plain noQuote _ inductionHypothesis => exact .plain noQuote inductionHypothesis
  | quotes isMark quoted _ inductionHypothesis =>
    rw [List.append_assoc, List.cons_append]
    exact .quotes isMark quoted inductionHypothesis

end Depth

section Balance

/-- In a balanced text the brackets that are opened are closed again, and none else is. The
induction is on the text as it is put together. Inside of a group the depth is one higher, which is
more than is asked there. -/
theorem Balanced.exists_skips_quotes (pair : IsBracketPair opening closing)
    (balanced : Balanced opening closing text) :
    ∃ bare, SkipsQuotes text bare ∧ StaysAtLeast opening closing 0 bare ∧
      bracketDepth opening closing bare = 0 := by
  induction balanced with
  | nil => exact ⟨[], .nil, stays_at_least_nil, rfl⟩
  | @plain c rest noQuote noOpening noClosing _ inductionHypothesis =>
    obtain ⟨bare, skips, stays, level⟩ := inductionHypothesis
    have first := bracket_depth_plain noOpening noClosing
    refine ⟨c :: bare, .plain noQuote skips, stays_at_least_cons.mpr ?_, ?_⟩
    · rw [first]
      exact ⟨Int.le_refl 0, stays⟩
    · rw [bracket_depth_cons, first, level, Int.add_zero]
  | quotes isMark quoted _ inductionHypothesis =>
    obtain ⟨bare, skips, stays, level⟩ := inductionHypothesis
    exact ⟨bare, .quotes isMark quoted skips, stays, level⟩
  | group _ _ insideHypothesis inductionHypothesis =>
    obtain ⟨inside, skipsInside, staysInside, levelInside⟩ := insideHypothesis
    obtain ⟨bare, skips, stays, level⟩ := inductionHypothesis
    have whole := skipsInside.append (.plain pair.closesNoQuote skips)
    refine ⟨opening :: (inside ++ closing :: bare), .plain pair.opensNoQuote whole, ?_, ?_⟩
    · rw [stays_at_least_cons, stays_at_least_append, stays_at_least_cons,
        bracket_depth_opening pair,
        bracket_depth_closing pair, levelInside]
      exact ⟨by decide, staysInside.mono (by decide), by decide, stays.mono (by decide)⟩
    · rw [bracket_depth_cons, bracket_depth_append, bracket_depth_cons closing bare,
        bracket_depth_opening pair, bracket_depth_closing pair, levelInside, level]
      decide

/-- A scan over a text whose quoted stretches are closed comes to the depth of the text, if the
brackets that were open before are enough for those that the text closes.

The scan counts with a natural number and would lose count below zero; the premise on the least
depth says that this never happens. The numbers of open brackets before and behind the text are both
left open, since a plain bracket changes the first one. -/
theorem SkipsQuotes.scan_over (pair : IsBracketPair opening closing) (skips : SkipsQuotes text bare)
    (stays : StaysAtLeast opening closing (-depth) bare) {reached : Nat}
    (arrives : depth + bracketDepth opening closing bare = reached) :
    Comment.scanOver opening closing depth .outside text = some (reached, .outside) := by
  induction skips generalizing depth with
  | nil =>
    have same : depth = reached := by
      simp only [bracketDepth, List.count_nil] at arrives
      omega
    rw [same]
    rfl
  | @plain c rest bare noQuote _ inductionHypothesis =>
    obtain ⟨first, others⟩ := stays_at_least_cons.mp stays
    rw [bracket_depth_cons] at arrives
    by_cases opens : c = opening
    · subst opens
      have step : scanStep c closing depth .outside c = some (depth + 1, .outside) := by
        simp [scanStep, noQuote]
      rw [bracket_depth_opening pair] at others arrives
      rw [scan_over_cons step]
      exact inductionHypothesis (others.mono (by omega)) (by omega)
    · by_cases closes : c = closing
      · subst closes
        rw [bracket_depth_closing pair] at first others arrives
        obtain ⟨outer, rfl⟩ : ∃ outer, depth = outer + 1 := ⟨depth - 1, by omega⟩
        have step : scanStep opening c (outer + 1) .outside c = some (outer, .outside) := by
          simp [scanStep, noQuote, opens]
        rw [scan_over_cons step]
        exact inductionHypothesis (others.mono (by omega)) (by omega)
      · have step : scanStep opening closing depth .outside c = some (depth, .outside) := by
          simp [scanStep, noQuote, opens, closes]
        rw [bracket_depth_plain opens closes] at others arrives
        rw [scan_over_cons step]
        exact inductionHypothesis (others.mono (by omega)) (by omega)
  | @quotes mark inner rest bare isMark quoted _ inductionHypothesis =>
    have enters : scanStep opening closing depth .outside mark = some (depth, .inside mark) := by
      simp [scanStep, isMark]
    rw [List.cons_append, scan_over_cons enters, List.append_cons,
      scan_over_append (scan_over_quoted isMark quoted)]
    exact inductionHypothesis stays arrives

/-- A text is balanced exactly when it holds open the bracket before it, and no other. From left to
right, the depth of the rest stays at least zero and ends at zero, so a scan over it comes out where
it went in. From right to left, the rest adds nothing to the depth of one that its opening bracket
makes. -/
theorem holds_one_open_iff (pair : IsBracketPair opening closing) :
    HoldsOneOpen opening closing (opening :: content) ↔ Balanced opening closing content := by
  constructor
  · rintro ⟨_, skips, stays, one⟩
    cases skips with
    | @plain _ _ bare _ skips =>
      rw [bracket_depth_cons, bracket_depth_opening pair] at one
      rw [stays_at_least_cons, bracket_depth_opening pair] at stays
      have enough : StaysAtLeast opening closing (-(0 : Nat)) bare := stays.2
      exact (balanced_iff pair).mpr (skips.scan_over pair enough (by omega))
    | quotes isMark => exact absurd isMark (by simp [pair.opensNoQuote])
  · intro balanced
    obtain ⟨bare, skips, stays, level⟩ := balanced.exists_skips_quotes pair
    refine ⟨opening :: bare, .plain pair.opensNoQuote skips, stays_at_least_cons.mpr ?_, ?_⟩
    · rw [bracket_depth_opening pair]
      exact ⟨by decide, stays⟩
    · rw [bracket_depth_cons, bracket_depth_opening pair, level]
      decide

end Balance

section Counting

/-- Where a counting pass stands. The counter may be any integer. In contrast to a scan, a pass is
not told that its text begins with a bracket; it counts that bracket like any other. -/
structure Pass where
  depth : Int
  quoting : Quoting
deriving DecidableEq

/-- A pass begins outside of quotes, with nothing counted. -/
def Pass.start : Pass := ⟨0, .outside⟩

/-- What a character does to a pass. Outside of quotes an opening bracket adds one to the counter,
and a closing one takes one off, whatever the counter is. Nothing is asked about the counter here,
and nothing keeps it from becoming negative. -/
def Pass.turn (opening closing : Char) (pass : Pass) (c : Char) : Pass :=
  match pass.quoting with
  | .escaped mark => { pass with quoting := .inside mark }
  | .inside mark =>
    if c = '\\' then { pass with quoting := .escaped mark }
    else if c = mark then { pass with quoting := .outside }
    else pass
  | .outside =>
    if isQuote c then { pass with quoting := .inside c }
    else if c = opening then { pass with depth := pass.depth + 1 }
    else if c = closing then { pass with depth := pass.depth - 1 }
    else pass

/-- What a pass finds, and the values that its counter takes one after the other. The values are
recorded so that it can be said of all of them, and not only of the last one, that they are not
negative. -/
structure Counted where
  group : Group
  depths : List Int
deriving DecidableEq

/-- Go on with a pass that has read a part of the text. It ends behind the closing bracket that
takes the counter to zero, and the group is what was read behind its first character. Where the text
ends first, the group was never closed, and the values recorded are those that were reached. -/
def Pass.count (opening closing : Char) (pass : Pass) (seen : List Char) : List Char → Counted
  | [] => ⟨.unterminated, [pass.depth]⟩
  | c :: rest =>
    let next := pass.turn opening closing c
    if pass.quoting = .outside ∧ c = closing ∧ next.depth = 0 then
      ⟨.found seen.tail rest, [pass.depth, next.depth]⟩
    else
      let behind := next.count opening closing (seen ++ [c]) rest
      ⟨behind.group, pass.depth :: behind.depths⟩

/-- Split a leading group off a text by counting its brackets. A text that does not begin with the
opening bracket has no group and is not passed over at all. -/
def countGroup (opening closing : Char) (text : List Char) : Counted :=
  if text.head? = some opening then Pass.start.count opening closing [] text else ⟨.absent, []⟩

/-- A character does to a pass what it does to a scan. The counter of the pass is one more than that
of the scan, which leaves out the bracket of the group itself. A step of the scan that ends the
group is left out by the premise; all other steps do the same to both. -/
theorem Pass.turn_of_scan_step (pair : IsBracketPair opening closing) {state : Nat × Quoting}
    (step : scanStep opening closing depth quoting c = some state) :
    (⟨depth + 1, quoting⟩ : Pass).turn opening closing c = ⟨state.1 + 1, state.2⟩ := by
  obtain ⟨reached, behind⟩ := state
  cases passes_of_scan_step step with
  | escaped => rfl
  | backslash => rfl
  | unquote =>
    -- A backslash would not have led the scan out of the quotes.
    have noBackslash : c ≠ '\\' := by
      rintro rfl
      simp [scanStep] at step
    simp [Pass.turn, noBackslash]
  | quoted noMark noBackslash => simp [Pass.turn, noMark, noBackslash]
  | quote isMark => simp [Pass.turn, isMark]
  | opens => simp [Pass.turn, pair.opensNoQuote]
  | closes => simp [Pass.turn, pair.closesNoQuote, pair.distinct.symm]
  | plain noQuote noOpening noClosing => simp [Pass.turn, noQuote, noOpening, noClosing]

/-- A counting pass goes on where a scan does. The pass does not end there, because its counter is
above zero wherever a scan goes on. -/
theorem Pass.count_of_scan_step (pair : IsBracketPair opening closing) {state : Nat × Quoting}
    (step : scanStep opening closing depth quoting c = some state) :
    (⟨depth + 1, quoting⟩ : Pass).count opening closing seen (c :: rest) =
      let behind := (⟨state.1 + 1, state.2⟩ : Pass).count opening closing (seen ++ [c]) rest
      ⟨behind.group, (depth + 1) :: behind.depths⟩ := by
  have next := Pass.turn_of_scan_step pair step
  have goesOn : (state.1 : Int) + 1 ≠ 0 := by omega
  rw [Pass.count, next, if_neg (fun ends => goesOn ends.2.2)]

/-- It ends where a scan does, with its counter at zero. Only the bracket of the group itself is
open at that place, so the counter goes from one to zero. -/
theorem Pass.count_of_ends (pair : IsBracketPair opening closing)
    (ends : scanStep opening closing depth quoting c = none) :
    (⟨depth + 1, quoting⟩ : Pass).count opening closing seen (c :: rest) =
      ⟨.found seen.tail rest, [1, 0]⟩ := by
  obtain ⟨rfl, rfl, rfl⟩ := (scan_step_eq_none_iff pair).mp ends
  have last : (⟨(0 : Nat) + 1, .outside⟩ : Pass).turn opening c c = ⟨0, .outside⟩ := by
    simp [Pass.turn, pair.closesNoQuote, pair.distinct.symm]
  rw [Pass.count, last, if_pos ⟨rfl, rfl, rfl⟩]
  rfl

/-- A counting pass finds what a scan finds. The induction is on the text, with the place of the
pass and what it has read left open; at each character the scan either goes on or ends, and the pass
does the same. -/
theorem Pass.group_count (pair : IsBracketPair opening closing) :
    ((⟨depth + 1, quoting⟩ : Pass).count opening closing (opening :: front) text).group =
      match scanGroup opening closing depth quoting text with
      | some (content, after) => .found (front ++ content) after
      | none => .unterminated := by
  induction text generalizing depth quoting front with
  | nil => rfl
  | cons c rest inductionHypothesis =>
    rw [scan_group_cons]
    cases step : scanStep opening closing depth quoting c with
    | none => simp [Pass.count_of_ends pair step]
    | some state =>
      rw [Pass.count_of_scan_step pair step, List.cons_append]
      dsimp only
      rw [inductionHypothesis]
      cases scanGroup opening closing state.1 state.2 rest <;> simp

/-- The counter of a pass takes no value below zero. The counter is always one more than a natural
number, until the closing bracket of the group takes it to zero and the pass ends. -/
theorem Pass.depths_count (pair : IsBracketPair opening closing) :
    ∀ value ∈ ((⟨depth + 1, quoting⟩ : Pass).count opening closing seen text).depths,
      0 ≤ value := by
  induction text generalizing depth quoting seen with
  | nil =>
    intro value present
    obtain rfl : value = depth + 1 := List.mem_singleton.mp present
    omega
  | cons c rest inductionHypothesis =>
    cases step : scanStep opening closing depth quoting c with
    | none =>
      rw [Pass.count_of_ends pair step]
      simp
    | some state =>
      rw [Pass.count_of_scan_step pair step]
      exact List.forall_mem_cons.mpr ⟨by omega, inductionHypothesis⟩

/-- Behind the opening bracket of a text one bracket is open. So the pass is where a scan begins,
with the counter one ahead. -/
theorem count_group_opening (pair : IsBracketPair opening closing) :
    countGroup opening closing (opening :: rest) =
      let behind := (⟨(0 : Nat) + 1, .outside⟩ : Pass).count opening closing [opening] rest
      ⟨behind.group, 0 :: behind.depths⟩ := by
  have first : Pass.start.turn opening closing opening = ⟨(0 : Nat) + 1, .outside⟩ := by
    simp [Pass.turn, Pass.start, pair.opensNoQuote]
  rw [countGroup, if_pos (by simp), Pass.count, first, if_neg (fun ends => pair.distinct ends.2.1)]
  rfl

/-- Counting finds the group that a scan finds. Without the opening bracket there is no group for
either; with it the pass is in the state in which the scan starts. -/
theorem group_count_group (pair : IsBracketPair opening closing) :
    (countGroup opening closing text).group = splitGroup opening closing text := by
  by_cases opens : text.head? = some opening
  · obtain ⟨rest, rfl⟩ := List.head?_eq_some_iff.mp opens
    rw [count_group_opening pair, splitGroup, if_pos rfl]
    dsimp only
    rw [Pass.group_count pair]
    rfl
  · rw [countGroup, if_neg opens, split_group_eq_absent_iff.mpr opens]

/-- Counting never takes the counter below zero. The first value is zero, before the opening
bracket, and all later ones are those of the pass behind it. -/
theorem depths_count_group (pair : IsBracketPair opening closing) :
    ∀ value ∈ (countGroup opening closing text).depths, 0 ≤ value := by
  by_cases opens : text.head? = some opening
  · obtain ⟨rest, rfl⟩ := List.head?_eq_some_iff.mp opens
    rw [count_group_opening pair]
    exact List.forall_mem_cons.mpr ⟨Int.le_refl 0, Pass.depths_count pair⟩
  · simp [countGroup, opens]

example : (countGroup '{' '}' ['{', 'a', '{', '"', '}', '"', '}', '}', 'b']).depths =
    [0, 1, 1, 2, 2, 2, 2, 1, 0] := by decide

end Counting

section Splitting

/-- A group is found exactly where the text splits into it and what follows. Both sides say that a
balanced text stands between the brackets. -/
theorem split_group_eq_found_iff_splits_into (pair : IsBracketPair opening closing) :
    splitGroup opening closing text = .found content after ↔
      SplitsInto opening closing text content after := by
  rw [split_group_eq_found_iff pair, SplitsInto, holds_one_open_iff pair]

/-- **Bracketed groups are split exactly.** There is no group exactly where the opening bracket is
missing. A group is found exactly where the depth stays at least one from the opening bracket on and
is one before the closing bracket, with no quote open. In all other cases the group is unterminated.
A text splits in one way only. Counting with an integer finds the same groups, and the counter never
goes below zero.

Proof: what is found is what splits the text, since both ask for a balanced content. The group is
absent where the bracket is missing, and there are only three outcomes, so the third one is left for
the texts that begin with the bracket and do not split. Two ways to split a text would both be what
is found. The pass is compared with the scan behind the opening bracket, where its counter is one
ahead. -/
theorem split_group_exact (pair : IsBracketPair opening closing) (text : List Char) :
    (splitGroup opening closing text = .absent ↔ text.head? ≠ some opening) ∧
    (∀ content after, splitGroup opening closing text = .found content after ↔
      SplitsInto opening closing text content after) ∧
    (splitGroup opening closing text = .unterminated ↔
      text.head? = some opening ∧ ∀ content after, ¬SplitsInto opening closing text content after) ∧
    (∀ content after other others, SplitsInto opening closing text content after →
      SplitsInto opening closing text other others → content = other ∧ after = others) ∧
    (countGroup opening closing text).group = splitGroup opening closing text ∧
    ∀ value ∈ (countGroup opening closing text).depths, 0 ≤ value := by
  have found (content after : List Char) : splitGroup opening closing text = .found content after ↔
      SplitsInto opening closing text content after := split_group_eq_found_iff_splits_into pair
  refine ⟨split_group_eq_absent_iff, found, ?_, ?_, group_count_group pair, depths_count_group pair⟩
  · have opens : text.head? = some opening ↔ splitGroup opening closing text ≠ .absent := by
      rw [ne_eq, split_group_eq_absent_iff, ne_eq, Decidable.not_not]
    simp only [opens, ← found]
    cases splitGroup opening closing text <;> simp
  · intro content after other others splits alike
    have same := ((found content after).mpr splits).symm.trans ((found other others).mpr alike)
    exact Group.found.inj same

/-- Brackets of a group stand within it, and closing brackets stand in its quotes. One example for
each of the two pairs; in both the group ends at a bracket behind which there is another one. -/
theorem quoted_brackets_split :
    (IsBracketPair '{' '}' ∧
      SplitsInto '{' '}' "\x7ba: '\x7d', b: \x7b\x7d\x7d rest\x7d".toList
        "a: '\x7d', b: \x7b\x7d".toList " rest\x7d".toList) ∧
    (IsBracketPair '[' ']' ∧
      SplitsInto '[' ']' "[s=\"\\\"]\", [1, [2]]] list".toList
        "s=\"\\\"]\", [1, [2]]".toList " list".toList) :=
  ⟨⟨braces, ((split_group_exact braces _).2.1 _ _).mp (by decide)⟩,
    brackets, ((split_group_exact brackets _).2.1 _ _).mp (by decide)⟩

end Splitting

end DocGraph.Comment
