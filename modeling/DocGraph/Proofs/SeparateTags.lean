import DocGraph.Proofs.Fencing
import DocGraph.Proofs.KeptText

/-!
# Tags do not reach one another

Two comments are compared that differ in one tag: in the text behind its name and in the lines that
follow it, of which one comment may have more than the other. Both are otherwise made of the same
lines. Then all other tags are read alike, and so are the warnings about them and, if the tag is no
part of the description, the description.

The text of the tag is arbitrary. Quotes and brackets in it may be left open, since a comment is cut
into tags before any of them is read. What cuts it keeps only one thing in mind from line to line,
whether it stands in a fenced block, and lines that are no edge of one leave that as it is.

Both comments are cut at the tag. The part in front is the same, the part behind is the same from
the next tag on, and each is read without looking at the tag. So the result of parsing is put
together from three parts, of which only the middle one differs.
-/

namespace DocGraph.Comment

variable {before following rest lines comment : List (List Char)} {name own : List Char}
  {kind : TagKind} {raw : String}

/-- A line that looks like no tag and is no edge of a fenced block. Fence lines are excluded because
one of them would change how the lines behind it are taken. -/
def IsProse (line : List Char) : Prop := tagLine? line = none ∧ isFence line = false

instance (line : List Char) : Decidable (IsProse line) :=
  inferInstanceAs (Decidable (_ ∧ _))

/-- A tag in a comment, outside of all fenced blocks. A line behind the lines `before` opens it,
`own` follows the name there, and the prose `following` belongs to it. The opening line itself may
look like anything behind the name, even a fence, since it does not turn the state. -/
structure TagAmid (before rest : List (List Char)) (name own : List Char)
    (following comment : List (List Char)) : Prop where
  outside : fenceAfter false before = false
  place : ∃ opener, tagLine? opener = some (name, own) ∧
    comment = before ++ opener :: (following ++ rest)
  prose : ∀ line ∈ following, IsProse line

/-- The tag with all of its lines. Those behind the prose last until the next tag. What follows the
prose may be more lines of the tag, and these are the same in both comments. -/
def tagBlock (name own : List Char) (following rest : List (List Char)) : Block :=
  ⟨name, own :: (following ++ (gather (roles false rest)).1)⟩

/-- The warnings about one tag. -/
def Block.warnings (location : Location) (block : Block) : List Diagnostic :=
  (block.read.fault.map (warning location block.name)).toList

/-- Two parsed comments that are alike but for the tag at one place and the warnings about it. Tags
are compared by their places, and warnings by what stands before and behind the ones in question. -/
structure AlikeBut (location : Location) (place : Nat) (block block' : Block)
    (one other : DocComment × List Diagnostic) : Prop where
  count : one.1.tags.length = other.1.tags.length
  changed : one.1.tags[place]? = some block.read.tag ∧ other.1.tags[place]? = some block'.read.tag
  elsewhere : ∀ i, i ≠ place → one.1.tags[i]? = other.1.tags[i]?
  warnings : ∃ earlier later, one.2 = earlier ++ block.warnings location ++ later ∧
    other.2 = earlier ++ block'.warnings location ++ later
  description : block.read.tag.kind ≠ .description → one.1.description = other.1.description

section Cutting

/-- What is gathered before a tag does not depend on the tag, nor does what is gathered behind it.
It is the law that separates tags: gathering begins anew at each of them. -/
theorem gather_append_opening (front back : List Role) (name own : List Char) :
    gather (front ++ .opening name own :: back) =
      ((gather front).1,
        (gather front).2 ++ ⟨name, own :: (gather back).1⟩ :: (gather back).2) := by
  induction front with
  | nil => rfl
  | cons role front inductionHypothesis =>
    cases role with
    | text line =>
      rw [List.cons_append, gather, inductionHypothesis]
      rfl
    | opening first text =>
      rw [List.cons_append, gather, inductionHypothesis]
      rfl

/-- Lines of text are gathered in front of what follows them. -/
theorem gather_text_append (lines : List (List Char)) (back : List Role) :
    gather (lines.map .text ++ back) = (lines ++ (gather back).1, (gather back).2) := by
  induction lines with
  | nil => rfl
  | cons line lines inductionHypothesis =>
    rw [List.map_cons, List.cons_append, gather, inductionHypothesis]
    rfl

/-- Prose is text, and behind it the first pass stands where it stood before. So prose may be longer
or shorter without any effect on what comes behind it. -/
theorem roles_prose (inFence : Bool) (prose : ∀ line ∈ lines, IsProse line) :
    roles inFence lines = lines.map .text ∧ fenceAfter inFence lines = inFence := by
  induction lines with
  | nil => exact ⟨rfl, rfl⟩
  | cons line lines inductionHypothesis =>
    obtain ⟨⟨untagged, unfenced⟩, others⟩ := List.forall_mem_cons.mp prose
    obtain ⟨text, stays⟩ := inductionHypothesis others
    have plain : opening? inFence line = none := by
      unfold opening?
      split
      · rfl
      · exact untagged
    rw [(roles_of_text plain).1, (roles_of_text plain).2, unfenced, Bool.bne_false, text, stays]
    exact ⟨rfl, rfl⟩

/-- A comment is cut at a tag into what stands before the tag, the tag, and what stands behind its
prose. Neither side depends on the text of the tag.

Proof: the opening line is reached outside of fenced blocks and left so, the prose changes nothing,
and the rest is read from there in both comments. -/
theorem TagAmid.gather_eq (amid : TagAmid before rest name own following comment) :
    gather (roles false comment) =
      ((gather (roles false before)).1,
        (gather (roles false before)).2 ++ tagBlock name own following rest ::
          (gather (roles false rest)).2) := by
  obtain ⟨opener, looks, place⟩ := amid.place
  have opens : opening? false opener = some (name, own) := looks
  obtain ⟨text, stays⟩ := roles_prose false amid.prose
  rw [place, (roles_append false before _).1, amid.outside, (roles_of_opening opens).1,
    (roles_append false following rest).1, text, stays, gather_append_opening, gather_text_append]
  rfl

end Cutting

section Reading

/-- A tag with an optional type and an argument is of the kind as which it is read. -/
theorem kind_read_typed (text : List Char) : (readTyped kind text).tag.kind = kind := by
  unfold readTyped
  dsimp only
  split <;> rfl

/-- A complete parameter tag is of the kind as which it is read. -/
theorem kind_param_tag (param : TagParam) (type : Option (List Char)) (text : List Char) :
    (paramTag kind param type text).kind = kind := by
  cases type <;> rfl

/-- A parameter tag is of the kind as which it is read, also where a fault ends it. -/
theorem kind_read_param (text : List Char) : (readParam kind text).tag.kind = kind := by
  unfold readParam
  dsimp only
  split
  · rfl
  · split
    · rfl
    · split
      · rfl
      · split
        · exact kind_param_tag _ _ _
        · split
          · rfl
          · exact kind_param_tag _ _ _

/-- A tag is of the kind that its name stands for, whatever its text is. A fault keeps the kind as
well. -/
theorem kind_read (block : Block) :
    block.read.tag.kind = TagKind.ofName (String.ofList block.name) := by
  unfold Block.read
  generalize TagKind.ofName (String.ofList block.name) = kind
  cases kind with
  | see =>
    unfold readSee
    dsimp only
    split <;> rfl
  | exampleTag => rfl
  | param => exact kind_read_param _
  | property => exact kind_read_param _
  | _ =>
    dsimp only
    split
    · rfl
    · exact kind_read_typed _

/-- Only description tags add to the description. The description tags are selected first, so it
does not matter where the other one stands. -/
theorem describe_of_other_kind {tag : Tag} (description : String) (front back : List Tag)
    (other : tag.kind ≠ .description) :
    describe description (front ++ tag :: back) = describe description (front ++ back) := by
  unfold describe
  rw [List.filter_append, List.filter_cons_of_neg (by simpa using other), List.filter_append]

/-- A comment has the tags before one of its tags, this tag, and the tags behind it. Each block is
read by itself. -/
theorem TagAmid.tags_eq (amid : TagAmid before rest name own following (contentLines raw.toList))
    (location : Location) :
    (parse raw location).1.tags =
      (gather (roles false before)).2.map (fun block => block.read.tag) ++
        (tagBlock name own following rest).read.tag ::
          (gather (roles false rest)).2.map fun block => block.read.tag := by
  rw [tags_parse, amid.gather_eq, List.map_append, List.map_cons]

/-- The warnings about a comment are those about the tags before one of its tags, about this tag,
and about the tags behind it. A tag gives one warning at most. -/
theorem TagAmid.warnings_eq
    (amid : TagAmid before rest name own following (contentLines raw.toList))
    (location : Location) :
    (parse raw location).2 =
      (gather (roles false before)).2.flatMap (Block.warnings location) ++
        (tagBlock name own following rest).warnings location ++
          (gather (roles false rest)).2.flatMap (Block.warnings location) := by
  have listed (blocks : List Block) :
      (blocks.filterMap fun block => block.read.fault.map (warning location block.name)) =
        blocks.flatMap (Block.warnings location) :=
    List.filterMap_eq_flatMap_toList _ _
  rw [warnings_parse, amid.gather_eq, listed, List.flatMap_append, List.flatMap_cons,
    List.append_assoc]

/-- The description of a comment is the text before the first tag, with what its tags add.
Description tags are read like all others and then joined to the text in front. -/
theorem description_parse (raw : String) (location : Location) :
    (parse raw location).1.description =
      describe (String.ofList (dedent (gather (roles false (contentLines raw.toList))).1))
        (parse raw location).1.tags := by
  unfold parse
  generalize gather (roles false (contentLines raw.toList)) = parts
  rfl

/-- A tag that does not belong to the description leaves it to the text before the first tag and
to the other tags. -/
theorem TagAmid.description_eq
    (amid : TagAmid before rest name own following (contentLines raw.toList))
    (location : Location) (other : TagKind.ofName (String.ofList name) ≠ .description) :
    (parse raw location).1.description =
      describe (String.ofList (dedent (gather (roles false before)).1))
        ((gather (roles false before)).2.map (fun block => block.read.tag) ++
          (gather (roles false rest)).2.map fun block => block.read.tag) := by
  have kind : (tagBlock name own following rest).read.tag.kind ≠ .description :=
    (kind_read _).trans_ne other
  rw [description_parse, amid.gather_eq, amid.tags_eq, describe_of_other_kind _ _ _ kind]

end Reading

/-- **No tag reaches another.** If two comments have the same lines but for the text of one tag,
they have the same number of tags and the same tag at every other place; their warnings are the same
but for those about this tag; and their descriptions are the same unless it is a tag of the
description. Its text may hold anything in either comment.

Proof: the tags and the warnings of both comments are those of the front, those of the tag and those
of the rest, and front and rest are the same. The kind of the tag is decided by its name, so it
belongs to the description in both comments or in none. -/
theorem parse_alike_but_tag {one other : String} {own' : List Char}
    {following' : List (List Char)} (location : Location)
    (first : TagAmid before rest name own following (contentLines one.toList))
    (second : TagAmid before rest name own' following' (contentLines other.toList)) :
    AlikeBut location (gather (roles false before)).2.length
      (tagBlock name own following rest) (tagBlock name own' following' rest)
      (parse one location) (parse other location) := by
  have width : ((gather (roles false before)).2.map fun block => block.read.tag).length =
      (gather (roles false before)).2.length := List.length_map _
  constructor
  case count =>
    rw [first.tags_eq, second.tags_eq, List.length_append, List.length_append, List.length_cons,
      List.length_cons]
  case changed =>
    have here (tag : Tag) (back : List Tag) :
        ((gather (roles false before)).2.map (fun block => block.read.tag) ++ tag :: back)[
          (gather (roles false before)).2.length]? = some tag := by
      rw [← width, List.getElem?_append_right (Nat.le_refl _), Nat.sub_self,
        List.getElem?_cons_zero]
    rw [first.tags_eq, second.tags_eq]
    exact ⟨here _ _, here _ _⟩
  case elsewhere =>
    intro i away
    rw [first.tags_eq, second.tags_eq]
    rcases Nat.lt_or_gt_of_ne away with ahead | behind
    · rw [← width] at ahead
      rw [List.getElem?_append_left ahead, List.getElem?_append_left ahead]
    · -- Behind the place there is one tag more in front, whichever of the two it is.
      obtain ⟨further, rfl⟩ := Nat.exists_eq_add_of_lt behind
      rw [← width, List.getElem?_append_right (by omega), List.getElem?_append_right (by omega)]
      have next : ∀ start, start + further + 1 - start = further + 1 := by omega
      rw [next, List.getElem?_cons_succ, List.getElem?_cons_succ]
  case warnings =>
    exact ⟨_, _, first.warnings_eq location, second.warnings_eq location⟩
  case description =>
    intro kind
    have other : TagKind.ofName (String.ofList name) ≠ .description := by
      rwa [kind_read] at kind
    rw [first.description_eq location other, second.description_eq location other]

/-- A comment with a parameter in which a brace, a bracket and a quote are left open. -/
def openParam : String :=
  "/**\n * Adds.\n * @param \x7bnumber x [\n *  never \"closed\n * @returns \x7bnumber\x7d it\n */"

/-- The same comment with a parameter that is closed. -/
def closedParam : String :=
  "/**\n * Adds.\n * @param \x7bnumber\x7d x One.\n * @returns \x7bnumber\x7d it\n */"

/-- What is left open in the parameter does not reach the tag behind it, nor the description. -/
theorem open_param_alike_closed_param :
    (parse openParam ⟨"a.js", 1⟩).2 =
        [⟨.malformedTag, "@param: unterminated `\x7b`, kept as text", some ⟨"a.js", 1⟩⟩] ∧
      (parse closedParam ⟨"a.js", 1⟩).2 = [] ∧
      (parse openParam ⟨"a.js", 1⟩).1.description =
        (parse closedParam ⟨"a.js", 1⟩).1.description ∧
      (parse openParam ⟨"a.js", 1⟩).1.tags[1]? =
        (parse closedParam ⟨"a.js", 1⟩).1.tags[1]? := by
  have openLines : contentLines openParam.toList = [[], "Adds.".toList,
    "@param \x7bnumber x [".toList, " never \"closed".toList,
    "@returns \x7bnumber\x7d it".toList, []] := by cbv
  have closedLines : contentLines closedParam.toList = [[], "Adds.".toList,
    "@param \x7bnumber\x7d x One.".toList, "@returns \x7bnumber\x7d it".toList, []] := by cbv
  have first : TagAmid [[], "Adds.".toList] ["@returns \x7bnumber\x7d it".toList, []]
      "param".toList " \x7bnumber x [".toList [" never \"closed".toList]
      (contentLines openParam.toList) :=
    ⟨by decide, ⟨_, by decide, openLines⟩, by decide⟩
  have second : TagAmid [[], "Adds.".toList] ["@returns \x7bnumber\x7d it".toList, []]
      "param".toList " \x7bnumber\x7d x One.".toList [] (contentLines closedParam.toList) :=
    ⟨by decide, ⟨_, by decide, closedLines⟩, by decide⟩
  have alike := parse_alike_but_tag ⟨"a.js", 1⟩ first second
  refine ⟨?_, ?_, alike.description ?_, alike.elsewhere 1 ?_⟩
  · rw [parse, openLines]; rfl
  · rw [parse, closedLines]; rfl
  · rw [kind_read]; decide
  · decide

end DocGraph.Comment
