import DocGraph.Proofs.Naming
import DocGraph.Proofs.PathText
import DocGraph.Proofs.Table
import DocGraph.Entity.Basic

/-!
# Written paths as references

A reference is cut off at its first angle or square bracket, and at no other place: a path that is
written out has no blanks around it. If none of its names holds a bracket, it is read back as it was
and leads to itself.

A bracket inside a name cuts the path short. What was quoted has then lost its closing quote, and
before a bracket that begins a name there is no name: neither can be read. Of a bare name the part
before the bracket is left, and that is the end of a shorter path. Such a path leads back to the one
that was written only if it is not itself there and if no other path ends in it.

The proof goes along the written text, name by name. In front of the first name with a bracket the
text is copied; in that name it is cut. So it is enough to know what a reader makes of a single name
that was cut, quoted or bare.
-/

namespace DocGraph

namespace NamePath

open Text

/-- Whether a character leaves a reference as it is. Only opening brackets cut. -/
def isUncut (c : Char) : Bool := c ≠ '<' && c ≠ '['

/-- What can be read of a written name that was cut off at a bracket in it. The two faults are those
of a reader that meets the end of the text too early. -/
def clipName (name : String) : Except SegmentFault String :=
  if needsQuotes name.toList then .error .unterminatedQuote
  else if (name.toList.takeWhile isUncut).isEmpty then .error .emptySegment
  else .ok (String.ofList (name.toList.takeWhile isUncut))

/-- What can be read of a written path that was cut off at its first bracket. What is behind the cut
name is lost with it. -/
def clip : List Segment → Except SegmentFault (List Segment)
  | [] => .ok []
  | segment :: rest =>
    if segment.name.toList.all isUncut then (clip rest).map (segment :: ·)
    else (clipName segment.name).map fun kept => [⟨segment.binding, kept⟩]

/-- A path without brackets in its names. Closing brackets are allowed. -/
def Unbracketed (path : NamePath) : Prop :=
  ∀ segment ∈ path.segments, segment.name.toList.all isUncut = true

instance (path : NamePath) : Decidable path.Unbracketed :=
  inferInstanceAs (Decidable (∀ segment ∈ path.segments, segment.name.toList.all isUncut = true))

/-- A text is left whole where there is no bracket. -/
theorem take_while_is_uncut_eq_self_iff {text : List Char} :
    text.takeWhile isUncut = text ↔ text.all isUncut = true := by
  rw [List.takeWhile_eq_self_iff, List.all_eq_true]

/-- What follows a bracket does not matter. The cut is in the front part. -/
theorem take_while_append_of_cut {front back : List Char} (cut : ¬front.all isUncut = true) :
    (front ++ back).takeWhile isUncut = front.takeWhile isUncut := by
  rw [List.takeWhile_append, if_neg]
  intro long
  exact cut (take_while_is_uncut_eq_self_iff.mp ((List.takeWhile_prefix isUncut).eq_of_length long))

/-- Of a name with a bracket not all is left. It is why a path with a bracket can never be what is
asked for. -/
theorem clip_name_ne_self {name : String} (cut : ¬name.toList.all isUncut = true) :
    clipName name ≠ .ok name := by
  intro whole
  unfold clipName at whole
  split_ifs at whole
  have same : name.toList.takeWhile isUncut = name.toList := by
    simpa using congrArg String.toList (Except.ok.inj whole)
  exact cut (take_while_is_uncut_eq_self_iff.mp same)

/-- A path is left whole exactly when it has no brackets. Proof by induction on the segments. -/
theorem clip_eq_self_iff {segments : List Segment} :
    clip segments = .ok segments ↔ Unbracketed ⟨segments⟩ := by
  induction segments with
  | nil => simp [clip, Unbracketed]
  | cons segment rest inductionHypothesis =>
    have split : Unbracketed ⟨segment :: rest⟩ ↔
        segment.name.toList.all isUncut = true ∧ Unbracketed ⟨rest⟩ := by
      simp only [Unbracketed, List.forall_mem_cons]
    rw [split, ← inductionHypothesis, clip]
    by_cases uncut : segment.name.toList.all isUncut = true
    · rw [if_pos uncut, and_iff_right uncut]
      cases clip rest <;> simp [Except.map]
    · rw [if_neg uncut]
      refine iff_of_false (fun whole => ?_) fun both => uncut both.1
      cases left : clipName segment.name with
      | error fault =>
        rw [left] at whole
        cases whole
      | ok kept =>
        rw [left] at whole
        obtain ⟨same, _⟩ := List.cons.inj (Except.ok.inj whole)
        exact clip_name_ne_self uncut (left.trans (congrArg (Except.ok ∘ Segment.name) same))

/-- Escaping a name puts no bracket into it. Escaping adds backslashes only. -/
theorem all_escape_name (name : List Char) :
    (escapeName name).all isUncut = name.all isUncut := by
  induction name with
  | nil => rfl
  | cons c rest inductionHypothesis =>
    have backslash : isUncut '\\' = true := by decide
    unfold escapeName
    split <;> simp [inductionHypothesis, backslash]

/-- A written name has a bracket exactly when the name has one. -/
theorem all_render_name (name : String) :
    (renderName name).all isUncut = name.toList.all isUncut := by
  have quote : isUncut '"' = true := by decide
  unfold renderName
  split
  · simp [all_escape_name, quote]
  · rfl

/-- A part of a name that needs no quotes needs none either, if there is anything left. Whether a
name needs quotes depends on its characters one by one, and on there being any. -/
theorem needs_quotes_of_subset {name part : List Char} (bare : needsQuotes name = false)
    (within : part ⊆ name) (filled : part.isEmpty = false) : needsQuotes part = false := by
  simp only [needsQuotes, Bool.or_eq_false_iff, List.any_eq_false] at bare ⊢
  exact ⟨filled, fun c present => bare.2 c (within present)⟩

/-- A separator is no blank. -/
theorem is_blank_separator (binding : Binding) : isBlank binding.separator = false := by
  cases binding <;> decide

/-- A written name does not begin with a blank. -/
theorem is_blank_of_begins {name : String} {first : Char} {rest : List Char}
    (written : renderName name = first :: rest) : isBlank first = false := by
  unfold renderName at written
  split at written
  · obtain ⟨rfl, _⟩ := List.cons.inj written
    decide
  · next bare =>
    exact is_blank_of_needs_quotes (Bool.not_eq_true _ ▸ bare) (written ▸ List.mem_cons_self)

/-- A written name has a solid end. A bare name has no blanks, and a quoted one ends in its
quote. -/
theorem ends_solid_render_name (name : String) : EndsSolid (renderName name) := by
  unfold renderName
  split
  · intro c last
    simp only [List.getLast?_concat, Option.mem_def, Option.some.injEq] at last
    subst last
    decide
  · next bare =>
    intro c last
    exact is_blank_of_needs_quotes (Bool.not_eq_true _ ▸ bare) (List.mem_of_getLast? last)

/-- No beginning of an escaped name closes its quotes.

Proof by induction on the name: a quote in it is escaped, and so it is read as part of the name
wherever the text ends. -/
theorem read_quoted_of_prefix {name text : List Char} (begun : text <+: escapeName name) :
    readQuoted text = none := by
  induction name generalizing text with
  | nil =>
    rw [escapeName, List.prefix_nil] at begun
    subst begun
    rfl
  | cons c rest inductionHypothesis =>
    unfold escapeName at begun
    split at begun
    · rcases text with _ | ⟨backslash, _ | ⟨escaped, after⟩⟩
      · rfl
      · obtain ⟨rfl, _⟩ := List.cons_prefix_cons.mp begun
        rfl
      · obtain ⟨rfl, further⟩ := List.cons_prefix_cons.mp begun
        obtain ⟨rfl, within⟩ := List.cons_prefix_cons.mp further
        simp [readQuoted, inductionHypothesis within]
    · next plain =>
      rcases text with _ | ⟨first, after⟩
      · rfl
      · obtain ⟨rfl, further⟩ := List.cons_prefix_cons.mp begun
        obtain ⟨quote, backslash⟩ := not_or.mp plain
        simp [readQuoted, backslash, inductionHypothesis further]

section Cutting

open Reference

variable {binding next : Binding} {name : String} {text : List Char}

/-- A reference is cut off at its first bracket and then trimmed at its end. -/
theorem without_type_arguments_eq (text : List Char) :
    withoutTypeArguments text = trimEnd (text.takeWhile isUncut) := rfl

/-- Of a name with a bracket what is before the bracket is left, and nothing behind it. It is the
case of a name with a bracket, with anything behind it. -/
theorem without_type_arguments_of_cut (cut : ¬name.toList.all isUncut = true) :
    withoutTypeArguments (renderName name ++ text) =
      trimEnd ((renderName name).takeWhile isUncut) := by
  rw [← all_render_name] at cut
  rw [without_type_arguments_eq, take_while_append_of_cut cut]

/-- A name without brackets is left whole. -/
theorem without_type_arguments_of_uncut (uncut : name.toList.all isUncut = true) :
    withoutTypeArguments (renderName name) = renderName name := by
  rw [← all_render_name, ← take_while_is_uncut_eq_self_iff] at uncut
  rw [without_type_arguments_eq, uncut, trim_end_of_ends_solid (ends_solid_render_name name)]

/-- Behind a name without brackets and a separator the text is cut as it would be alone. The
separator stays, since it is neither a bracket nor a blank. -/
theorem without_type_arguments_append (uncut : name.toList.all isUncut = true) :
    withoutTypeArguments (renderName name ++ next.separator :: text) =
      renderName name ++ next.separator :: withoutTypeArguments text := by
  have mark : isUncut next.separator = true := by cases next <;> decide
  have solid : EndsSolid (renderName name ++ [next.separator]) :=
    ends_solid_append (List.cons_ne_nil _ _) (by simp [EndsSolid, is_blank_separator])
  rw [← all_render_name, List.all_eq_true] at uncut
  rw [without_type_arguments_eq, List.takeWhile_append_of_pos uncut,
    List.takeWhile_cons_of_pos mark, List.append_cons, trim_end_append solid, ← List.append_cons]
  rfl

/-- A quoted name that is cut off has lost its closing quote. What is trimmed at the end does not
matter, as the quote is open. -/
theorem read_name_of_quoted (quoted : needsQuotes name.toList = true)
    (cut : ¬name.toList.all isUncut = true) :
    readName (trimEnd ((renderName name).takeWhile isUncut)) = .error .unterminatedQuote := by
  have quote : isUncut '"' = true := by decide
  have opened : EndsSolid ['"'] := by simp [EndsSolid, isBlank]
  have trimmed : trimEnd ('"' :: (escapeName name.toList).takeWhile isUncut) =
      '"' :: trimEnd ((escapeName name.toList).takeWhile isUncut) := trim_end_append opened
  have begun : trimEnd ((escapeName name.toList).takeWhile isUncut) <+: escapeName name.toList :=
    (is_prefix_trim_end _).trans (List.takeWhile_prefix _)
  rw [← all_escape_name] at cut
  rw [renderName, if_pos quoted, List.cons_append, List.takeWhile_cons_of_pos quote,
    take_while_append_of_cut cut, trimmed]
  simp [readName, read_quoted_of_prefix begun]

/-- Of a bare name that is cut off the kept characters are read, if there are any. A bare name has
no blanks that could be trimmed. -/
theorem read_name_of_bare (bare : needsQuotes name.toList = false) :
    readName (trimEnd ((renderName name).takeWhile isUncut)) =
      if (name.toList.takeWhile isUncut).isEmpty then .error .emptySegment
      else .ok (name.toList.takeWhile isUncut, []) := by
  have within : name.toList.takeWhile isUncut ⊆ name.toList := List.takeWhile_subset _
  have solid : EndsSolid (name.toList.takeWhile isUncut) := fun c last =>
    is_blank_of_needs_quotes bare (within (List.mem_of_getLast? last))
  have written : renderName name = name.toList := by rw [renderName, if_neg (by simp [bare])]
  rw [written, trim_end_of_ends_solid solid]
  split
  · next empty =>
    rw [List.isEmpty_iff.mp empty]
    rfl
  · next filled =>
    have kept := needs_quotes_of_subset bare within (Bool.not_eq_true _ ▸ filled)
    have reads := read_name_render_name (String.ofList (name.toList.takeWhile isUncut))
      (ends_render_rest [])
    simpa [renderName, kept, renderRest] using reads

/-- What is left of a written name with a bracket is read as what is left of the name. It puts the
two cases together. -/
theorem read_segments_clip_name (cut : ¬name.toList.all isUncut = true) :
    readSegments binding (trimEnd ((renderName name).takeWhile isUncut)) =
      (clipName name).map fun kept => [⟨binding, kept⟩] := by
  unfold clipName
  split
  · next quoted => exact read_segments_of_error (read_name_of_quoted quoted cut)
  · next bare =>
    have reads := read_name_of_bare (Bool.not_eq_true _ ▸ bare)
    split
    · next empty =>
      rw [if_pos empty] at reads
      exact read_segments_of_error reads
    · next filled =>
      rw [if_neg filled] at reads
      exact read_segments_of_last reads

/-- What is left of written segments is read as what is left of the segments. The result may be a
fault on both sides, and then it is the same one. -/
theorem read_segments_clip (first : Segment) (rest : List Segment) :
    readSegments first.binding
        (withoutTypeArguments (renderName first.name ++ renderRest rest)) =
      clip (first :: rest) := by
  -- name by name: the text is cut in the first name or somewhere behind its separator
  induction rest generalizing first with
  | nil =>
    rw [clip]
    split
    · next uncut =>
      have reads := read_name_render_name first.name (ends_render_rest [])
      simp only [renderRest, List.flatMap_nil, List.append_nil] at reads ⊢
      rw [without_type_arguments_of_uncut uncut, read_segments_of_last reads, String.ofList_toList]
      rfl
    · next cut => rw [without_type_arguments_of_cut cut, read_segments_clip_name cut]
  | cons second others inductionHypothesis =>
    rw [clip, ← inductionHypothesis second]
    split
    · next uncut =>
      let later := withoutTypeArguments (renderName second.name ++ renderRest others)
      have ends : Ends (second.binding.separator :: later) := by
        simp [Ends, Binding.isSeparator]
      have left : withoutTypeArguments (renderName first.name ++ renderRest (second :: others)) =
          renderName first.name ++ second.binding.separator :: later :=
        without_type_arguments_append uncut
      rw [left, read_segments_of_more (read_name_render_name first.name ends), String.ofList_toList]
    · next cut => rw [without_type_arguments_of_cut cut, read_segments_clip_name cut]

end Cutting

/-- Written segments have a solid end. -/
theorem ends_solid_render_segments (first : Segment) (rest : List Segment) :
    EndsSolid (renderName first.name ++ renderRest rest) := by
  induction rest generalizing first with
  | nil => simpa [renderRest] using ends_solid_render_name first.name
  | cons second others inductionHypothesis =>
    obtain ⟨begin, more, written, _⟩ := exists_render_name second.name
    rw [renderRest, List.flatMap_cons, List.cons_append, List.append_cons]
    exact ends_solid_append (by simp [written]) (inductionHypothesis second)

/-- A written path has no blanks around it. So references to written paths are not trimmed before
they are cut. -/
theorem trim_render_chars (path : NamePath) : trim path.renderChars = path.renderChars := by
  obtain ⟨segments⟩ := path
  cases segments with
  | nil => rfl
  | cons first rest =>
    obtain ⟨start, tail, written, _⟩ := exists_render_name first.name
    have begins : trimStart (renderName first.name ++ renderRest rest) =
        renderName first.name ++ renderRest rest := by
      rw [written, List.cons_append, trim_start_cons (is_blank_of_begins written)]
    rw [renderChars, trim, begins, trim_end_of_ends_solid (ends_solid_render_segments first rest)]

section Subject

open Reference

variable {first : Segment} {rest : List Segment} {query : NamePath}

/-- The subject of a written path does not begin with a separator. A leading separator would make
the reference one to the end of a path. -/
theorem unmarked_subject {c : Char}
    (begins : c ∈ (withoutTypeArguments (renderName first.name ++ renderRest rest)).head?) :
    Binding.isSeparator c = false := by
  have left : withoutTypeArguments (renderName first.name ++ renderRest rest) <+:
      renderName first.name ++ renderRest rest :=
    (is_prefix_trim_end _).trans (List.takeWhile_prefix _)
  obtain ⟨start, tail, written, unmarked⟩ := exists_render_name first.name
  rw [written] at left begins
  obtain ⟨more, shape⟩ := List.head?_eq_some_iff.mp begins
  rw [shape] at left
  obtain ⟨rfl, _⟩ := List.cons_prefix_cons.mp left
  exact unmarked

/-- The subject of a written path as characters. -/
theorem subject_render (path : NamePath) :
    subject path.render = String.ofList (withoutTypeArguments path.renderChars) := by
  rw [subject, render, String.toList_ofList, trim_render_chars]

/-- A reference to a written path asks for what is left of the path. The first binding is not
written, and a static one is read. -/
theorem parse_subject_render (static : first.binding = .static) :
    parse (subject (render ⟨first :: rest⟩)) = .ok query ↔
      clip (first :: rest) = .ok query.segments := by
  have reads := read_segments_clip first rest
  rw [static] at reads
  have unled : splitLead (withoutTypeArguments (renderName first.name ++ renderRest rest)) =
      (.static, withoutTypeArguments (renderName first.name ++ renderRest rest)) := by
    cases shape : withoutTypeArguments (renderName first.name ++ renderRest rest) with
    | nil => rfl
    | cons c more =>
      have begins :
          c ∈ (withoutTypeArguments (renderName first.name ++ renderRest rest)).head? := by
        rw [shape]
        rfl
      have unmarked := unmarked_subject begins
      have unseparated : Binding.ofSeparator? c = none := by
        simpa [Binding.isSeparator] using unmarked
      simp [splitLead, unseparated]
  rw [subject_render, renderChars, parse, String.toList_ofList, unled]
  dsimp only
  rw [reads]
  cases clip (first :: rest) with
  | error fault => cases fault <;> simp
  | ok segments =>
    obtain ⟨asked⟩ := query
    simp

/-- The first binding of a written path is not asked for. Such a reference asks for names and not
for the binding of the first one. -/
theorem starts_with_separator_subject_render :
    startsWithSeparator (subject (render ⟨first :: rest⟩)) = false := by
  rw [subject_render, renderChars, startsWithSeparator, String.toList_ofList]
  split
  · rfl
  · next shape => exact unmarked_subject (by rw [shape]; rfl)

end Subject

end NamePath

namespace Reference

open NamePath

/-- A written path, whatever characters its names hold, leads as a reference to the entity at that
path exactly when no name holds a bracket, or else when what is left of it is the path of no entity
and the end of this one path only.

Proof: what is left of the path is what the reference asks for. If nothing was cut it is the path
itself, which is held. If something was cut it is another path or none. Another path that is held is
the answer; if it is not held, the answer is the only path that ends in it. -/
theorem resolve?_render_iff (live : Table NamePath Entity) {path : NamePath}
    (held : path ∈ live.keys) (static : path.segments.head?.map Segment.binding = some .static) :
    resolve? live.keys path.render = some path ↔
      path.Unbracketed ∨
        ∃ query : NamePath, clip path.segments = .ok query.segments ∧ query ∉ live.keys ∧
          ∀ key, (key ∈ live.keys ∧ key.EndsIn query false) ↔ key = path := by
  obtain ⟨segments⟩ := path
  obtain ⟨first, begins, head⟩ := Option.map_eq_some_iff.mp static
  obtain ⟨rest, rfl⟩ := List.head?_eq_some_iff.mp begins
  rw [resolve?_eq_some_iff (Table.keys_nodup live), ← clip_eq_self_iff]
  have unmarked : startsWithSeparator (subject (render ⟨first :: rest⟩)) = false :=
    starts_with_separator_subject_render
  constructor
  · rintro (⟨reads, _⟩ | ⟨reads, missing, only⟩)
    · exact .inl ((parse_subject_render head).mp reads)
    · refine .inr ⟨_, (parse_subject_render head).mp reads, missing, fun key => ?_⟩
      rw [← only key, Fits, unmarked]
  · rintro (whole | ⟨query, left, missing, only⟩)
    · exact .exact ((parse_subject_render head).mpr whole) held
    · refine .unique ((parse_subject_render head).mpr left) missing fun key => ?_
      rw [← only key, Fits, unmarked]

/-- A graph's table with names that have to be quoted. -/
def quoted : Table NamePath Entity :=
  .ofList [(⟨[⟨.static, "Ns"⟩, ⟨.onInstance, " .\"é\\ #~ "⟩, ⟨.inner, ""⟩]⟩,
    { kind := .function, name := "" })]

/-- A path with names of blanks, separators, quotes and backslashes leads to itself. Nothing in
these names is a bracket, so the first alternative of the main statement holds. -/
theorem quoted_leads_back :
    (⟨[⟨.static, "Ns"⟩, ⟨.onInstance, " .\"é\\ #~ "⟩, ⟨.inner, ""⟩]⟩ : NamePath) ∈ quoted.keys ∧
      resolve? quoted.keys
          (render ⟨[⟨.static, "Ns"⟩, ⟨.onInstance, " .\"é\\ #~ "⟩, ⟨.inner, ""⟩]⟩) =
        some ⟨[⟨.static, "Ns"⟩, ⟨.onInstance, " .\"é\\ #~ "⟩, ⟨.inner, ""⟩]⟩ := by
  have held : (⟨[⟨.static, "Ns"⟩, ⟨.onInstance, " .\"é\\ #~ "⟩, ⟨.inner, ""⟩]⟩ : NamePath) ∈
      quoted.keys := by decide
  exact ⟨held, (resolve?_render_iff quoted held rfl).mpr (.inl (by decide))⟩

/-- A class whose nested class has a name in brackets, and two classes of which one is named
like the other up to a bracket. -/
def bracketed : Table NamePath Entity :=
  .ofList
    [(⟨[⟨.static, "Foo"⟩, ⟨.static, "[Symbol.iterator]"⟩]⟩,
      { kind := .classEntity, name := "[Symbol.iterator]" }),
     (⟨[⟨.static, "a"⟩]⟩, { kind := .classEntity, name := "a" }),
     (⟨[⟨.static, "a<b"⟩]⟩, { kind := .classEntity, name := "a<b" })]

/-- Two written paths of entities do not lead back: one leads nowhere and the other to another
entity. The first one has lost its closing quote, and of the second one the name of another class is
left. -/
theorem bracketed_leads_astray :
    render ⟨[⟨.static, "Foo"⟩, ⟨.static, "[Symbol.iterator]"⟩]⟩ = "Foo.\"[Symbol.iterator]\"" ∧
      (⟨[⟨.static, "Foo"⟩, ⟨.static, "[Symbol.iterator]"⟩]⟩ : NamePath) ∈ bracketed.keys ∧
      resolve? bracketed.keys "Foo.\"[Symbol.iterator]\"" = none ∧
      render ⟨[⟨.static, "a<b"⟩]⟩ = "a<b" ∧ (⟨[⟨.static, "a<b"⟩]⟩ : NamePath) ∈ bracketed.keys ∧
      resolve? bracketed.keys "a<b" = some ⟨[⟨.static, "a"⟩]⟩ := by
  refine ⟨by decide, by decide, ?_, by decide, by decide, ?_⟩
  · cbv
  · cbv

end Reference

end DocGraph
