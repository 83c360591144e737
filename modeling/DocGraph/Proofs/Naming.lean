import Mathlib
import DocGraph.Proofs.Trimming
import DocGraph.Registry.Reference

/-!
# What a written name means among some paths

A name means the path that it spells out, if that path is there, and otherwise the only path that
ends in it. Nothing is meant by a name that ends no path or several, and a name that cannot be read
means nothing either.

Said in this way the meaning does not depend on the order of the paths. It is what the resolution of
references computes, once the reference is cut down to the name that it asks for.

The paths are assumed to be listed without repetition wherever the number of candidates is counted.
They always are the keys of a table, or a part of them.
-/

namespace DocGraph

namespace NamePath

variable {path query : NamePath} {marked : Bool}

/-- A path ends in a query when the segments of the query are its last ones. Of the first of them
only the name counts, unless the query was marked by a leading separator. A path may end in a query
in one way only, because both lists are compared from their ends. -/
def EndsIn (path query : NamePath) (marked : Bool) : Prop :=
  ∃ before held asked rest, path.segments = before ++ held :: rest ∧
    query.segments = asked :: rest ∧ held.name = asked.name ∧
    (marked = true → held.binding = asked.binding)

/-- Segments that agree in names and bindings are equal. -/
theorem same_tail_true_iff {held asked : List Segment} :
    sameTail true held asked = true ↔ held = asked := by
  induction held generalizing asked with
  | nil => cases asked <;> simp [sameTail]
  | cons first rest inductionHypothesis =>
    obtain ⟨binding, name⟩ := first
    cases asked with
    | nil => simp [sameTail]
    | cons other others =>
      obtain ⟨otherBinding, otherName⟩ := other
      simp [sameTail, inductionHypothesis, and_comm]

/-- Segments agree with a non-empty query when they are equal but for the first binding, which
counts only when it is marked. The lists have to be equally long; the function is applied to the end
of the path that has the length of the query. -/
theorem same_tail_cons_iff {held rest : List Segment} {asked : Segment} :
    sameTail marked held (asked :: rest) = true ↔
      ∃ first, held = first :: rest ∧ first.name = asked.name ∧
        (marked = true → first.binding = asked.binding) := by
  cases held with
  | nil => simp [sameTail]
  | cons first others =>
    simp only [sameTail, Bool.and_eq_true, Bool.or_eq_true, beq_iff_eq, Bool.not_eq_true',
      same_tail_true_iff, List.cons.injEq]
    constructor
    · rintro ⟨⟨name, binding⟩, rfl⟩
      exact ⟨first, ⟨rfl, rfl⟩, name, fun mark => binding.resolve_right (by simp [mark])⟩
    · rintro ⟨_, ⟨rfl, rfl⟩, name, binding⟩
      cases marked
      · exact ⟨⟨name, .inr rfl⟩, rfl⟩
      · exact ⟨⟨name, .inl (binding rfl)⟩, rfl⟩

/-- The suffix test decides whether a path ends in a query. The path is split where the query would
begin, and a query that is longer than the path has no such place. -/
theorem ends_with_iff : path.endsWith query marked = true ↔ path.EndsIn query marked := by
  obtain ⟨segments⟩ := path
  obtain ⟨suffix⟩ := query
  cases suffix with
  | nil => simp [endsWith, EndsIn]
  | cons asked rest =>
    simp only [endsWith, EndsIn, Bool.and_eq_true, bne_iff_ne, decide_eq_true_eq,
      same_tail_cons_iff, List.length_cons]
    constructor
    · rintro ⟨⟨_, short⟩, held, tail, agree⟩
      refine ⟨segments.take (segments.length - (rest.length + 1)), held, asked, rest, ?_, rfl,
        agree⟩
      rw [← tail, List.take_append_drop]
    · rintro ⟨before, held, _, _, rfl, whole, agree⟩
      obtain ⟨rfl, rfl⟩ := List.cons.inj whole
      refine ⟨⟨Nat.succ_ne_zero _, by simp⟩, held, ?_, agree⟩
      rw [List.length_append, List.length_cons, Nat.add_sub_cancel, List.drop_left]

/-- A path other than the root ends in itself. The root has no segments and ends in no query. -/
theorem ends_in_self (below : path ≠ root) : path.EndsIn path marked := by
  obtain ⟨segments⟩ := path
  cases segments with
  | nil => exact absurd rfl below
  | cons first rest => exact ⟨[], first, first, rest, rfl, rfl, rfl, fun _ => rfl⟩

end NamePath

namespace Reference

open NamePath Text

variable {keys : List NamePath} {text asked : String} {query path : NamePath}

/-- The keys that end in a query, as it was written. The separator is asked of the written text,
because the parsed query does not tell whether it was there. -/
def Fits (keys : List NamePath) (asked : String) (query key : NamePath) : Prop :=
  key ∈ keys ∧ key.EndsIn query (startsWithSeparator asked)

/-- What a written name means among some keys. There are only these two ways; a text that is no path
means nothing. -/
inductive Means (keys : List NamePath) (asked : String) : NamePath → Prop where
  /-- The name spells out a key. -/
  | exact {path : NamePath} (reads : parse asked = .ok path) (held : path ∈ keys) :
      Means keys asked path
  /-- The name spells out no key, and one key alone ends in it. -/
  | unique {query path : NamePath} (reads : parse asked = .ok query) (missing : query ∉ keys)
      (only : ∀ key, Fits keys asked query key ↔ key = path) : Means keys asked path

/-- What is meant is one of the keys. -/
theorem Means.mem (means : Means keys asked path) : path ∈ keys := by
  cases means with
  | exact reads held => exact held
  | unique reads missing only => exact ((only path).mpr rfl).1

/-- A name has at most one meaning. A key that is spelled out excludes the second rule, and by that
rule there is one key only. -/
theorem Means.eq {other : NamePath} (means : Means keys asked path)
    (again : Means keys asked other) : path = other := by
  cases means with
  | exact reads held =>
    cases again with
    | exact readsAgain heldAgain => exact Except.ok.inj (reads.symm.trans readsAgain)
    | unique readsAgain missing only =>
      exact absurd held (Except.ok.inj (reads.symm.trans readsAgain) ▸ missing)
  | unique reads missing only =>
    cases again with
    | exact readsAgain held =>
      exact absurd held (Except.ok.inj (reads.symm.trans readsAgain) ▸ missing)
    | unique readsAgain _ onlyAgain =>
      obtain rfl := Except.ok.inj (reads.symm.trans readsAgain)
      exact (onlyAgain path).mp ((only path).mpr rfl)

/-- The meaning depends on which keys there are, and not on their order. -/
theorem Means.congr {others : List NamePath} (same : ∀ key, key ∈ keys ↔ key ∈ others)
    (means : Means keys asked path) : Means others asked path := by
  cases means with
  | exact reads held => exact .exact reads ((same path).mp held)
  | unique reads missing only =>
    refine .unique reads (fun held => missing ((same _).mpr held)) fun key => ?_
    rw [← only key, Fits, Fits, same key]

/-- A test leaves a single item of a list without repetition when exactly this item passes. With
repetitions one and the same item would be counted as two. -/
theorem only?_filter_eq_some_iff {α : Type} {items : List α} (distinct : items.Nodup)
    {test : α → Bool} {item : α} :
    only? (items.filter test) = some item ↔
      ∀ other, (other ∈ items ∧ test other = true) ↔ other = item := by
  have single : only? (items.filter test) = some item ↔ items.filter test = [item] := by
    unfold only?
    split
    · next found => simp [found]
    · next several =>
      constructor
      · intro impossible
        cases impossible
      · intro alone
        exact absurd alone (several item)
  rw [single, ← List.perm_singleton,
    List.perm_ext_iff_of_nodup (distinct.filter test) (List.nodup_singleton item)]
  simp only [List.mem_filter, List.mem_singleton]

/-- A reference leads to the key that its subject means.

Proof: reading the subject gives a query or nothing. If the query is a key it is the result, by the
first rule; otherwise the result is the single key that passes the suffix test, by the second
one. -/
theorem resolve?_eq_some_iff (distinct : keys.Nodup) :
    resolve? keys text = some path ↔ Means keys (subject text) path := by
  unfold resolve?
  dsimp only
  cases reads : parse (subject text) with
  | error fault =>
    simp only [reduceCtorEq, false_iff]
    rintro (⟨readsPath, _⟩ | ⟨readsQuery, _, _⟩)
    · cases reads.symm.trans readsPath
    · cases reads.symm.trans readsQuery
  | ok query =>
    dsimp only
    split
    · next held =>
      have present := List.contains_iff_mem.mp held
      rw [Option.some.injEq]
      constructor
      · rintro rfl
        exact .exact reads present
      · exact (Means.exact reads present).eq
    · next absent =>
      have missing : query ∉ keys := mt List.contains_iff_mem.mpr absent
      simp only [only?_filter_eq_some_iff distinct, ends_with_iff]
      constructor
      · exact .unique reads missing
      · rintro (⟨readsPath, held⟩ | ⟨readsQuery, _, only⟩)
        · exact absurd held (Except.ok.inj (reads.symm.trans readsPath) ▸ missing)
        · obtain rfl := Except.ok.inj (reads.symm.trans readsQuery)
          exact only

/-- A name that means nothing among some keys: as far as it can be read, it spells out none of them,
and either none or more than one ends in it. The two candidates are named, since it is their being
different that makes the name ambiguous. -/
def MeansNothing (keys : List NamePath) (asked : String) : Prop :=
  ∀ query, parse asked = .ok query → query ∉ keys ∧
    ((∀ key, ¬Fits keys asked query key) ∨
      ∃ one other, one ≠ other ∧ Fits keys asked query one ∧ Fits keys asked query other)

/-- A reference leads nowhere when its subject means nothing. If nothing is meant although a key
fits, a second one has to fit, or the first would be the only one. -/
theorem resolve?_eq_none_iff (distinct : keys.Nodup) :
    resolve? keys text = none ↔ MeansNothing keys (subject text) := by
  have unmeant : resolve? keys text = none ↔ ∀ path, ¬Means keys (subject text) path := by
    simp only [Option.eq_none_iff_forall_ne_some, ne_eq, resolve?_eq_some_iff distinct]
  rw [unmeant]
  constructor
  · intro nothing query reads
    have missing : query ∉ keys := fun held => nothing query (.exact reads held)
    refine ⟨missing, or_iff_not_imp_left.mpr fun some => ?_⟩
    obtain ⟨one, fits⟩ := not_forall_not.mp some
    by_contra alone
    refine nothing one (.unique reads missing fun key => ⟨fun again => ?_, fun same => same ▸ fits⟩)
    by_contra differs
    exact alone ⟨key, one, differs, again, fits⟩
  · rintro nothing path (⟨reads, held⟩ | ⟨reads, _, only⟩)
    · exact (nothing _ reads).1 held
    · rcases (nothing _ reads).2 with none | ⟨one, other, differs, fitsOne, fitsOther⟩
      · exact none path ((only path).mpr rfl)
      · exact differs (((only one).mp fitsOne).trans ((only other).mp fitsOther).symm)

/-- A text that is a reference as it stands: there is nothing to cut off, neither behind a bracket
nor at either end. For such texts resolution and look-up are about the same name. -/
def Bare (text : String) : Prop :=
  '<' ∉ text.toList ∧ '[' ∉ text.toList ∧ trim text.toList = text.toList

/-- The subject of a bare reference is the reference itself. -/
theorem subject_of_bare (bare : Bare text) : subject text = text := by
  obtain ⟨angle, square, trimmed⟩ := bare
  have whole : text.toList.takeWhile (fun c => c ≠ '<' && c ≠ '[') = text.toList := by
    rw [List.takeWhile_eq_self_iff]
    intro c present
    have notAngle : c ≠ '<' := fun same => angle (same ▸ present)
    have notSquare : c ≠ '[' := fun same => square (same ▸ present)
    simp [notAngle, notSquare]
  rw [subject, trimmed, withoutTypeArguments, whole, trim_end_of_trim trimmed, String.ofList_toList]

/-- A reference leads to the same path whatever the order of the keys. The meaning is stated by
membership alone. -/
theorem resolve?_perm {others : List NamePath} (distinct : keys.Nodup)
    (same : keys.Perm others) : resolve? keys text = resolve? others text := by
  ext path
  rw [resolve?_eq_some_iff distinct, resolve?_eq_some_iff (same.nodup_iff.mp distinct)]
  exact ⟨Means.congr fun _ => same.mem_iff, Means.congr fun _ => same.mem_iff.symm⟩

end Reference

end DocGraph
