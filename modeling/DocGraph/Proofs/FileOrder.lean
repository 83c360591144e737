import Mathlib
import DocGraph.Proofs.Collision

/-!
# Builds of files in any order

When files are to be sorted, a build does not depend on the order in which they are given. Sorting
is only stable, so two files of one path keep the order given, and two arrangements of the same
files may well be processed differently. Their paths are sorted alike all the same, and a path that
is given twice stops the build before any file is looked at. Which path is reported is decided by
the sorted paths alone: it is the least one given twice.

Without such a path there is only one sorted arrangement, and the two builds are one.

That sorting gives an ascending arrangement of the same files is all that is used of it. Stability,
which the sort also has, would only matter where two files have one path, and there the build does
not get as far as to process them.
-/

namespace DocGraph.Build

variable {files others : List SourceFile} {config : Config} {paths seen : List String}
  {path : String}

/-- Putting files in processing order keeps them. -/
theorem ordered_perm (files : List SourceFile) (config : Config) :
    (ordered files config).Perm files := by
  unfold ordered
  split
  · exact List.mergeSort_perm _ _
  · exact .refl _

/-- Sorted files come in ascending order of their paths. Without the premise files are processed in
the order given, and nothing here holds. -/
theorem pairwise_ordered (sorts : config.sortFiles = true) (files : List SourceFile) :
    (ordered files config).Pairwise fun left right => left.path ≤ right.path := by
  have sorted := pairwise_merge_sort_is_le (compareOn SourceFile.path) files
  rw [ordered, if_pos sorts]
  refine sorted.imp fun {left right} below => ?_
  have upTo : (compare left.path right.path).isLE = true := below
  exact Std.LawfulBCmp.isLE_iff_le.mp upTo

/-- Two arrangements of the same files have the same paths in processing order. Two ascending
arrangements of the same paths are equal, because paths are compared as a linear order. -/
theorem map_path_ordered_of_perm (sorts : config.sortFiles = true) (same : files.Perm others) :
    (ordered files config).map SourceFile.path = (ordered others config).map SourceFile.path := by
  have sorted (files : List SourceFile) :
      ((ordered files config).map SourceFile.path).Pairwise (· ≤ ·) :=
    List.pairwise_map.mpr (pairwise_ordered sorts files)
  have arranged : (ordered files config).Perm (ordered others config) :=
    (ordered_perm files config).trans (same.trans (ordered_perm others config).symm)
  exact List.Perm.eq_of_pairwise (fun _ _ _ _ => le_antisymm) (sorted files) (sorted others)
    (arranged.map SourceFile.path)

/-- Two arrangements of the same files have one processing order, if no path is given twice. Files
are compared by their paths only, so the premise makes the comparison antisymmetric on the files of
the build. -/
theorem ordered_eq_of_perm (sorts : config.sortFiles = true) (same : files.Perm others)
    (distinct : (files.map SourceFile.path).Nodup) :
    ordered files config = ordered others config := by
  refine List.Perm.eq_of_pairwise ?_ (pairwise_ordered sorts files) (pairwise_ordered sorts others)
    ((ordered_perm files config).trans (same.trans (ordered_perm others config).symm))
  intro left right inFiles inOthers forth back
  have first := (ordered_perm files config).mem_iff.mp inFiles
  have second := same.mem_iff.mpr ((ordered_perm others config).mem_iff.mp inOthers)
  exact List.inj_on_of_nodup_map distinct first second (le_antisymm forth back)

/-- A repeated path is found where it comes for the second time: among the paths before it, and
those seen earlier, there is no repetition yet. The walk stops there, so everything before it is
free of repetitions. -/
theorem split_of_first_repeated? (found : firstRepeated? seen paths = some path) :
    ∃ before after, paths = before ++ path :: after ∧ (path ∈ seen ∨ path ∈ before) ∧
      before.Nodup ∧ ∀ earlier ∈ before, earlier ∉ seen := by
  induction paths generalizing seen with
  | nil => cases found
  | cons first rest inductionHypothesis =>
    unfold firstRepeated? at found
    split at found
    · next again =>
      obtain rfl := Option.some.inj found
      exact ⟨[], rest, rfl, .inl (List.contains_iff_mem.mp again), List.nodup_nil, by simp⟩
    · next fresh =>
      rw [List.contains_iff_mem] at fresh
      obtain ⟨before, after, rfl, earlier, distinct, apart⟩ := inductionHypothesis found
      refine ⟨first :: before, after, rfl, ?_, ?_, ?_⟩
      · rw [List.mem_cons] at earlier ⊢
        tauto
      · refine List.nodup_cons.mpr ⟨fun held => ?_, distinct⟩
        exact apart first held List.mem_cons_self
      · intro other held
        rcases List.mem_cons.mp held with rfl | later
        · exact fresh
        · exact fun old => apart other later (List.mem_cons_of_mem first old)

/-- No repeated path is found exactly when the paths differ from each other and from those seen
earlier. The paths seen earlier are kept in the statement for the induction and are empty in the
end. -/
theorem first_repeated?_eq_none_iff :
    firstRepeated? seen paths = none ↔ paths.Nodup ∧ ∀ path ∈ paths, path ∉ seen := by
  induction paths generalizing seen with
  | nil => simp [firstRepeated?]
  | cons first rest inductionHypothesis =>
    unfold firstRepeated?
    split
    · next again =>
      rw [List.contains_iff_mem] at again
      simp [again]
    · next fresh =>
      rw [List.contains_iff_mem] at fresh
      rw [inductionHypothesis, List.nodup_cons, List.forall_mem_cons]
      simp only [List.mem_cons, not_or]
      constructor
      · rintro ⟨distinct, apart⟩
        exact ⟨⟨fun held => (apart first held).1 rfl, distinct⟩, fresh,
          fun path held => (apart path held).2⟩
      · rintro ⟨⟨alone, distinct⟩, _, apart⟩
        exact ⟨distinct, fun path held => ⟨fun same => alone (same ▸ held), apart path held⟩⟩

/-- Of paths in ascending order, the first one that is found again is the least of all that come
twice.

Proof: a path that comes twice has its second place at the one that was found or behind it, since
there is no repetition before it. In an ascending list it is then at least as great. -/
theorem least_of_first_repeated? (ascending : paths.Pairwise (· ≤ ·))
    (found : firstRepeated? [] paths = some path) :
    List.Duplicate path paths ∧ ∀ other, List.Duplicate other paths → path ≤ other := by
  obtain ⟨before, after, rfl, earlier, distinct, _⟩ := split_of_first_repeated? found
  have inside : path ∈ before := earlier.resolve_left List.not_mem_nil
  refine ⟨?_, fun other twice => ?_⟩
  · rw [List.duplicate_iff_two_le_count, List.count_append, List.count_cons_self]
    have once := List.one_le_count_iff.mpr inside
    omega
  · by_contra smaller
    have later : ∀ held ∈ path :: after, path ≤ held := by
      have tail := (List.pairwise_append.mp ascending).2.1
      exact List.forall_mem_cons.mpr ⟨le_refl path, (List.pairwise_cons.mp tail).1⟩
    have absent : other ∉ path :: after := fun held => smaller (later other held)
    rw [List.duplicate_iff_two_le_count, List.count_append, List.count_eq_zero.mpr absent] at twice
    have once := List.nodup_iff_count_le_one.mp distinct other
    omega

/-- A build that sorts its files does not depend on the order in which they are given. Two
arrangements of the same files give the same graph with the same warnings in the same order, or stop
with the same fault. When paths are given twice, the fault names the least of them.

Proof: the sorted paths are the same for both arrangements, so the same path is reported if one
comes twice. If none does, the sorted files are the same, and everything after sorting is a function
of them. -/
theorem run_eq_of_perm (sorts : config.sortFiles = true) (same : files.Perm others) :
    run files config = run others config ∧
      (¬(files.map SourceFile.path).Nodup →
        ∃ path, run files config = .error (.duplicateSource path) ∧
          List.Duplicate path (files.map SourceFile.path) ∧
          ∀ other, List.Duplicate other (files.map SourceFile.path) → path ≤ other) := by
  have paths := map_path_ordered_of_perm sorts same
  have arranged : ((ordered files config).map SourceFile.path).Perm (files.map SourceFile.path) :=
    (ordered_perm files config).map SourceFile.path
  have ascending : ((ordered files config).map SourceFile.path).Pairwise (· ≤ ·) :=
    List.pairwise_map.mpr (pairwise_ordered sorts files)
  cases repeated : firstRepeated? [] ((ordered files config).map SourceFile.path) with
  | none =>
    have distinct : (files.map SourceFile.path).Nodup :=
      arranged.nodup_iff.mp (first_repeated?_eq_none_iff.mp repeated).1
    refine ⟨?_, fun twice => absurd distinct twice⟩
    rw [run, run, ordered_eq_of_perm sorts same distinct]
  | some path =>
    have stops : run files config = .error (.duplicateSource path) := by
      rw [run, repeated]
    have stopsToo : run others config = .error (.duplicateSource path) := by
      rw [run, ← paths, repeated]
    have least := least_of_first_repeated? ascending repeated
    simp only [List.duplicate_iff_two_le_count, arranged.count_eq] at least
    refine ⟨stops.trans stopsToo.symm, fun _ => ⟨path, stops, ?_⟩⟩
    simpa only [List.duplicate_iff_two_le_count] using least

/-- A file with one function. -/
def fileWith (path name : String) : SourceFile :=
  { path := path
    declarations :=
      [.node { kind := .function, name := some name, span := { startLine := 1, endLine := 1 } }
        []] }

/-- One function in two files. -/
def sharedFunction : List SourceFile := [fileWith "b.js" "load", fileWith "a.js" "load"]

/-- Two paths, each of them given twice with different contents. -/
def repeatedPaths : List SourceFile :=
  [fileWith "b.js" "load", fileWith "a.js" "load", fileWith "b.js" "save", fileWith "a.js" "save"]

/-- The function of two files is shadowed alike in both arrangements of the files. Of two paths that
are given twice, the lesser one is reported in both arrangements. Both outcomes are covered, and of
the builds nothing is evaluated but that the paths come twice. -/
theorem run_reverse_samples :
    sharedFunction.Perm sharedFunction.reverse ∧ repeatedPaths.Perm repeatedPaths.reverse ∧
      run sharedFunction { sortFiles := true } =
        run sharedFunction.reverse { sortFiles := true } ∧
      run repeatedPaths { sortFiles := true } =
        run repeatedPaths.reverse { sortFiles := true } ∧
      run repeatedPaths { sortFiles := true } = .error (.duplicateSource "a.js") := by
  have shared : sharedFunction.Perm sharedFunction.reverse := (List.reverse_perm _).symm
  have repeated : repeatedPaths.Perm repeatedPaths.reverse := (List.reverse_perm _).symm
  have twice : ¬(repeatedPaths.map SourceFile.path).Nodup := by decide
  have sorts : ({ sortFiles := true } : Config).sortFiles = true := rfl
  obtain ⟨same, fault⟩ := run_eq_of_perm sorts repeated
  obtain ⟨path, stops, inside, least⟩ := fault twice
  refine ⟨shared, repeated, (run_eq_of_perm sorts shared).1, same, ?_⟩
  have named : path ∈ ["b.js", "a.js", "b.js", "a.js"] := inside.mem
  have lesser : path ≤ "a.js" := least "a.js" (by decide)
  have away : path ≠ "b.js" := fun other => absurd (other ▸ lesser) (by decide)
  have first : path = "a.js" := by
    simp only [List.mem_cons, away, false_or, List.not_mem_nil, or_false, or_self] at named
    exact named
  rw [stops, first]

end DocGraph.Build
