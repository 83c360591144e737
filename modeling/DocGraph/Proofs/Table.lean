import Mathlib
import DocGraph.Table

/-!
# What becomes of the entries of a table

Every operation on a table is described by what it does to the list of entries, or to that list up
to order. A write at a fresh key appends one entry, a removal takes one away, a partition of the
keys splits the entries in two, and collecting items under their keys files each of them exactly
once.

Sorting, of entries as of any list, puts them in the order of the comparison.

The description is exact, so that counting arguments about tables need not look at look-ups, and
arguments about look-ups need not look at positions.
-/

namespace DocGraph.Table

universe u v w
variable {κ : Type u} {ν : Type v} {ω : Type w}

/-- A table is its list of entries; distinctness of the keys adds no data. -/
@[ext]
theorem ext {left right : Table κ ν} (same : left.entries = right.entries) : left = right := by
  cases left
  cases right
  cases same
  rfl

/-- The values after every one of them was changed in place. Changes in place see the key as well,
so the values are those of the entries. -/
@[simp]
theorem values_map_values (f : κ → ν → ω) (table : Table κ ν) :
    (table.mapValues f).values = table.entries.map fun entry => f entry.1 entry.2 := by
  simp [values, mapValues, Function.comp_def]

/-- A trait that a change of values leaves alone is listed as before. A count of the trait over a
table is the same before and after. -/
theorem map_values_map_values {α : Type w} {f : κ → ν → ν} {trait : ν → α}
    (kept : ∀ key value, trait (f key value) = trait value) (table : Table κ ν) :
    (table.mapValues f).values.map trait = table.values.map trait := by
  rw [values_map_values]
  simp [values, kept, Function.comp_def]

/-- Sorting keeps exactly the values of the table. Whatever the comparison is, nothing is lost. -/
theorem values_sort_values_perm (below : ν → ν → Bool) (table : Table κ ν) :
    (table.sortValues below).values.Perm table.values :=
  (entries_sort_values_perm below table).map Prod.snd

/-- A test on keys splits the values of a table into two parts. The one part is kept and the other
one is superseded, and together they are all there was. -/
theorem values_filter_keys_perm (keep : κ → Bool) (table : Table κ ν) :
    ((table.filterKeys fun key => !keep key).values ++ (table.filterKeys keep).values).Perm
      table.values := by
  simp only [values, filterKeys, ← List.map_append]
  apply List.Perm.map
  refine List.Perm.trans List.perm_append_comm ?_
  exact List.filter_append_perm (fun entry : κ × ν => keep entry.1) table.entries

/-- The keys that a test on keys keeps. -/
theorem mem_keys_filter_keys {keep : κ → Bool} {table : Table κ ν} {key : κ} :
    key ∈ (table.filterKeys keep).keys ↔ key ∈ table.keys ∧ keep key = true := by
  rw [keys_filter_keys, List.mem_filter]

/-- Every value stands under some key. Membership is stated of entries where the key matters. -/
theorem mem_values_iff {table : Table κ ν} {value : ν} :
    value ∈ table.values ↔ ∃ key, (key, value) ∈ table.entries := by
  simp [values]

/-- Rows that are made of some items, each under the key of its item, have their keys in the order
of the items. If the keys of the items are distinct, so are those of the rows. -/
theorem fst_filter_map_sublist {α : Type w} {key : α → κ} {row? : α → Option (κ × ν)}
    (keyed : ∀ item row, row? item = some row → row.1 = key item) (items : List α) :
    ((items.filterMap row?).map Prod.fst).Sublist (items.map key) := by
  induction items with
  | nil => exact .slnil
  | cons item rest inductionHypothesis =>
    rw [List.filterMap_cons, List.map_cons]
    split
    · exact inductionHypothesis.cons _
    · next row made =>
      rw [List.map_cons, keyed item row made]
      exact inductionHypothesis.cons_cons _

variable [DecidableEq κ]

/-- A look-up that succeeds finds one of the values. -/
theorem mem_values_of_get? {table : Table κ ν} {key : κ} {value : ν}
    (found : table.get? key = some value) : value ∈ table.values :=
  mem_values_iff.mpr ⟨key, get?_eq_some_iff.mp found⟩

/-- What is held after a selection of keys was held before. The converse needs that the test accepts
the key. -/
theorem get?_of_filter_keys {keep : κ → Bool} {table : Table κ ν} {key : κ} {value : ν}
    (found : (table.filterKeys keep).get? key = some value) : table.get? key = some value := by
  rw [get?_filter_keys] at found
  split at found
  · exact found
  · cases found

/-- Looking the keys of held entries up gives their values back, in the same order. The entries need
not be all of the table, and they may come in any order. -/
theorem filter_map_get? (table : Table κ ν) (f : κ → ν → ω) (listed : List (κ × ν))
    (held : ∀ entry ∈ listed, entry ∈ table.entries) :
    ((listed.map Prod.fst).filterMap fun key => (table.get? key).map (f key)) =
      listed.map fun entry => f entry.1 entry.2 := by
  rw [List.filterMap_map, ← List.filterMap_eq_map]
  refine List.filterMap_congr ?_
  intro entry present
  have found := get?_eq_some_iff.mpr (held entry present)
  simp [found]

/-- A write at a fresh key adds one entry at the end. At a key that is held the value is replaced
where it stands. -/
theorem entries_insert_of_not_mem {table : Table κ ν} {key : κ} (fresh : key ∉ table.keys)
    (value : ν) : (table.insert key value).entries = table.entries ++ [(key, value)] := by
  unfold insert
  rw [dif_neg fresh]

/-- A write at a fresh key adds one value at the end. -/
theorem values_insert_of_not_mem {table : Table κ ν} {key : κ} (fresh : key ∉ table.keys)
    (value : ν) : (table.insert key value).values = table.values ++ [value] := by
  simp [values, entries_insert_of_not_mem fresh]

/-- A key is held after a write exactly when it was held or written. -/
@[simp]
theorem mem_keys_insert {table : Table κ ν} {key asked : κ} {value : ν} :
    asked ∈ (table.insert key value).keys ↔ asked = key ∨ asked ∈ table.keys := by
  rw [keys_insert]
  split
  · next held =>
    constructor
    · exact Or.inr
    · rintro (rfl | present)
      · exact held
      · exact present
  · simp [or_comm]

/-- A removal takes one value away. The order is lost here, and with it nothing that is counted. -/
theorem values_perm_cons_erase {table : Table κ ν} {key : κ} {value : ν}
    (found : table.get? key = some value) :
    table.values.Perm (value :: (table.erase key).values) := by
  have present : (key, value) ∈ table.entries := get?_eq_some_iff.mp found
  have alone : table.entries.filter (fun entry => decide (entry.1 = key)) = [(key, value)] := by
    have nodup : table.entries.Nodup := List.Nodup.of_map Prod.fst table.distinct
    apply List.perm_singleton.mp
    rw [List.perm_ext_iff_of_nodup (nodup.filter _) (List.nodup_singleton _)]
    intro entry
    simp only [List.mem_filter, decide_eq_true_eq, List.mem_singleton]
    constructor
    · rintro ⟨held, same⟩
      have again : table.get? key = some entry.2 := get?_eq_some_iff.mpr (same ▸ held)
      have equal : value = entry.2 := Option.some.inj (found.symm.trans again)
      exact Prod.ext same equal.symm
    · rintro rfl
      exact ⟨present, rfl⟩
  have split := List.filter_append_perm (fun entry : κ × ν => decide (entry.1 = key))
    table.entries
  rw [alone] at split
  have values := (split.map Prod.snd).symm
  simpa [Table.values, erase, filterKeys] using values

/-- Writing entries whose keys are all fresh and distinct appends them as they stand. The premises
say that no write replaces anything. -/
theorem entries_insert_all {added : List (κ × ν)} :
    ∀ {table : Table κ ν}, (added.map Prod.fst).Nodup →
      (∀ key ∈ added.map Prod.fst, key ∉ table.keys) →
      (table.insertAll added).entries = table.entries ++ added := by
  induction added with
  | nil => simp [insertAll]
  | cons entry rest inductionHypothesis =>
    intro table distinct fresh
    rw [List.map_cons, List.nodup_cons] at distinct
    have freshHead : entry.1 ∉ table.keys := fresh entry.1 (by simp)
    have freshRest : ∀ key ∈ rest.map Prod.fst, key ∉ (table.insert entry.1 entry.2).keys := by
      intro key present held
      rcases mem_keys_insert.mp held with rfl | old
      · exact distinct.1 present
      · exact fresh key (by simp [present]) old
    have step := inductionHypothesis distinct.2 freshRest
    rw [entries_insert_of_not_mem freshHead] at step
    simpa [insertAll] using step

/-- A list of entries with distinct keys is the table of these entries. In general a list may have
several entries for a key, and then the last one counts. -/
theorem entries_of_list {entries : List (κ × ν)} (distinct : (entries.map Prod.fst).Nodup) :
    (ofList entries).entries = entries := by
  have written : ((empty : Table κ ν).insertAll entries).entries = empty.entries ++ entries :=
    entries_insert_all distinct (by simp [empty, keys])
  simpa [ofList, empty] using written

/-- What is filed under a key after one more item was collected. A key that is not held counts as
one with no items, so that there is one law for both. -/
theorem getd_get?_append (table : Table κ (List ν)) (key asked : κ) (item : ν) :
    ((table.append key item).get? asked).getD [] =
      (table.get? asked).getD [] ++ if asked = key then [item] else [] := by
  rw [append, get?_insert]
  by_cases same : asked = key <;> simp [same]

/-- Items collected under their keys: each key has its own items, in their order. Proof by induction
on the items, for any table to start with. -/
theorem getd_get?_group (items : List (κ × ν)) (asked : κ) :
    ((group items).get? asked).getD [] =
      (items.filter fun item => item.1 = asked).map Prod.snd := by
  have collected (remaining : List (κ × ν)) (table : Table κ (List ν)) :
      ((remaining.foldl (fun held item => held.append item.1 item.2) table).get? asked).getD [] =
        (table.get? asked).getD [] ++
          (remaining.filter fun item => item.1 = asked).map Prod.snd := by
    induction remaining generalizing table with
    | nil => simp
    | cons item rest inductionHypothesis =>
      rw [List.foldl_cons, inductionHypothesis, getd_get?_append, List.append_assoc]
      by_cases same : item.1 = asked
      · simp [same]
      · simp [same, Ne.symm same]
  simpa [group, empty, get?] using collected items empty

/-- An item is filed under a key exactly when it came with that key. The order of the items does not
matter for this. -/
theorem exists_mem_group_iff {items : List (κ × ν)} {asked : κ} {item : ν} :
    (∃ filed, (group items).get? asked = some filed ∧ item ∈ filed) ↔ (asked, item) ∈ items := by
  have own : item ∈ ((group items).get? asked).getD [] ↔ (asked, item) ∈ items := by
    rw [getd_get?_group]
    simp
  rw [← own]
  cases (group items).get? asked <;> simp

/-- Every table agrees with itself. Comparing tables goes by look-ups, so this is not plain from the
definition. -/
theorem agrees_self [BEq ν] [ReflBEq ν] (table : Table κ ν) : table.agrees table = true := by
  rw [agrees, beq_self_eq_true, Bool.true_and, List.all_eq_true]
  intro entry present
  rw [get?_eq_some_iff.mpr present]
  exact beq_self_eq_true _

/-- A table that agrees with another one holds all of its entries. As both have the same size, one
inclusion gives the other. -/
theorem mem_entries_of_agrees [BEq ν] [LawfulBEq ν] {left right : Table κ ν}
    (same : left.agrees right = true) {entry : κ × ν} (present : entry ∈ right.entries) :
    entry ∈ left.entries := by
  simp only [agrees, size, Bool.and_eq_true, beq_iff_eq, List.all_eq_true] at same
  have inside : left.entries ⊆ right.entries := fun held listed =>
    get?_eq_some_iff.mp (same.2 held listed)
  have listed : left.entries.Perm right.entries :=
    (List.subperm_of_subset left.distinct.of_map inside).perm_of_length_le
      (Nat.le_of_eq same.1.symm)
  exact listed.mem_iff.mpr present

/-- A table of a list holds only entries of the list. -/
theorem mem_of_mem_entries_of_list {entries : List (κ × ν)} {entry : κ × ν}
    (present : entry ∈ (ofList entries).entries) : entry ∈ entries := by
  have written (added : List (κ × ν)) (table : Table κ ν)
      (held : entry ∈ (table.insertAll added).entries) :
      entry ∈ table.entries ∨ entry ∈ added := by
    induction added generalizing table with
    | nil => exact .inl held
    | cons first rest inductionHypothesis =>
      rcases inductionHypothesis (table.insert first.1 first.2) held with earlier | later
      · have found := get?_eq_some_iff.mpr earlier
        rw [get?_insert] at found
        split at found
        · next same =>
          have value : entry.2 = first.2 := (Option.some.inj found).symm
          exact .inr (List.mem_cons.mpr (.inl (Prod.ext same value)))
        · exact .inl (get?_eq_some_iff.mp found)
      · exact .inr (List.mem_cons_of_mem first later)
  exact (written entries empty present).resolve_left List.not_mem_nil

end DocGraph.Table

namespace DocGraph

/-- A list that is sorted by a comparison comes in its order. The library asks for a transitive and
total relation, and any lawful comparison gives one. -/
theorem pairwise_merge_sort_is_le {α : Type} (cmp : α → α → Ordering) [Std.TransCmp cmp]
    (items : List α) :
    (items.mergeSort fun left right => (cmp left right).isLE).Pairwise fun left right =>
      (cmp left right).isLE = true := by
  apply List.pairwise_mergeSort
  · intro first second third
    exact Std.TransCmp.isLE_trans
  · intro left right
    have swapped : cmp right left = (cmp left right).swap := Std.OrientedCmp.eq_swap
    rw [swapped]
    cases cmp left right <;> rfl

end DocGraph
