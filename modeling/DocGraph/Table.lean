/-!
# Tables that remember the order of their keys

A table holds at most one value per key, and its entries keep the order in which the keys first
arrived. Writing to a held key changes the value and not the position; erasing a key closes the gap
without disturbing the others. Distinctness of the keys is part of the type, so every operation
re-establishes it and no later statement has to assume it.

Two tables agree as maps when they answer every look-up alike. That comparison ignores the order,
which is a property of the presentation only.

Each operation is followed by its laws: what the keys are afterwards, and what a look-up finds.
These are rewriting rules, so that a chain of operations is read from the end. Later modules do not
open the operations themselves.
-/

namespace DocGraph

universe u v w

/-- Entries in order of first arrival, with no key twice. The order is that of the first arrival and
survives later writes. -/
structure Table (κ : Type u) (ν : Type v) where
  entries : List (κ × ν)
  distinct : (entries.map Prod.fst).Nodup

namespace Table

variable {κ : Type u} {ν : Type v} {ω : Type w}

/-- The table without entries. -/
def empty : Table κ ν := ⟨[], List.nodup_nil⟩

instance : Inhabited (Table κ ν) := ⟨empty⟩

/-- The keys in table order. -/
def keys (table : Table κ ν) : List κ := table.entries.map Prod.fst

/-- The values in table order. -/
def values (table : Table κ ν) : List ν := table.entries.map Prod.snd

/-- The number of entries. -/
def size (table : Table κ ν) : Nat := table.entries.length

/-- The keys of a table are pairwise distinct. -/
theorem keys_nodup (table : Table κ ν) : table.keys.Nodup := table.distinct

/-- There are as many keys as entries. -/
@[simp]
theorem length_keys (table : Table κ ν) : table.keys.length = table.size := by
  simp [keys, size]

/-- Change every value in place, with its key at hand. -/
def mapValues (f : κ → ν → ω) (table : Table κ ν) : Table κ ω :=
  ⟨table.entries.map fun entry => (entry.1, f entry.1 entry.2), by
    have same : (table.entries.map fun entry => (entry.1, f entry.1 entry.2)).map Prod.fst =
        table.entries.map Prod.fst := by simp
    rw [same]
    exact table.distinct⟩

/-- Changing values keeps the keys and their order. -/
@[simp]
theorem keys_map_values (f : κ → ν → ω) (table : Table κ ν) :
    (table.mapValues f).keys = table.keys := by
  simp [keys, mapValues]

/-- Reorder the entries by their values. Entries that the order does not separate stay as they
stood. Keys are not looked at. -/
def sortValues (below : ν → ν → Bool) (table : Table κ ν) : Table κ ν :=
  ⟨table.entries.mergeSort fun left right => below left.2 right.2,
    ((List.mergeSort_perm _ _).map Prod.fst).nodup_iff.mpr table.distinct⟩

/-- Sorting keeps exactly the entries of the table. -/
theorem entries_sort_values_perm (below : ν → ν → Bool) (table : Table κ ν) :
    (table.sortValues below).entries.Perm table.entries :=
  List.mergeSort_perm _ _

/-- Keep the entries whose key passes a test. -/
def filterKeys (keep : κ → Bool) (table : Table κ ν) : Table κ ν :=
  ⟨table.entries.filter fun entry => keep entry.1,
    table.distinct.sublist (List.filter_sublist.map Prod.fst)⟩

/-- The keys that are kept stay in order. -/
@[simp]
theorem keys_filter_keys (keep : κ → Bool) (table : Table κ ν) :
    (table.filterKeys keep).keys = table.keys.filter keep := by
  simp [keys, filterKeys, List.filter_map, Function.comp_def]

variable [DecidableEq κ]

/-- The value held under a key. -/
def get? (table : Table κ ν) (key : κ) : Option ν :=
  (table.entries.find? fun entry => entry.1 = key).map Prod.snd

/-- Whether a key is held. -/
def contains (table : Table κ ν) (key : κ) : Bool :=
  table.keys.contains key

/-- A key is held exactly when it is one of the keys. -/
@[simp]
theorem contains_iff {table : Table κ ν} {key : κ} :
    table.contains key = true ↔ key ∈ table.keys := by
  simp [contains]

/-- A key is not held exactly when it is none of the keys. -/
@[simp]
theorem contains_eq_false_iff {table : Table κ ν} {key : κ} :
    table.contains key = false ↔ key ∉ table.keys := by
  simp [contains]

/-- A look-up succeeds only at a held key. -/
theorem mem_keys_of_get? {table : Table κ ν} {key : κ} {value : ν}
    (found : table.get? key = some value) : key ∈ table.keys := by
  unfold get? at found
  obtain ⟨entry, located, _⟩ := Option.map_eq_some_iff.mp found
  have same : entry.1 = key := by simpa using List.find?_some located
  exact List.mem_map.mpr ⟨entry, List.mem_of_find?_eq_some located, same⟩

/-- A look-up finds exactly what is held. Since no key stands twice, the first entry of a key is its
only one.

Proof by induction on the entries: at the first one, no later entry can have its key. -/
theorem get?_eq_some_iff {table : Table κ ν} {key : κ} {value : ν} :
    table.get? key = some value ↔ (key, value) ∈ table.entries := by
  obtain ⟨entries, distinct⟩ := table
  simp only [get?]
  induction entries with
  | nil => simp
  | cons entry rest inductionHypothesis =>
    rw [List.map_cons, List.nodup_cons] at distinct
    rw [List.find?_cons]
    by_cases same : entry.1 = key
    · have absent : (key, value) ∉ rest := fun later =>
        distinct.1 (same ▸ List.mem_map.mpr ⟨(key, value), later, rfl⟩)
      subst same
      simp only [decide_true, Option.map_some, Option.some.injEq, List.mem_cons, absent, or_false]
      exact ⟨fun equal => equal ▸ rfl, fun equal => congrArg Prod.snd equal.symm⟩
    · have differs : (key, value) ≠ entry := fun equal => same (equal ▸ rfl)
      simpa [same, differs] using inductionHypothesis distinct.2

/-- A look-up fails exactly at the keys that are not held. It is the other half of what a look-up
says. -/
theorem get?_eq_none_iff {table : Table κ ν} {key : κ} :
    table.get? key = none ↔ key ∉ table.keys := by
  simp only [get?, keys, Option.map_eq_none_iff, List.find?_eq_none, decide_eq_true_eq,
    List.mem_map, not_exists, not_and]

/-- A look-up after every value was changed in place. The function may depend on the key, which is
the one that is asked for. -/
@[simp]
theorem get?_map_values (f : κ → ν → ω) (table : Table κ ν) (key : κ) :
    (table.mapValues f).get? key = (table.get? key).map (f key) := by
  simp only [get?, mapValues, List.find?_map, Function.comp_def, Option.map_map]
  cases located : table.entries.find? fun entry => decide (entry.1 = key) with
  | none => rfl
  | some entry =>
    have same : entry.1 = key := by simpa using List.find?_some located
    simp [same]

/-- What is held after every value was changed in place comes from what was held before. -/
theorem get?_map_values_eq_some_iff {f : κ → ν → ω} {table : Table κ ν} {key : κ} {value : ω} :
    (table.mapValues f).get? key = some value ↔
      ∃ before, table.get? key = some before ∧ f key before = value := by
  rw [get?_map_values, Option.map_eq_some_iff]

/-- A look-up after some keys were dropped. A key that is dropped is not held any more, and for the
others nothing changes. -/
@[simp]
theorem get?_filter_keys (keep : κ → Bool) (table : Table κ ν) (key : κ) :
    (table.filterKeys keep).get? key = if keep key then table.get? key else none := by
  simp only [get?, filterKeys, List.find?_filter]
  by_cases kept : keep key = true
  · rw [if_pos kept]
    congr 2
    funext entry
    by_cases same : entry.1 = key <;> simp [same, kept]
  · rw [if_neg kept, Option.map_eq_none_iff, List.find?_eq_none]
    intro entry _ both
    simp only [decide_eq_true_eq] at both
    exact kept (both.2 ▸ both.1)

/-- Replace the value at one key wherever that key stands. -/
def replaceIn (key : κ) (value : ν) (entries : List (κ × ν)) : List (κ × ν) :=
  entries.map fun entry => if entry.1 = key then (entry.1, value) else entry

/-- Replacing a value keeps the keys and their order. -/
theorem fst_replace_in (key : κ) (value : ν) (entries : List (κ × ν)) :
    (replaceIn key value entries).map Prod.fst = entries.map Prod.fst := by
  induction entries with
  | nil => rfl
  | cons entry rest inductionHypothesis =>
    simp only [replaceIn, List.map_cons, List.map_map, List.cons.injEq]
    refine ⟨by split <;> rfl, ?_⟩
    simpa [replaceIn] using inductionHypothesis

/-- Write a value. A held key keeps its position; a new key goes to the end. -/
def insert (table : Table κ ν) (key : κ) (value : ν) : Table κ ν :=
  if held : key ∈ table.keys then
    ⟨replaceIn key value table.entries, by
      rw [fst_replace_in]
      exact table.distinct⟩
  else
    ⟨table.entries ++ [(key, value)], by
      rw [List.map_append, List.nodup_append]
      refine ⟨table.distinct, by simp, ?_⟩
      intro existing present fresh arriving
      simp only [List.map_cons, List.map_nil, List.mem_singleton] at arriving
      intro same
      exact held (arriving ▸ same ▸ present)⟩

/-- The keys after a write: unchanged when the key was held, one longer otherwise. So a key keeps
the position of its first arrival. -/
theorem keys_insert (table : Table κ ν) (key : κ) (value : ν) :
    (table.insert key value).keys =
      if key ∈ table.keys then table.keys else table.keys ++ [key] := by
  unfold insert
  split
  · exact fst_replace_in key value table.entries
  · simp [keys]

/-- A look-up after a write: the value written at its key, and all else as before. The position of
the entry does not matter here. -/
@[simp]
theorem get?_insert (table : Table κ ν) (key asked : κ) (value : ν) :
    (table.insert key value).get? asked = if asked = key then some value else table.get? asked := by
  unfold insert
  split
  · next held =>
    simp only [get?, replaceIn, List.find?_map]
    have sameTest : ((fun entry : κ × ν => decide (entry.1 = asked)) ∘
        fun entry => if entry.1 = key then (entry.1, value) else entry) =
        fun entry => decide (entry.1 = asked) := by
      funext entry
      simp only [Function.comp]
      split <;> rfl
    rw [sameTest]
    cases located : table.entries.find? fun entry => decide (entry.1 = asked) with
    | none =>
      have absent : asked ∉ table.keys := get?_eq_none_iff.mp (by simp [get?, located])
      have differs : asked ≠ key := fun equal => absent (equal ▸ held)
      simp [differs]
    | some entry =>
      have same : entry.1 = asked := by simpa using List.find?_some located
      by_cases equal : asked = key <;> simp [same, equal]
  · next fresh =>
    simp only [get?, List.find?_append, List.find?_singleton]
    by_cases equal : asked = key
    · subst equal
      have missing : (table.entries.find? fun entry => decide (entry.1 = asked)) = none := by
        simpa [get?] using get?_eq_none_iff.mpr fresh
      simp [missing]
    · simp [equal, Ne.symm equal]

/-- Remove a key. The other entries keep their order. -/
def erase (table : Table κ ν) (key : κ) : Table κ ν := table.filterKeys (· ≠ key)

/-- The keys after a removal. -/
@[simp]
theorem keys_erase (table : Table κ ν) (key : κ) :
    (table.erase key).keys = table.keys.filter (· ≠ key) :=
  keys_filter_keys (· ≠ key) table

/-- A look-up after a removal: nothing at its key, and all else as before. -/
@[simp]
theorem get?_erase (table : Table κ ν) (key asked : κ) :
    (table.erase key).get? asked = if asked = key then none else table.get? asked := by
  by_cases same : asked = key <;> simp [erase, same]

/-- Apply a function to the value at one key, if there is one. -/
def modify (table : Table κ ν) (key : κ) (f : ν → ν) : Table κ ν :=
  table.mapValues fun held value => if held = key then f value else value

/-- Changing one value keeps the keys and their order. -/
@[simp]
theorem keys_modify (table : Table κ ν) (key : κ) (f : ν → ν) :
    (table.modify key f).keys = table.keys :=
  keys_map_values _ table

/-- Write a list of entries one after the other, so the last value of a
repeated key stays, at the position of its first occurrence. -/
def insertAll (table : Table κ ν) (entries : List (κ × ν)) : Table κ ν :=
  entries.foldl (fun written entry => written.insert entry.1 entry.2) table

/-- The table of a list of entries. -/
def ofList (entries : List (κ × ν)) : Table κ ν := empty.insertAll entries

/-- Add one item to the end of the list held under a key. -/
def append (table : Table κ (List ν)) (key : κ) (item : ν) : Table κ (List ν) :=
  table.insert key ((table.get? key).getD [] ++ [item])

/-- Collect items into the lists of their keys, in the order of arrival. -/
def group (items : List (κ × ν)) : Table κ (List ν) :=
  items.foldl (fun table item => table.append item.1 item.2) empty

/-- Whether two tables hold the same values under the same keys, in any order. -/
def agrees [BEq ν] (left right : Table κ ν) : Bool :=
  left.size == right.size && left.entries.all fun entry => right.get? entry.1 == some entry.2

end Table

end DocGraph
