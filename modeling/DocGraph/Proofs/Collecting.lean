import Mathlib.Data.List.Induction

/-!
# Lists with one entry for each key

Parameters, returned types and alternatives of a type are collected alike. A walk along a list
appends an item whose key is new, and takes an item whose key is there already into the entry that
has it. So the keys stand in the order in which they were first seen, and an entry is made of all
items of its key, from the first one on.

Where entries are left as they are, a list that is there from the start stays in front, and only the
items with other keys count.

The laws are proved by induction on the list from its end, since an item changes what was collected
from the items in front of it. The users of this module give the key and the way an entry absorbs an
item, and show that absorbing keeps the key.
-/

namespace DocGraph

variable {α κ β : Type} {key : α → κ} {absorb : α → α → α} {held item : α}
  {collected items : List α}

/-- What a list comes to is a trait of the entry that absorbs it, if the list comes to the same when
its first two items are made one. It is how a trait of an entry is read from the items that it is
made of, such as the type that several parameters of one name have together. -/
theorem trait_foldl_absorb (trait : α → β) (summary : List α → β)
    (single : ∀ item, summary [item] = trait item)
    (pair : ∀ held item rest, summary (absorb held item :: rest) = summary (held :: item :: rest))
    (first : α) (rest : List α) : trait (rest.foldl absorb first) = summary (first :: rest) := by
  induction rest generalizing first with
  | nil => exact (single first).symm
  | cons item rest inductionHypothesis => rw [List.foldl_cons, inductionHypothesis, pair]

/-- Lists are equal when their keys are and items of one key are. It reduces the question whether
two collected lists are equal to one entry of each, once their orders are known to be the same. -/
theorem eq_of_map_key_eq {others : List α} (keys : items.map key = others.map key)
    (alike : ∀ item ∈ items, ∀ other ∈ others, key item = key other → item = other) :
    items = others := by
  induction items generalizing others with
  | nil => exact (List.map_eq_nil_iff.mp keys.symm).symm
  | cons item items inductionHypothesis =>
    cases others with
    | nil => cases keys
    | cons other others =>
      obtain ⟨same, later⟩ := List.cons.inj keys
      rw [alike item List.mem_cons_self other List.mem_cons_self same,
        inductionHypothesis later fun item listed other present =>
          alike item (List.mem_cons_of_mem _ listed) other (List.mem_cons_of_mem _ present)]

variable [DecidableEq κ]

/-- Take an item into a list that has one entry for each key. If several entries had the key, all of
them would absorb the item; in a list that was collected from nothing there is only one. -/
def collectByKey (key : α → κ) (absorb : α → α → α) (collected : List α) (item : α) : List α :=
  if collected.any fun held => key held = key item then
    collected.map fun held => if key held = key item then absorb held item else held
  else collected ++ [item]

/-- An entry is left as it is. With it a later item of a known key is dropped. -/
def keepEntry (held _ : α) : α := held

section Steps

/-- A key is there when an entry has it. -/
theorem any_key_iff :
    (collected.any fun held => key held = key item) = true ↔ key item ∈ collected.map key := by
  simp only [List.any_eq_true, decide_eq_true_eq, List.mem_map]

/-- An item whose key is there is taken into the entry that has it. -/
theorem collect_by_key_of_mem (there : key item ∈ collected.map key) :
    collectByKey key absorb collected item =
      collected.map fun held => if key held = key item then absorb held item else held :=
  if_pos (any_key_iff.mpr there)

/-- An item whose key is new goes to the end. -/
theorem collect_by_key_of_not_mem (new : key item ∉ collected.map key) :
    collectByKey key absorb collected item = collected ++ [item] :=
  if_neg (mt any_key_iff.mp new)

/-- Entries that are left as they are stay when an item of their key comes. So repeating an item
changes nothing. -/
theorem collect_by_key_keep_entry_of_mem (there : key item ∈ collected.map key) :
    collectByKey key keepEntry collected item = collected := by
  rw [collect_by_key_of_mem there]
  simp [keepEntry]

/-- To leave the entries as they are is to take in new items only. It is the form in which the
functions that drop later items are written. -/
theorem collect_by_key_keep_entry (key : α → κ) :
    collectByKey key keepEntry = fun collected item =>
      if collected.any fun held => key held = key item then collected else collected ++ [item] := by
  funext collected item
  simp [collectByKey, keepEntry]

end Steps

section Walks

variable [BEq κ] [LawfulBEq κ]

/-- Each key has one entry, and the entries stand in the order in which the keys were first seen.
The premise that absorbing keeps the key is needed, since otherwise an entry could end up under the
key of another one. -/
theorem map_key_collected (key : α → κ) (absorb : α → α → α)
    (kept : ∀ held item, key (absorb held item) = key held) (items : List α) :
    (items.foldl (collectByKey key absorb) []).map key = (items.map key).eraseDups := by
  induction items using List.reverseRecOn with
  | nil => rfl
  | append_singleton items item inductionHypothesis =>
    rw [List.foldl_append, List.foldl_cons, List.foldl_nil, List.map_append, List.map_singleton,
      List.eraseDups_append, ← inductionHypothesis]
    have seen : key item ∈ items.map key ↔
        key item ∈ (items.foldl (collectByKey key absorb) []).map key := by
      rw [inductionHypothesis, List.mem_eraseDups]
    by_cases there : key item ∈ (items.foldl (collectByKey key absorb) []).map key
    · have same (held : α) : key (if key held = key item then absorb held item else held) =
          key held := by
        split
        · exact kept held item
        · rfl
      have nothing : [key item].removeAll (items.map key) = [] := by
        simp [List.cons_removeAll, seen.mpr there]
      rw [collect_by_key_of_mem there, nothing, List.map_map]
      simp [Function.comp_def, same]
    · have all : [key item].removeAll (items.map key) = [key item] := by
        simp [List.cons_removeAll, mt seen.mp there]
      rw [collect_by_key_of_not_mem there, all, List.map_append]
      rfl

/-- An entry is made of all items of its key. The first of the items is the entry as it was
appended, and the others were absorbed in their order.

Proof: induction on the list from its end. The last item belongs to the entry that it was absorbed
by, or begins one; all other entries are as before and the last item is not of their key. -/
theorem mem_collected (key : α → κ) (absorb : α → α → α)
    (kept : ∀ held item, key (absorb held item) = key held)
    (listed : held ∈ items.foldl (collectByKey key absorb) []) :
    ∃ first rest, (items.filter fun item => key item = key held) = first :: rest ∧
      held = rest.foldl absorb first := by
  induction items using List.reverseRecOn generalizing held with
  | nil => cases listed
  | append_singleton items item inductionHypothesis =>
    rw [List.foldl_append, List.foldl_cons, List.foldl_nil] at listed
    rw [List.filter_append]
    by_cases there : key item ∈ (items.foldl (collectByKey key absorb) []).map key
    · rw [collect_by_key_of_mem there] at listed
      obtain ⟨before, present, rfl⟩ := List.mem_map.mp listed
      obtain ⟨first, rest, alike, made⟩ := inductionHypothesis present
      split
      · next same =>
        refine ⟨first, rest ++ [item], ?_, ?_⟩
        · rw [kept, alike]
          simp [same]
        · rw [List.foldl_append, ← made]
          rfl
      · next other =>
        refine ⟨first, rest, ?_, made⟩
        rw [alike]
        simp [Ne.symm other]
    · rw [collect_by_key_of_not_mem there] at listed
      rcases List.mem_append.mp listed with before | new
      · obtain ⟨first, rest, alike, made⟩ := inductionHypothesis before
        have other : key item ≠ key held := fun same =>
          there (same ▸ List.mem_map_of_mem before)
        refine ⟨first, rest, ?_, made⟩
        rw [alike]
        simp [other]
      · obtain rfl := List.mem_singleton.mp new
        have none : (items.filter fun item => key item = key held) = [] := by
          rw [List.filter_eq_nil_iff]
          intro item listed same
          rw [map_key_collected key absorb kept, List.mem_eraseDups] at there
          exact there (of_decide_eq_true same ▸ List.mem_map_of_mem listed)
        refine ⟨held, [], ?_, rfl⟩
        rw [none]
        simp

/-- Where entries are left as they are, an entry is the first item of its key. All others of the key
were absorbed without leaving a trace. -/
theorem find?_key_of_mem_collected (listed : held ∈ items.foldl (collectByKey key keepEntry) []) :
    (items.find? fun item => key item = key held) = some held := by
  obtain ⟨first, rest, alike, made⟩ := mem_collected key keepEntry (fun _ _ => rfl) listed
  have same : rest.foldl keepEntry first = first := by
    clear alike made
    induction rest with
    | nil => rfl
    | cons _ _ inductionHypothesis => exact inductionHypothesis
  rw [← List.head?_filter, alike, made, same]
  rfl

/-- Items whose keys are there from the start do not count where entries are left as they are. So
what is added to a list can be described without the list, apart from its keys. -/
theorem foldl_collect_by_key_keep_entry (start items : List α) :
    items.foldl (collectByKey key keepEntry) start =
      start ++
        (items.filter fun item => key item ∉ start.map key).foldl
          (collectByKey key keepEntry) [] := by
  induction items using List.reverseRecOn with
  | nil => simp
  | append_singleton items item inductionHypothesis =>
    rw [List.foldl_append, List.foldl_cons, List.foldl_nil, inductionHypothesis,
      List.filter_append, List.foldl_append]
    generalize (items.filter fun item => key item ∉ start.map key).foldl
      (collectByKey key keepEntry) [] = others
    by_cases there : key item ∈ start.map key
    · have skipped : ([item].filter fun item => key item ∉ start.map key) = [] := by
        simpa using there
      rw [skipped, List.foldl_nil, collect_by_key_keep_entry_of_mem]
      rw [List.map_append]
      exact List.mem_append_left _ there
    · have taken : ([item].filter fun item => key item ∉ start.map key) = [item] := by
        simpa using there
      rw [taken, List.foldl_cons, List.foldl_nil]
      by_cases later : key item ∈ others.map key
      · rw [collect_by_key_keep_entry_of_mem later, collect_by_key_keep_entry_of_mem]
        rw [List.map_append]
        exact List.mem_append_right _ later
      · rw [collect_by_key_of_not_mem later, collect_by_key_of_not_mem, List.append_assoc]
        rw [List.map_append, List.mem_append]
        exact not_or.mpr ⟨there, later⟩

end Walks

end DocGraph
