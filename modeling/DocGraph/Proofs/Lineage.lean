import Mathlib
import DocGraph.NamePath.Basic

/-!
# Lineages among held paths

Take any list of paths as the ones that are held. The lineage of a held path leads upwards from it,
from parent to parent, as long as the parents are held. A path belongs to the household of every
path in its lineage.

Two facts turn a flat list of paths into a forest and back. A household is its head together with
the households of the held children of the head; and all held paths together are the households of
the outermost ones. Both count every path exactly once. Neither asks that a parent be held: a path
whose parent is missing is outermost.

Both facts are permutations of lists without repetitions, and they follow from one principle: if
every item is related to exactly one key, the items can be counted key by key. What has to be shown
each time is that there is one key, and no second one.
-/

namespace DocGraph

/-- When every item is related to exactly one key, collecting the related items key by key lists
every item once. Neither list must hold anything twice; otherwise an item would be listed as often
as its key. -/
theorem perm_flat_map_filter {α β : Type} {items : List α} {keys : List β}
    {related : β → α → Bool} (distinctItems : items.Nodup) (distinctKeys : keys.Nodup)
    (one : ∀ item ∈ items, ∃ key ∈ keys, related key item = true ∧
      ∀ other ∈ keys, related other item = true → other = key) :
    items.Perm (keys.flatMap fun key => items.filter (related key)) := by
  have apart : (keys.flatMap fun key => items.filter (related key)).Nodup := by
    refine List.nodup_flatMap.mpr ⟨fun key _ => distinctItems.filter _, ?_⟩
    refine List.Pairwise.imp_of_mem ?_ distinctKeys
    intro left right leftKey rightKey differ item inLeft inRight
    obtain ⟨present, relatedLeft⟩ := List.mem_filter.mp inLeft
    obtain ⟨_, relatedRight⟩ := List.mem_filter.mp inRight
    obtain ⟨key, _, _, only⟩ := one item present
    exact differ ((only left leftKey relatedLeft).trans (only right rightKey relatedRight).symm)
  refine (List.perm_ext_iff_of_nodup distinctItems apart).mpr ?_
  intro item
  rw [List.mem_flatMap]
  constructor
  · intro present
    obtain ⟨key, held, relates, _⟩ := one item present
    exact ⟨key, held, List.mem_filter.mpr ⟨present, relates⟩⟩
  · rintro ⟨key, _, listed⟩
    exact (List.mem_filter.mp listed).1

namespace NamePath

/-- A parent is one segment shorter. -/
theorem length_parent? {path parent : NamePath} (above : path.parent? = some parent) :
    path.length = parent.length + 1 := by
  unfold parent? at above
  split at above
  · cases above
  · next long =>
    cases above
    simp only [length, List.length_dropLast]
    omega

/-- Reason about a path from the same fact about its parent. The recursion of paths goes from a path
to its parent, and this is the induction that belongs to it. -/
theorem induct_parent {motive : NamePath → Prop}
    (step : ∀ path, (∀ parent, path.parent? = some parent → motive parent) → motive path)
    (path : NamePath) : motive path := by
  induction size : path.length using Nat.strongRecOn generalizing path with
  | ind count inductionHypothesis =>
    apply step
    intro parent above
    have shorter := length_parent? above
    exact inductionHypothesis parent.length (by omega) parent rfl

/-- The chain of a path is the path and then the chain of its parent. -/
theorem chain_eq (path : NamePath) : path.chain = path :: (path.parent?.map chain).getD [] := by
  rw [chain, parent?]
  split <;> rfl

/-- A path and the containers above it, as far as they are held without a gap. It stops at the first
gap, so a held path above a missing one is not in it. -/
def lineage (held : List NamePath) (path : NamePath) : List NamePath :=
  path.chain.takeWhile held.contains

variable {held : List NamePath}

/-- The lineage of a held path is the path and then the lineage of its parent. -/
theorem lineage_of_mem {path : NamePath} (present : path ∈ held) :
    lineage held path = path :: (path.parent?.map (lineage held)).getD [] := by
  rw [lineage, chain_eq, List.takeWhile_cons_of_pos (by simpa using present)]
  cases path.parent? <;> rfl

/-- A path that is not held has no lineage. -/
theorem lineage_of_not_mem {path : NamePath} (absent : path ∉ held) : lineage held path = [] := by
  rw [lineage, chain_eq, List.takeWhile_cons_of_neg (by simpa using absent)]

/-- A lineage goes through held paths only. -/
theorem held_of_mem_lineage {path above : NamePath} (listed : above ∈ lineage held path) :
    above ∈ held := by
  simpa using List.mem_takeWhile_imp listed

/-- What is in the lineage of a path is the path itself, or the path is held and it is in the
lineage of the parent. It is the equation by which the proofs below go up one step. -/
theorem mem_lineage {path above : NamePath} :
    above ∈ lineage held path ↔
      path ∈ held ∧ (above = path ∨ ∃ parent, path.parent? = some parent ∧
        above ∈ lineage held parent) := by
  by_cases present : path ∈ held
  · rw [lineage_of_mem present, List.mem_cons]
    cases path.parent? <;> simp [present]
  · simp [lineage_of_not_mem present, present]

/-- Nothing in a lineage is longer than the path, and only the path is as long. Lengths tell the
paths of a lineage apart. -/
theorem length_of_mem_lineage {path above : NamePath} (listed : above ∈ lineage held path) :
    above = path ∨ above.length < path.length := by
  induction path using induct_parent with
  | step path inductionHypothesis =>
    obtain ⟨_, same | ⟨parent, parented, higher⟩⟩ := mem_lineage.mp listed
    · exact .inl same
    · have shorter := length_parent? parented
      rcases inductionHypothesis parent parented higher with rfl | lower
      · exact .inr (by omega)
      · exact .inr (by omega)

/-- No two paths of a lineage are equally long. -/
theorem eq_of_mem_lineage {path left right : NamePath} (inLeft : left ∈ lineage held path)
    (inRight : right ∈ lineage held path) (same : left.length = right.length) : left = right := by
  induction path using induct_parent with
  | step path inductionHypothesis =>
    rcases length_of_mem_lineage inLeft with rfl | leftShorter
    · rcases length_of_mem_lineage inRight with rfl | rightShorter
      · rfl
      · omega
    · rcases length_of_mem_lineage inRight with rfl | rightShorter
      · omega
      · obtain ⟨_, rfl | ⟨parent, parented, leftHigher⟩⟩ := mem_lineage.mp inLeft
        · omega
        · obtain ⟨_, rfl | ⟨parent', parented', rightHigher⟩⟩ := mem_lineage.mp inRight
          · omega
          · cases parented.symm.trans parented'
            exact inductionHypothesis parent parented leftHigher rightHigher

/-- A lineage reaches a path above its start through a child of that path. The child is the path
before it on the way up. -/
theorem exists_child_of_mem_lineage {path above : NamePath} (listed : above ∈ lineage held path)
    (differs : above ≠ path) : ∃ child ∈ lineage held path, child.parent? = some above := by
  induction path using induct_parent with
  | step path inductionHypothesis =>
    obtain ⟨present, same | ⟨parent, parented, higher⟩⟩ := mem_lineage.mp listed
    · exact absurd same differs
    · by_cases direct : above = parent
      · exact ⟨path, mem_lineage.mpr ⟨present, .inl rfl⟩, direct ▸ parented⟩
      · obtain ⟨child, found, above⟩ := inductionHypothesis parent parented higher direct
        exact ⟨child, mem_lineage.mpr ⟨present, .inr ⟨parent, parented, found⟩⟩, above⟩

/-- A lineage goes on to every held parent. -/
theorem parent_mem_lineage {path child parent : NamePath} (listed : child ∈ lineage held path)
    (above : child.parent? = some parent) (present : parent ∈ held) :
    parent ∈ lineage held path := by
  induction path using induct_parent with
  | step path inductionHypothesis =>
    obtain ⟨start, rfl | ⟨next, parented, higher⟩⟩ := mem_lineage.mp listed
    · exact mem_lineage.mpr
        ⟨start, .inr ⟨parent, above, mem_lineage.mpr ⟨present, .inl rfl⟩⟩⟩
    · exact mem_lineage.mpr
        ⟨start, .inr ⟨next, parented, inductionHypothesis next parented higher⟩⟩

/-- Whether the parent of a path is not held. A path without a parent is outermost, too. -/
def isOutermost (held : List NamePath) (path : NamePath) : Bool :=
  (path.parent?.map fun parent => !held.contains parent).getD true

/-- The lineage of a held path ends in an outermost path, and in no other. It is the last path of
the lineage, where the way up stops at a missing parent. -/
theorem exists_outermost {path : NamePath} (present : path ∈ held) :
    ∃ top ∈ lineage held path, isOutermost held top = true ∧
      ∀ other ∈ lineage held path, isOutermost held other = true → other = top := by
  induction path using induct_parent with
  | step path inductionHypothesis =>
    rw [lineage_of_mem present]
    cases parented : path.parent? with
    | none =>
      refine ⟨path, List.mem_cons_self, by simp [isOutermost, parented], ?_⟩
      simp
    | some parent =>
      by_cases above : parent ∈ held
      · obtain ⟨top, listed, outermost, only⟩ := inductionHypothesis parent parented above
        refine ⟨top, List.mem_cons_of_mem _ listed, outermost, ?_⟩
        intro other reached otherOutermost
        rcases List.mem_cons.mp reached with rfl | higher
        · simp [isOutermost, parented, above] at otherOutermost
        · exact only other higher otherOutermost
      · refine ⟨path, List.mem_cons_self, by simp [isOutermost, parented, above], ?_⟩
        simp [lineage_of_not_mem above]

/-- The held paths whose lineage goes through a path. With the head itself, if that is held. -/
def household (held : List NamePath) (head : NamePath) : List NamePath :=
  held.filter fun path => head ∈ lineage held path

/-- The held children of a path. -/
def heldChildren (held : List NamePath) (head : NamePath) : List NamePath :=
  held.filter fun path => path.parent? = some head

/-- A household consists of the held paths whose lineage goes through its head. -/
theorem mem_household {head path : NamePath} :
    path ∈ household held head ↔ path ∈ held ∧ head ∈ lineage held path := by
  simp [household]

/-- The held children of a path have it as their parent. -/
theorem mem_held_children {head child : NamePath} :
    child ∈ heldChildren held head ↔ child ∈ held ∧ child.parent? = some head := by
  simp [heldChildren]

/-- A held path is in its own household. -/
theorem mem_household_self {path : NamePath} (present : path ∈ held) :
    path ∈ household held path :=
  mem_household.mpr ⟨present, mem_lineage.mpr ⟨present, .inl rfl⟩⟩

/-- Below the head of a household, every path belongs to exactly one held child.

Proof: the lineage reaches the head through one of its children. Another child in the lineage would
be equally long and therefore the same path. -/
theorem exists_child_of_mem_household {head path : NamePath}
    (inside : path ∈ household held head) (differs : path ≠ head) :
    ∃ child ∈ heldChildren held head, child ∈ lineage held path ∧
      ∀ other ∈ heldChildren held head, other ∈ lineage held path → other = child := by
  obtain ⟨child, listed, above⟩ :=
    exists_child_of_mem_lineage (mem_household.mp inside).2 (Ne.symm differs)
  refine ⟨child, mem_held_children.mpr ⟨held_of_mem_lineage listed, above⟩, listed, ?_⟩
  intro other otherChild reached
  have otherAbove := (mem_held_children.mp otherChild).2
  have sameLength : other.length = child.length :=
    (length_parent? otherAbove).trans (length_parent? above).symm
  exact eq_of_mem_lineage reached listed sameLength

/-- The household of a held child lies in that of its parent, without the parent. -/
theorem ne_and_mem_lineage_of_child {head child path : NamePath} (present : head ∈ held)
    (isChild : child ∈ heldChildren held head) (reached : child ∈ lineage held path) :
    path ≠ head ∧ head ∈ lineage held path := by
  have above := (mem_held_children.mp isChild).2
  have longer := length_parent? above
  refine ⟨?_, parent_mem_lineage reached above present⟩
  rintro rfl
  rcases length_of_mem_lineage reached with rfl | shorter
  · omega
  · omega

/-- A household is its head and the households of the held children of the head.

Proof: below the head, each path of the household belongs to exactly one held child, so counting
child by child lists it once; and no child has the head in its household. -/
theorem household_perm (distinct : held.Nodup) {head : NamePath} (present : head ∈ held) :
    (household held head).Perm (head :: (heldChildren held head).flatMap (household held)) := by
  have apart : (household held head).Nodup := distinct.filter _
  have children : (heldChildren held head).Nodup := distinct.filter _
  have parts : ((household held head).erase head).Perm
      ((heldChildren held head).flatMap fun child => ((household held head).erase head).filter
        fun path => child ∈ lineage held path) := by
    refine perm_flat_map_filter (apart.erase head) children ?_
    intro path below
    obtain ⟨differs, inside⟩ := apart.mem_erase_iff.mp below
    simpa only [decide_eq_true_eq] using exists_child_of_mem_household inside differs
  refine (List.perm_cons_erase (mem_household_self present)).trans (.cons head ?_)
  refine parts.trans (List.Perm.of_eq (List.flatMap_congr ?_))
  intro child isChild
  rw [apart.erase_eq_filter, household, List.filter_filter, List.filter_filter, household]
  refine List.filter_congr ?_
  intro path _
  by_cases reached : child ∈ lineage held path
  · obtain ⟨differs, through⟩ := ne_and_mem_lineage_of_child present isChild reached
    simp [reached, through, differs]
  · simp [reached]

/-- The household of a held child is smaller than that of its parent. It is what a recursion along
households terminates by. -/
theorem length_household_child_lt (distinct : held.Nodup) {head child : NamePath}
    (present : head ∈ held) (isChild : child ∈ heldChildren held head) :
    (household held child).length < (household held head).length := by
  have part : ([child].flatMap (household held)).length ≤
      ((heldChildren held head).flatMap (household held)).length :=
    ((List.singleton_sublist.mpr isChild).flatMap _).length_le
  have whole := (household_perm distinct present).length_eq
  rw [List.length_cons] at whole
  rw [List.flatMap_singleton] at part
  omega

/-- All held paths are the households of the outermost ones.

Proof: the lineage of each held path ends in one outermost path, so the outermost paths are the keys
by which the held ones can be counted. -/
theorem held_perm (distinct : held.Nodup) :
    held.Perm ((held.filter (isOutermost held)).flatMap (household held)) := by
  refine perm_flat_map_filter distinct (distinct.filter _) ?_
  intro path present
  simp only [decide_eq_true_eq]
  obtain ⟨top, listed, outermost, only⟩ := exists_outermost present
  refine ⟨top, List.mem_filter.mpr ⟨held_of_mem_lineage listed, outermost⟩, listed, ?_⟩
  intro other otherTop reached
  exact only other reached (List.mem_filter.mp otherTop).2

end NamePath

end DocGraph
