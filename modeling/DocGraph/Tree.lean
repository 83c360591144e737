/-!
# Finitely branching trees

Declarations, destructured parameters, drafts and snapshots all nest to any depth. They share this
one tree shape: a value and an ordered list of subtrees. Every traversal here is structural, and the
list companion of each function is its pointwise extension to a forest.

The preorder puts a value before those below it. It is the order of the source text, and so it is
the order in which declarations are numbered, drafts are placed and warnings are given.
-/

namespace DocGraph

universe u v

/-- A value with its ordered children. A tree is never empty, while a forest may be. -/
inductive Tree (α : Type u) where
  | node (value : α) (children : List (Tree α))

namespace Tree

variable {α : Type u} {β : Type v}

/-- The value at the root. -/
def value : Tree α → α
  | node value _ => value

/-- The subtrees directly below the root. -/
def children : Tree α → List (Tree α)
  | node _ children => children

mutual

/-- Reason about a tree from the same fact about each of its children. The premise is on all
children at once, as the recursion of most functions on trees is. -/
theorem induct {motive : Tree α → Prop}
    (step : ∀ value children, (∀ child ∈ children, motive child) → motive (node value children)) :
    ∀ tree, motive tree
  | node value children => step value children (induct_forest step children)

/-- The forest half of induction on trees. -/
theorem induct_forest {motive : Tree α → Prop}
    (step : ∀ value children, (∀ child ∈ children, motive child) → motive (node value children)) :
    ∀ forest : List (Tree α), ∀ tree ∈ forest, motive tree
  | [], _, absent => absurd absent List.not_mem_nil
  | first :: rest, tree, present =>
    match List.mem_cons.mp present with
    | .inl same => same ▸ induct step first
    | .inr later => induct_forest step rest tree later

end

mutual

/-- The values of a tree, each before those below it. No value is left out and none is listed
twice. -/
def preorder : Tree α → List α
  | node value children => value :: forestPreorder children

/-- The values of a forest, tree by tree. -/
def forestPreorder : List (Tree α) → List α
  | [] => []
  | first :: rest => preorder first ++ forestPreorder rest

end

mutual

/-- Apply a function to every value. -/
def map (f : α → β) : Tree α → Tree β
  | node value children => node (f value) (mapForest f children)

/-- Apply a function to every value of a forest. -/
def mapForest (f : α → β) : List (Tree α) → List (Tree β)
  | [] => []
  | first :: rest => map f first :: mapForest f rest

end

mutual

/-- Keep the part of a tree whose values are accepted from the root down. A refused value takes
everything below it away. The accepted part is a tree again, since a value is reached only through
accepted ones. -/
def prune (accept : α → Option β) : Tree α → Option (Tree β)
  | node value children =>
    (accept value).map fun accepted => node accepted (pruneForest accept children)

/-- Prune every tree of a forest and drop those refused at the root. -/
def pruneForest (accept : α → Option β) : List (Tree α) → List (Tree β)
  | [] => []
  | first :: rest =>
    match prune accept first with
    | some kept => kept :: pruneForest accept rest
    | none => pruneForest accept rest

end

mutual

/-- Number the values in preorder, starting at a given number. The second component is the first
number not used. The numbers are those of the preorder, so sorting by them gives the source order
back. -/
def number (start : Nat) : Tree α → Tree (Nat × α) × Nat
  | node value children =>
    let (numbered, next) := numberForest (start + 1) children
    (node (start, value) numbered, next)

/-- Number the values of a forest, the trees one after the other. The next number is handed on from
tree to tree. -/
def numberForest (start : Nat) : List (Tree α) → List (Tree (Nat × α)) × Nat
  | [] => ([], start)
  | first :: rest =>
    let (numberedFirst, afterFirst) := number start first
    let (numberedRest, next) := numberForest afterFirst rest
    (numberedFirst :: numberedRest, next)

end

/-- The preorder of a forest is the concatenation of its trees' preorders. So statements on lists
apply to forests. -/
theorem forest_preorder_eq_flat_map (forest : List (Tree α)) :
    forestPreorder forest = forest.flatMap preorder := by
  induction forest with
  | nil => rfl
  | cons first rest inductionHypothesis =>
    simp [forestPreorder, inductionHypothesis]

/-- Pruning a forest keeps the accepted trees in order. Pruning one tree does not depend on the
others. -/
theorem prune_forest_eq_filter_map (accept : α → Option β) (forest : List (Tree α)) :
    pruneForest accept forest = forest.filterMap (prune accept) := by
  induction forest with
  | nil => rfl
  | cons first rest inductionHypothesis =>
    rw [pruneForest, List.filterMap_cons, inductionHypothesis]
    cases prune accept first <;> rfl

mutual

/-- Mapping commutes with the preorder listing. So what is collected from the values of a tree may
be collected before or after. -/
@[simp]
theorem preorder_map (f : α → β) : ∀ tree : Tree α, (tree.map f).preorder = tree.preorder.map f
  | node value children => by simp [map, preorder, forest_preorder_map_forest f children]

/-- Mapping commutes with the preorder listing of a forest. -/
@[simp]
theorem forest_preorder_map_forest (f : α → β) :
    ∀ forest : List (Tree α), forestPreorder (mapForest f forest) = (forestPreorder forest).map f
  | [] => rfl
  | first :: rest => by
    simp [mapForest, forestPreorder, preorder_map f first, forest_preorder_map_forest f rest]

end

end Tree

end DocGraph
