/-!
# Name-paths

A name-path locates an entity: a list of segments, each with the binding that joins it to its
container. The empty path is the root namespace. Members of the root are always static, so a path
grown from the root starts with a static segment; a partial path written with a leading separator
may start otherwise.

Paths are ordered segment by segment, a segment by its binding and then by its name in code-point
order.

Paths are data, and nothing here asks whether an entity is live at them. What they have in common
with a written form is in a module of its own, since several paths may be written alike.
-/

namespace DocGraph

/-- How an entity is bound to its container. The order of the constructors is the order in which
members of one name are sorted. -/
inductive Binding where
  /-- A static or namespace-level member. -/
  | static
  /-- A member of the instances of a class. -/
  | onInstance
  /-- A declaration local to a function body. -/
  | inner
deriving DecidableEq, Ord, Inhabited

namespace Binding

/-- The character that stands between a container and a member so bound. The three characters are
different, so a separator tells its binding. -/
def separator : Binding → Char
  | static => '.'
  | onInstance => '#'
  | inner => '~'

/-- The binding that a separator character denotes. -/
def ofSeparator? (c : Char) : Option Binding :=
  if c = '.' then some static
  else if c = '#' then some onInstance
  else if c = '~' then some inner
  else none

/-- Whether a character is one of the three separators. -/
def isSeparator (c : Char) : Bool := (ofSeparator? c).isSome

/-- Each binding is read back from its separator. So what was written can be read. -/
@[simp]
theorem of_separator?_separator (binding : Binding) :
    ofSeparator? binding.separator = some binding := by
  cases binding <;> rfl

/-- Only the separator of a binding denotes it. It is the converse: what is read can be written. -/
theorem separator_of_of_separator? {c : Char} {binding : Binding}
    (denoted : ofSeparator? c = some binding) : binding.separator = c := by
  unfold ofSeparator? at denoted
  split at denoted
  · next same => cases denoted; exact same.symm
  · split at denoted
    · next same => cases denoted; exact same.symm
    · split at denoted
      · next same => cases denoted; exact same.symm
      · cases denoted

end Binding

/-- One step of a path. Two members of one name and different bindings have different paths. -/
structure Segment where
  binding : Binding
  name : String
deriving DecidableEq, Inhabited

namespace Segment

/-- Segments compare by binding first and then by name. -/
def compare (left right : Segment) : Ordering :=
  (Ord.compare left.binding right.binding).then (Ord.compare left.name right.name)

instance : Ord Segment := ⟨compare⟩

end Segment

/-- A full or partial path to an entity. Whether it is full or partial depends on what it is used
for. -/
structure NamePath where
  segments : List Segment
deriving DecidableEq, Inhabited

namespace NamePath

/-- The path of the root namespace. -/
def root : NamePath := ⟨[]⟩

/-- Whether a path is the root. -/
def isRoot (path : NamePath) : Bool := path.segments.isEmpty

/-- The number of segments. -/
def length (path : NamePath) : Nat := path.segments.length

/-- Paths compare segment by segment, a shorter path before its extensions. So what lies below a
path comes directly behind it. -/
def compare (left right : NamePath) : Ordering :=
  left.segments.compareLex Ord.compare right.segments

instance : Ord NamePath := ⟨compare⟩

/-- The path of a member. Members of the root are static whatever binding is asked for. Every full
path is made in this way, one segment after the other. -/
def child (path : NamePath) (binding : Binding) (name : String) : NamePath :=
  ⟨path.segments ++ [⟨if path.isRoot then .static else binding, name⟩]⟩

/-- The containing path. The root and top-level paths have none. Having no container and having the
root for a container are the same. -/
def parent? (path : NamePath) : Option NamePath :=
  if path.segments.length ≤ 1 then none else some ⟨path.segments.dropLast⟩

/-- The name of the last segment. -/
def name? (path : NamePath) : Option String := path.segments.getLast?.map Segment.name

/-- The binding of the last segment. -/
def binding? (path : NamePath) : Option Binding := path.segments.getLast?.map Segment.binding

/-- The last name of a path, empty at the root. -/
def lastName (path : NamePath) : String := path.name?.getD ""

/-- Whether a path lies strictly below another. A path is not below itself, and everything but the
root is below the root. -/
def isBelow (path ancestor : NamePath) : Bool :=
  ancestor.segments.length < path.segments.length && ancestor.segments.isPrefixOf path.segments

/-- Segment-wise agreement of two lists of one length, the first pair by name only unless its
binding is to be matched. Only the first pair can be excused from its binding. -/
def sameTail (matchBinding : Bool) : List Segment → List Segment → Bool
  | [], [] => true
  | held :: heldRest, asked :: askedRest =>
    held.name == asked.name && (held.binding == asked.binding || !matchBinding) &&
      sameTail true heldRest askedRest
  | _, _ => false

/-- Suffix match on segments. The first segment of the suffix is compared by name only, unless
`matchFirstBinding` is set. The empty suffix matches nothing. So a name that is given without its
binding is found whatever the binding is. -/
def endsWith (path suffix : NamePath) (matchFirstBinding : Bool) : Bool :=
  let count := suffix.segments.length
  count != 0 && count ≤ path.segments.length &&
    sameTail matchFirstBinding (path.segments.drop (path.segments.length - count)) suffix.segments

/-- The names alone, joined by dots. -/
def dotted (path : NamePath) : String := ".".intercalate (path.segments.map Segment.name)

/-- The path, its parent, its parent's parent and so on, up to the top level. The root yields itself
alone. It has an end because each step takes a segment away. -/
def chain (path : NamePath) : List NamePath :=
  if path.segments.length ≤ 1 then [path]
  else path :: chain ⟨path.segments.dropLast⟩
termination_by path.segments.length
decreasing_by
  simp only [List.length_dropLast]
  omega

/-- The same path with a static first segment. It is what is left of a path when it was written and
read. -/
def withStaticHead (path : NamePath) : NamePath :=
  match path.segments with
  | [] => path
  | first :: rest => ⟨⟨.static, first.name⟩ :: rest⟩

/-- A member of a container other than the root has that container as its parent. It is why a member
is filed under the path that it was given. -/
@[simp]
theorem parent?_child {path : NamePath} (inside : path.isRoot = false) (binding : Binding)
    (name : String) : (path.child binding name).parent? = some path := by
  have filled : path.segments ≠ [] := by simpa [isRoot] using inside
  have positive := List.length_pos_iff.mpr filled
  have long : ¬(path.segments.length + 1 ≤ 1) := by omega
  simp [parent?, child, long]

/-- Members of the root are at top level. The root is no parent. -/
@[simp]
theorem parent?_child_root (binding : Binding) (name : String) :
    (root.child binding name).parent? = none := by
  simp [parent?, child, root]

/-- A member's path ends in its own name. -/
@[simp]
theorem name?_child (path : NamePath) (binding : Binding) (name : String) :
    (path.child binding name).name? = some name := by
  simp [name?, child]

end NamePath

end DocGraph
