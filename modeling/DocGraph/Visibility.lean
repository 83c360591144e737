/-!
# Visibility

The three levels are ordered from the least to the most restrictive, so that the greatest of several
marks is the one that holds.

Marks come from the code and from tags, and several of them may be on one entity. What holds depends
on which marks there are, not on their order or number.
-/

namespace DocGraph

/-- Who may see an entity. -/
inductive Visibility where
  | publicAccess
  | protectedAccess
  | privateAccess
deriving DecidableEq, Ord, Inhabited

namespace Visibility

/-- The written word for a level. -/
def word : Visibility → String
  | publicAccess => "public"
  | protectedAccess => "protected"
  | privateAccess => "private"

/-- Every level, least restrictive first. -/
def all : List Visibility := [publicAccess, protectedAccess, privateAccess]

/-- The level that a word names. Other words are no marks. -/
def ofWord? (text : String) : Option Visibility := all.find? fun level => level.word = text

/-- How restrictive a level is. Marks are compared by it. -/
def rank : Visibility → Nat
  | publicAccess => 0
  | protectedAccess => 1
  | privateAccess => 2

/-- The more restrictive of two levels. -/
def stricter (left right : Visibility) : Visibility :=
  if left.rank < right.rank then right else left

/-- The most restrictive of several marks, public without any. It is the least level that respects
all of the marks. -/
def strictest (marks : List Visibility) : Visibility := marks.foldl stricter publicAccess

/-- The different levels among some marks, least restrictive first. A mark that is repeated is
listed once. -/
def distinct (marks : List Visibility) : List Visibility := all.filter marks.contains

/-- The name of a level in warnings. -/
def title : Visibility → String
  | publicAccess => "Public"
  | protectedAccess => "Protected"
  | privateAccess => "Private"

end Visibility

end DocGraph
