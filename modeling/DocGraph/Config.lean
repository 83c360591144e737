import DocGraph.Json.Decode

/-!
# Build configuration

Every setting has a default, so a configuration may be written in part.

A setting that is written with a value of another kind is a fault of the whole configuration, while
settings that are not known are passed over.
-/

namespace DocGraph

open Json

/-- The order of the members listed for a container. Declarations are listed as they come in the
source. -/
inductive MemberOrder where
  | declaration
  | alphabetical
deriving DecidableEq, Inhabited

namespace MemberOrder

/-- The word for an order. -/
def word : MemberOrder → String
  | declaration => "declaration"
  | alphabetical => "alphabetical"

/-- Both orders. -/
def all : List MemberOrder := [declaration, alphabetical]

/-- Read an order. -/
def ofJson? : Json → Option MemberOrder := word? isNull (named? all word)

/-- Write an order. -/
def toJson (order : MemberOrder) : Json := .text order.word

end MemberOrder

/-- The settings of a build. The settings say how comments are attached, how members are listed, in
which order files are taken, and what the root is called. -/
structure Config where
  /-- Lines allowed between the end of a comment and the declaration it documents. -/
  maxCommentGap : UInt32 := 0
  memberOrder : MemberOrder := .declaration
  /-- Process files sorted by path, not in the order given. -/
  sortFiles : Bool := false
  /-- The name of the root namespace when no file names the module. -/
  rootName : String := "global"
deriving DecidableEq, Inhabited

namespace Config

/-- Read a configuration. Each setting that is left out has the default of the structure. -/
def ofJson? (value : Json) : Option Config := do
  let fields ← fields? value
  return {
    maxCommentGap := ← defaulted fields "max_comment_gap" 0 uint32?
    memberOrder := ← defaulted fields "member_order" .declaration MemberOrder.ofJson?
    sortFiles := ← defaulted fields "sort_files" false bool?
    rootName := ← defaulted fields "root_name" "global" text? }

/-- Write a configuration. -/
def toJson (config : Config) : Json :=
  .object [("max_comment_gap", ofUInt32 config.maxCommentGap),
    ("member_order", config.memberOrder.toJson), ("sort_files", .bool config.sortFiles),
    ("root_name", .text config.rootName)]

end Config

end DocGraph
