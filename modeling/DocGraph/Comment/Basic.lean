import DocGraph.Comment.TagText
import DocGraph.Diagnostic

/-!
# Documentation comments

A comment is a description followed by tags. The bodies of description tags are added to the
description, each as a paragraph of its own. Faulty tags are reported in the order of the tags.

Reading goes in stages: the text is cut into lines, lines are gathered into blocks, and each block
is read as a tag. No stage looks back at an earlier one, and only the last one can meet a fault.
-/

namespace DocGraph

/-- A parsed comment. The tags are kept as they were read, also those that were added to the
description. -/
structure DocComment where
  description : String := ""
  tags : List Tag := []
deriving DecidableEq, Inhabited

namespace DocComment

/-- The first tag of a kind. -/
def first? (doc : DocComment) (kind : TagKind) : Option Tag :=
  doc.tags.find? fun tag => tag.kind = kind

/-- All tags of a kind. -/
def all (doc : DocComment) (kind : TagKind) : List Tag :=
  doc.tags.filter fun tag => tag.kind = kind

/-- Whether there is a tag of a kind. -/
def has (doc : DocComment) (kind : TagKind) : Bool :=
  doc.tags.any fun tag => tag.kind = kind

/-- Whether the comment describes the file or module and no declaration. A tag of this kind anywhere
in the comment is enough. -/
def isFileLevel (doc : DocComment) : Bool := doc.has .file || doc.has .moduleTag

end DocComment

namespace Comment

/-- A tag as it was read, with the name under which it was written. The name is needed for the
warning only, since a tag itself knows its kind. -/
structure NamedReading where
  name : List Char
  reading : TagReading

/-- Read every tag of a list. -/
def readBlocks (blocks : List Block) : List NamedReading :=
  blocks.map fun block => ⟨block.name, block.read⟩

/-- Add the bodies of description tags to a description. An empty description is replaced by the
first body, and no blank line is left before it. -/
def describe (description : String) (tags : List Tag) : String :=
  (tags.filter fun tag => tag.kind = .description).foldl
    (fun text tag => if text.isEmpty then tag.body else text ++ "\n\n" ++ tag.body) description

/-- The warning about a faulty tag. It names the tag as it was written, which may be a synonym. -/
def warning (location : Location) (name : List Char) (fault : TagFault) : Diagnostic :=
  { kind := .malformedTag
    message := "@" ++ String.ofList name ++ ": " ++ fault.message ++ ", kept as text"
    location := some location }

/-- The warnings about the faulty tags of a comment at a location. A tag has one fault at most, so
it gives at most one warning. -/
def warnings (location : Location) (readings : List NamedReading) : List Diagnostic :=
  readings.filterMap fun named => named.reading.fault.map (warning location named.name)

/-- Parse a raw comment at a location. There is a result for every text, with warnings where
something could not be read. -/
def parse (raw : String) (location : Location) : DocComment × List Diagnostic :=
  let (free, blocks) := gather (roles false (contentLines raw.toList))
  let readings := readBlocks blocks
  let tags := readings.map fun named => named.reading.tag
  ({ description := describe (String.ofList (dedent free)) tags, tags := tags },
    warnings location readings)

end Comment

end DocGraph
