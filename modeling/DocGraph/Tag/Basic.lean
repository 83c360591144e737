/-!
# Documentation tags

Tags have canonical kinds; several names can stand for one kind, and a name that stands for none is
kept as it is. A tag may hold a type expression, the name part of a parameter, leading arguments and
free text.

What a tag means for an entity is not decided here. A tag is only the text that was written, taken
apart by the rules of its kind.
-/

namespace DocGraph

/-- The canonical kinds of tags. Names that end in the word tag are so called because the plain word
is taken. -/
inductive TagKind where
  | param
  | returns
  | throws
  | exampleTag
  | deprecated
  | see
  | privateTag
  | protectedTag
  | publicTag
  | access
  | lends
  | classTag
  | interface
  | namespaceTag
  | function
  | member
  | property
  | type
  | typedef
  | callback
  | static
  | abstract
  | augments
  | implements
  | memberof
  | template
  | moduleTag
  | version
  | author
  | license
  | file
  | description
  | classdesc
  /-- A tag without a canonical kind, under its own name. -/
  | other (name : String)
deriving DecidableEq

namespace TagKind

/-- The word for a kind; for a tag without a canonical kind its own name. -/
def word : TagKind → String
  | param => "param"
  | returns => "returns"
  | throws => "throws"
  | exampleTag => "example"
  | deprecated => "deprecated"
  | see => "see"
  | privateTag => "private"
  | protectedTag => "protected"
  | publicTag => "public"
  | access => "access"
  | lends => "lends"
  | classTag => "class"
  | interface => "interface"
  | namespaceTag => "namespace"
  | function => "function"
  | member => "member"
  | property => "property"
  | type => "type"
  | typedef => "typedef"
  | callback => "callback"
  | static => "static"
  | abstract => "abstract"
  | augments => "augments"
  | implements => "implements"
  | memberof => "memberof"
  | template => "template"
  | moduleTag => "module"
  | version => "version"
  | author => "author"
  | license => "license"
  | file => "file"
  | description => "description"
  | classdesc => "classdesc"
  | other name => name

/-- Every canonical kind. -/
def canonical : List TagKind :=
  [param, returns, throws, exampleTag, deprecated, see, privateTag, protectedTag, publicTag,
    access, lends, classTag, interface, namespaceTag, function, member, property, type, typedef,
    callback, static, abstract, augments, implements, memberof, template, moduleTag, version,
    author, license, file, description, classdesc]

/-- Further names of canonical kinds. -/
def aliases : List (String × TagKind) :=
  [("arg", param), ("argument", param), ("return", returns), ("exception", throws),
    ("constructor", classTag), ("func", function), ("method", function), ("var", member),
    ("prop", property), ("virtual", abstract), ("extends", augments), ("fileoverview", file),
    ("overview", file), ("desc", description)]

/-- The kind that a tag name stands for. Canonical words come before further names, and case
matters. -/
def ofName (name : String) : TagKind :=
  match canonical.find? fun kind => kind.word = name with
  | some kind => kind
  | none => (aliases.lookup name).getD (other name)

/-- Whether the first word after the tag is an argument and not description. For the others the
first word belongs to the text. -/
def takesArgument : TagKind → Bool
  | see | access | lends | classTag | interface | namespaceTag | function | member | typedef
  | callback | augments | implements | memberof | template | moduleTag | version => true
  | _ => false

end TagKind

/-- The name part of a parameter or property tag. The marks may have been written at the name or at
the type. -/
structure TagParam where
  /-- The name, plain or dotted. -/
  name : String := ""
  isOptional : Bool := false
  defaultText : Option String := none
  isVariadic : Bool := false
deriving DecidableEq

/-- One documentation tag. Most kinds leave some of the fields empty. -/
structure Tag where
  kind : TagKind
  /-- The content of a type expression, without its braces. -/
  typeExpr : Option String := none
  param : Option TagParam := none
  /-- Leading arguments, for the kinds that take them. -/
  args : List String := []
  /-- Free text. -/
  body : String := ""
deriving DecidableEq

/-- The first argument, or the body of a tag that has none. So an argument that was written on a
later line is found as well. -/
def Tag.target? (tag : Tag) : Option String :=
  match tag.args with
  | first :: _ => some first
  | [] => if tag.body.isEmpty then none else some tag.body

end DocGraph
