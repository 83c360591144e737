import DocGraph.Config
import DocGraph.Draft.Declared
import DocGraph.Draft.Virtual

/-!
# What one file contributes to a build

A file is normalized on its own: its comments are parsed, those about the file as a whole become
module information, its declarations become drafts, and comments that define a type without a
declaration become drafts after them.

The order numbers of a file count its named declarations in preorder and then its defining comments.
Warnings about comments come before warnings about parameters.

Whether a comment is taken is decided once, by the attachment of the file. A comment can document
several declarations, and it can define something only if it documents none and is not about the
file.
-/

namespace DocGraph

/-- Drafts, module information and warnings of one file. Nothing in it depends on other files but
for the index in the order numbers. -/
structure NormalizedFile where
  drafts : List (Tree Draft)
  info : Option ModuleInfo
  diagnostics : List Diagnostic

namespace SourceFile

/-- Each comment of a file parsed, with the warnings about it. Comments that are not documentation
have no result. The list is as long as that of the comments, so that an index leads to the result of
its comment. -/
def parsedComments (file : SourceFile) : List (Option (DocComment × List Diagnostic)) :=
  file.comments.map fun comment =>
    if comment.isDoc then
      some (Comment.parse comment.text ⟨file.path, comment.span.startLine⟩)
    else none

/-- The parsed comments, at the positions of the raw ones. -/
def docs (file : SourceFile) : List (Option DocComment) :=
  file.parsedComments.map fun parsed => parsed.map Prod.fst

/-- The warnings about the comments of a file. Comments that document nothing are warned about as
well. -/
def commentWarnings (file : SourceFile) : List Diagnostic :=
  file.parsedComments.flatMap fun parsed => (parsed.map Prod.snd).getD []

/-- The indices of the comments about the file as a whole. These comments document no declaration,
wherever they stand. -/
def fileLevel (file : SourceFile) : List Nat :=
  (file.docs.zipIdx.filter fun (doc, _) => doc.any DocComment.isFileLevel).map Prod.snd

/-- The attachment of a file's comments under a configuration. Comments on the file as a whole are
skipped. -/
def attachment (file : SourceFile) (config : Config) : Attachment :=
  Attachment.ofFile file config.maxCommentGap file.fileLevel

/-- The declarations that become entities, with their names. What is nested in a declaration without
a name has no place in a path, and so it is left out with it. -/
def visited (file : SourceFile) : List (Tree (String × Declaration)) :=
  Tree.pruneForest
    (fun declaration => declaration.entityName?.map fun name => (name, declaration))
    file.declarations

/-- The sites of a file: the visited declarations with their order and comments. From here on the
text of the file plays no part any more. -/
def sites (file : SourceFile) (fileIndex : UInt32) (config : Config) : List (Tree Site) :=
  let attachment := file.attachment config
  let docs := file.docs
  Tree.mapForest
    (fun (sequence, name, declaration) =>
      { name := name
        declaration := declaration
        location := ⟨file.path, declaration.span.startLine⟩
        order := ⟨fileIndex, UInt32.ofNat sequence⟩
        doc := (attachment.commentFor? declaration.span).bind fun index => (docs[index]?).join })
    (Tree.numberForest 0 file.visited).1

/-- The indices of the comments that document a visited declaration. A comment is listed once for
each of its declarations. -/
def usedComments (file : SourceFile) (config : Config) : List Nat :=
  let attachment := file.attachment config
  (Tree.forestPreorder file.visited).filterMap fun (_, declaration) =>
    attachment.commentFor? declaration.span

/-- The defining comments of a file that document no declaration, with their lines. They are in the
order of the comments. -/
def definitions (file : SourceFile) (config : Config) :
    List (UInt32 × DocComment × String × Tag × EntityKind) :=
  let used := file.usedComments config
  let skipped := file.fileLevel
  ((file.comments.zip file.docs).zipIdx).filterMap fun ((comment, doc), index) =>
    if used.contains index || skipped.contains index then none
    else
      match doc with
      | some parsed =>
        (Draft.definition? parsed).map fun definition =>
          (comment.span.startLine, parsed, definition)
      | none => none

/-- The drafts of the defining comments, numbered after the declarations. So they come last among
the drafts of their file. -/
def virtualDrafts (file : SourceFile) (fileIndex : UInt32) (config : Config) :
    List (Tree Draft) :=
  let start := (Tree.numberForest 0 file.visited).2
  ((file.definitions config).zipIdx start).map
    fun ((line, doc, name, tag, kind), sequence) =>
      .node
        (Draft.ofDefinition doc name tag kind ⟨file.path, line⟩
          ⟨fileIndex, UInt32.ofNat sequence⟩)
        []

end SourceFile

namespace ModuleInfo

/-- Take one tag of a file-level comment into account. The first module name, version and licence
count; authors accumulate. All other tags say nothing about the file. -/
def applyTag (info : ModuleInfo) (tag : Tag) : ModuleInfo :=
  match tag.kind with
  | .moduleTag =>
    if info.name.isEmpty then { info with name := tag.target?.getD "" } else info
  | .version => { info with version := info.version.or tag.target? }
  | .author => { info with authors := info.authors ++ [tag.body] }
  | .license => { info with license := info.license.or (some tag.body) }
  | _ => info

/-- The description of the file that a comment gives: the text of its file tag, or
else its own description. -/
def fileDescription (doc : DocComment) : String :=
  match doc.first? .file with
  | some tag => if tag.body.isEmpty then doc.description else tag.body
  | none => doc.description

/-- Take one file-level comment into account. The description of the first comment that has one
counts. -/
def applyDoc (info : ModuleInfo) (doc : DocComment) : ModuleInfo :=
  doc.tags.foldl applyTag
    { info with
      description :=
        if info.description.isEmpty then fileDescription doc else info.description }

/-- What the file-level comments of a file say, if there are any. A file without such comments
contributes no information, which is not the same as empty information. -/
def ofDocs? (docs : List DocComment) : Option ModuleInfo :=
  match docs.filter DocComment.isFileLevel with
  | [] => none
  | fileLevel => some (fileLevel.foldl applyDoc {})

/-- Join the information of two files. The earlier file wins where only one value can stand; authors
accumulate without repetition. A value that is empty counts as missing. -/
def merge (earlier later : ModuleInfo) : ModuleInfo :=
  { name := if earlier.name.isEmpty then later.name else earlier.name
    description := if earlier.description.isEmpty then later.description else earlier.description
    version := earlier.version.or later.version
    license := earlier.license.or later.license
    authors := later.authors.foldl
      (fun authors author => if authors.contains author then authors else authors ++ [author])
      earlier.authors }

/-- The information of all files together, under a name for modules without one. The configured name
counts only when no file names its module. -/
def mergeAll (rootName : String) (infos : List ModuleInfo) : ModuleInfo :=
  let merged : ModuleInfo := match infos with
    | [] => {}
    | first :: rest => rest.foldl merge first
  if merged.name.isEmpty then { merged with name := rootName } else merged

end ModuleInfo

/-- Normalize a file. It is the only thing that is done with a file. -/
def SourceFile.normalize (file : SourceFile) (fileIndex : UInt32) (config : Config) :
    NormalizedFile :=
  let sites := file.sites fileIndex config
  { drafts := Draft.declared sites ++ file.virtualDrafts fileIndex config
    info := ModuleInfo.ofDocs? (file.docs.filterMap id)
    diagnostics := file.commentWarnings ++ (Tree.forestPreorder sites).flatMap Site.warnings }

end DocGraph
