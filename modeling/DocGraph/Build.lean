import DocGraph.NormalizedFile
import DocGraph.Graph.Basic
import DocGraph.Registry.Resolution

/-!
# Building a graph from source files

Files are processed in the order given, or sorted by path when that is configured; the order decides
which of two declarations of one path is the later one. Each file is normalized on its own. Paths,
visibility, lending and supertypes are then settled once for all files together.

The only faults of a build are two files of one path, two declarations that get the same path at the
same place of the source order, and members that are lent in a circle. Everything else that is odd
about a source ends in a warning.
-/

namespace DocGraph

/-- A graph with every warning that arose on the way, in order. -/
structure BuildOutput where
  graph : Graph
  diagnostics : List Diagnostic

namespace Build

/-- The files in processing order. Files with one path keep the order given. The sort is stable. -/
def ordered (files : List SourceFile) (config : Config) : List SourceFile :=
  if config.sortFiles then
    files.mergeSort fun left right => (compare left.path right.path).isLE
  else files

/-- The first item of a list that occurred before. It is found where it is met for the second
time. -/
def firstRepeated? (seen : List String) : List String → Option String
  | [] => none
  | item :: rest =>
    if seen.contains item then some item else firstRepeated? (item :: seen) rest

/-- Normalize files, each under its index. The index becomes part of every place in the source
order. -/
def normalized (files : List SourceFile) (config : Config) : List NormalizedFile :=
  files.zipIdx.map fun (file, index) => file.normalize (UInt32.ofNat index) config

/-- Settle the drafts of all files and make the graph of what is live. Warnings of the files come
first, in the order of the files, and then those of the resolution. -/
def assemble (parts : List NormalizedFile) (config : Config) : Except BuildError BuildOutput :=
  match Registry.assign (parts.map NormalizedFile.drafts) with
  | .error error => .error error
  | .ok registry =>
    match registry.resolve with
    | ⟨_, _, some error⟩ => .error error
    | ⟨resolved, warnings, none⟩ =>
      .ok
        { graph := .ofEntities resolved.live resolved.superseded
            (ModuleInfo.mergeAll config.rootName (parts.filterMap NormalizedFile.info))
            config.memberOrder
          diagnostics := parts.flatMap NormalizedFile.diagnostics ++ warnings }

/-- Build the graph of some files. Whether paths repeat is checked before any file is looked at. -/
def run (files : List SourceFile) (config : Config) : Except BuildError BuildOutput :=
  let inOrder := ordered files config
  match firstRepeated? [] (inOrder.map SourceFile.path) with
  | some path => .error (.duplicateSource path)
  | none => assemble (normalized inOrder config) config

end Build

end DocGraph
