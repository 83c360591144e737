import DocGraph.Entity.Json

/-!
# Warnings

A warning never stops a build. Warnings are collected in the order in which they arise.

The kind is for programs that filter warnings and the message is for readers. A location is missing
only where a warning is not about one place.
-/

namespace DocGraph

open Json

/-- The kinds of warnings. The first one arises while comments are parsed, the two on defaults while
a file is normalized, and the others while the registry is resolved. -/
inductive DiagnosticKind where
  /-- A tag that could not be read and was kept as text. -/
  | malformedTag
  /-- Different visibility marks on one entity. -/
  | visibilityConflict
  /-- The documented default differs from the default in code. -/
  | defaultMismatch
  /-- The two defaults have the same text but different types. -/
  | defaultTypeMismatch
  /-- Members are lent to an entity that does not exist. -/
  | unresolvedLendsTarget
deriving DecidableEq

/-- The word for a kind of warning. -/
def DiagnosticKind.word : DiagnosticKind → String
  | malformedTag => "malformed_tag"
  | visibilityConflict => "visibility_conflict"
  | defaultMismatch => "default_mismatch"
  | defaultTypeMismatch => "default_type_mismatch"
  | unresolvedLendsTarget => "unresolved_lends_target"

/-- A warning. The kind does not determine the message, which names what the warning is about. -/
structure Diagnostic where
  kind : DiagnosticKind
  message : String
  location : Option Location
deriving DecidableEq

/-- Write a warning. -/
def Diagnostic.toJson (warning : Diagnostic) : Json :=
  .object [("kind", .text warning.kind.word), ("message", .text warning.message),
    ("location", ofOption Location.toJson warning.location)]

end DocGraph
