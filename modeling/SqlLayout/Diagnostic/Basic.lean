import SqlLayout.Text.Position

/-!
# Diagnostics

A diagnostic says something about a part of a source.
-/

namespace SqlLayout

/-- A message about a part of a source. -/
structure Diagnostic where
  span : Span
  message : String
deriving DecidableEq, Inhabited

namespace Diagnostic

/-- A diagnostic about the empty span at an offset. -/
def atOffset (offset : Nat) (message : String) : Diagnostic :=
  { span := { start := offset, stop := offset }, message }

/-- The span and the message on one line. -/
def describe (diagnostic : Diagnostic) : String :=
  "at " ++ toString diagnostic.span.start ++ ".." ++ toString diagnostic.span.stop ++ ": "
    ++ diagnostic.message

/-- Line and column where a diagnostic starts. -/
def position (diagnostic : Diagnostic) (source : String) : Nat × Nat :=
  Text.position source diagnostic.span.start

end Diagnostic

end SqlLayout
