import SqlLayout.Diagnostic.Basic

/-!
# Failures of Reading

A source is refused for one of three reasons: it holds characters no token is made of, a token stands
where another was expected, or it nests too deeply. A failure points at the token it is about, or at the
empty span at the end of the source.
-/

namespace SqlLayout

/-- Why a source is refused. -/
inductive Cause where
  | unrecognized (text : String)
  | expected (what : String) (found : Option String)
  | tooDeep (limit : Nat)
deriving DecidableEq, Inhabited

namespace Cause

def quote (text : String) : String :=
  "\x60" ++ text ++ "\x60"

def message : Cause → String
  | unrecognized text => "unrecognized input " ++ quote text
  | expected what (some text) => "expected " ++ what ++ ", found " ++ quote text
  | expected what none => "expected " ++ what ++ ", found end of input"
  | tooDeep limit => "nesting exceeds " ++ toString limit ++ " levels"

/-- The family a cause belongs to. -/
def family : Cause → String
  | unrecognized _ => "lexical error"
  | expected _ _ => "syntax error"
  | tooDeep _ => "recursion limit exceeded"

end Cause

/-- A refused source: where and why. -/
structure Failure where
  span : Span
  cause : Cause
deriving DecidableEq, Inhabited

namespace Failure

def diagnostic (failure : Failure) : Diagnostic :=
  { span := failure.span, message := failure.cause.message }

def describe (failure : Failure) : String :=
  failure.cause.family ++ " " ++ failure.diagnostic.describe

end Failure

end SqlLayout
