import SqlLayout.Grammar.Statement

/-!
# Pieces of Rules

What a rule does after its first token often needs a statement of its own. The pieces of rules that more
than one property is about have names here; each of them is what the rule does there, by definition.
-/

namespace SqlLayout

open Rule

/-- An operator and the operand after it. -/
def operation? (operand? : Rule (Option Expr)) (op? : Rule (Option BinaryOp)) :
    Rule (Option (BinaryOp × Expr)) := do
  match ← op? with
  | some op => return some (op, ← require "an expression" operand?)
  | none => return none

namespace Grammar

/-- A literal that is a word. -/
def wordConstant? : Rule (Option Constant) := do
  match ← takeAny? ["TRUE", "FALSE"] with
  | some text => return some { kind := .boolean, text := Text.upper text }
  | none => if ← skip "NULL" then return some { kind := .null, text := "NULL" } else return none

theorem indexKind?_apply (cursor : Cursor) : indexKind? cursor =
    match cursor.token? 0 with
    | some token =>
      if token.kind = .word && cursor.seesAt 1 "(" then
        match IndexKind.ofWord? token.text with
        | some kind => .ok (some kind) (cursor.advance 1)
        | none => .ok none cursor
      else .ok none cursor
    | none => .ok none cursor :=
  rfl

/-- A table that is named. -/
def namedTable? : Rule (Option TableExpr) := do
  match ← qualifiedName? with
  | some name => return some (.table name (← aliasName?))
  | none => return none

/-- A star after a name and a dot. -/
def qualifiedStar? : Rule (Option (Option QualifiedName)) := do
  match ← qualifiedName? with
  | none => return none
  | some name => return if ← skipAll [".", "*"] then some (some name) else none

namespace Nested

theorem nameExpr?_apply (cursor : Cursor) : nameExpr? cursor =
    match cursor.token? 0 with
    | some token =>
      if token.kind = .word && Keyword.isCallable token.text && cursor.seesAt 1 "(" then
        .ok (some (.name { first := { raw := token.text } })) (cursor.advance 1)
      else (Option.map Expr.name <$> qualifiedName?) cursor
    | none => .ok none cursor :=
  rfl

variable (nested : Nested)

/-- An expression with the window after it, if there is one. -/
def windowed? (expr : Expr) : Rule (Option Expr) := do
  match ← nested.window? with
  | some window => return some (.over expr window)
  | none => return some expr

/-- The rest of a query in parentheses, after the opening one. -/
def queryInside? : Rule (Option Query) := do
  match ← nested.queryHere? with
  | some query => return if ← skip ")" then some query else none
  | none => return none

end Nested

end Grammar

end SqlLayout
