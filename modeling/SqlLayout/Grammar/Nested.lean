import SqlLayout.Grammar.Type

/-!
# Nested Rules

Expressions and queries contain each other. Each of their rules is written in terms of the rules it may
nest, so that none of them is recursive; the rules for a number of levels are then built from those for
one level less.
-/

namespace SqlLayout.Grammar

open Rule

/-- What a query can start with. -/
def queryStarts : List String :=
  ["SELECT", "WITH", "("]

/-- The rules that a rule may use inside itself. All but the last two read one level deeper. -/
structure Nested where
  expr? : Rule (Option Expr)
  notOperand : Rule Expr
  signOperand : Rule Expr
  query? : Rule (Option Query)
  type? : Rule (Option SqlType)
  fields : Rule (List Field)

namespace Nested

variable (nested : Nested)

def expr : Rule Expr :=
  require "an expression" nested.expr?

def type : Rule SqlType :=
  require "a type" nested.type?

/-- A query, tried only where one can start. -/
def queryHere? : Rule (Option Query) := do
  if ← ask (·.seesAny queryStarts) then nested.query? else return none

def query : Rule Query :=
  require "a query" nested.queryHere?

/-- A query between parentheses, from the opening one on. -/
def enclosedQuery? : Rule (Option Query) := do
  discard bump
  match ← nested.queryHere? with
  | some query => return if ← skip ")" then some query else none
  | none => return none

/-- A query between parentheses, run once at each position: set operands, subqueries and derived tables
all start this way. -/
def parenQuery? : Rule (Option Query) := do
  if ← sees "(" then once nested.enclosedQuery? else return none

/-- The query of `name(query)`, after the opening parenthesis. -/
def closedQuery : Rule Query := do
  let query ← nested.query
  discard <| expect ")"
  return query

/-- An expression after an opening parenthesis. -/
def closedExpr : Rule Expr := do
  let expr ← nested.expr
  discard <| expect ")"
  return expr

/-- An expression after a keyword, if the keyword is there. -/
def exprAfter? (keyword : String) : Rule (Option Expr) := do
  if ← skip keyword then return some (← nested.expr) else return none

end Nested

end SqlLayout.Grammar
