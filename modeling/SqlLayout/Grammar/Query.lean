import SqlLayout.Grammar.Expr

/-!
# Queries

Common tables, set operations, selections and the tables they read. Set operations and joins associate
to the left; each is read as an operand and the list of what is joined to it.
-/

namespace SqlLayout.Grammar

open Rule

/-- What a set operation adds to its left operand. -/
structure SetTail where
  op : SetOperator
  quantifier : Option SetQuantifier
  right : SetExpr

def SetTail.attach (left : SetExpr) (tail : SetTail) : SetExpr :=
  .combine tail.op tail.quantifier left tail.right

/-- What a join adds to its left table. -/
structure JoinTail where
  kind : JoinKind
  right : TableExpr
  condition : Option JoinCondition

def JoinTail.attach (left : TableExpr) (tail : JoinTail) : TableExpr :=
  .join left tail.kind tail.right tail.condition

def setOperator? : Rule (Option SetOperator) := do
  if ← skip "UNION" then return some .union
  if ← skip "INTERSECT" then return some .intersect
  if ← skip "EXCEPT" then return some .except
  return none

def setQuantifier? : Rule (Option SetQuantifier) := do
  if ← skip "ALL" then return some .all
  if ← skip "DISTINCT" then return some .distinct
  return none

def selectAs? : Rule (Option SelectAs) := do
  if ← skipAll ["AS", "STRUCT"] then return some .struct
  if ← skipAll ["AS", "VALUE"] then return some .value
  return none

/-- The word before `JOIN`. -/
def joinWord? : Rule (Option JoinKind) := do
  if ← skip "CROSS" then return some .cross
  if ← skip "INNER" then return some .inner
  if ← skip "LEFT" then return some .left
  if ← skip "RIGHT" then return some .right
  if ← skip "FULL" then return some .full
  if ← sees "JOIN" then return some .inner
  return none

def joinKind? : Rule (Option JoinKind) := do
  if ← skip "," then return some .comma
  match ← joinWord? with
  | none => return none
  | some kind =>
    if kind = .left || kind = .right || kind = .full then discard <| skip "OUTER"
    discard <| expect "JOIN"
    return some kind

/-- The names after `EXCEPT` or the replacements after `REPLACE`, if the word and a parenthesis are
there. -/
def listAfter {α : Type} (keyword : String) (item : Rule α) : Rule (List α) := do
  if ← ask (·.seesAll [keyword, "("]) then
    discard bump
    parenthesized item
  else return []

namespace Nested

variable (nested : Nested)

def commonTable? : Rule (Option CommonTable) := do
  match ← identifier? with
  | none => return none
  | some name =>
    discard <| expect "AS"
    discard <| expect "("
    return some { name, query := ← nested.closedQuery }

def commonTables? : Rule (Option CommonTables) := do
  if ← skip "WITH" then
    let isRecursive ← skip "RECURSIVE"
    let tables ← commaSeparated (require "a common table expression" nested.commonTable?)
    return some { isRecursive, tables }
  else return none

def replacement : Rule Replacement := do
  let expr ← nested.expr
  discard <| expect "AS"
  return { expr, aliasName := ← identifier }

/-- The star of a select item, alone or after a name and a dot. The outer option says whether it is
there. -/
def star? : Rule (Option (Option QualifiedName)) := do
  if ← skip "*" then return some none
  match ← qualifiedName? with
  | none => return none
  | some name => return if ← skipAll [".", "*"] then some (some name) else none

def wildcard? : Rule (Option SelectItem) := do
  match ← star? with
  | none => return none
  | some qualifier =>
    let except ← listAfter "EXCEPT" identifier
    let replace ← listAfter "REPLACE" nested.replacement
    return some (.wildcard qualifier except replace)

def selectItem? : Rule (Option SelectItem) := do
  match ← attempt nested.wildcard? with
  | some item => return some item
  | none =>
    match ← nested.expr? with
    | none => return none
    | some expr => return some (.expr expr (← aliasName?))

def selectItem : Rule SelectItem :=
  require "a select item" nested.selectItem?

/-- A list of items; a comma may stand after the last one. -/
def selectItems : Rule (List SelectItem) := do
  let first ← nested.selectItem
  let rest ← many do
    if ← skip "," then
      if ← ask fun cursor => cursor.atEnd || cursor.seesAny [")", ";", "FROM"] then return none
      return some (← nested.selectItem)
    else return none
  return first :: rest

/-- `UNNEST(…)` after its opening parenthesis. -/
def unnested : Rule TableExpr := do
  let array ← nested.closedExpr
  let aliasName ← aliasName?
  let offset ← if ← skipAll ["WITH", "OFFSET"] then some <$> aliasName? else pure none
  return .unnest array aliasName offset

/-- A single table, before any join. -/
def tableFactor? : Rule (Option TableExpr) := do
  if ← skipAll ["UNNEST", "("] then return some (← nested.unnested)
  match ← nested.parenQuery? with
  | some query => return some (.subquery query (← aliasName?))
  | none =>
    match ← qualifiedName? with
    | some name => return some (.table name (← aliasName?))
    | none => return none

def joinCondition? : Rule (Option JoinCondition) := do
  if ← skip "ON" then return some (.condition (← nested.expr))
  if ← skip "USING" then return some (.columns (← parenthesized identifier))
  return none

def joinTail? : Rule (Option JoinTail) := do
  match ← joinKind? with
  | none => return none
  | some kind =>
    let right ← require "a table" nested.tableFactor?
    let condition ← if kind.takesCondition then nested.joinCondition? else pure none
    return some { kind, right, condition }

def tableExpr? : Rule (Option TableExpr) := do
  match ← nested.tableFactor? with
  | none => return none
  | some first => return some ((← many nested.joinTail?).foldl JoinTail.attach first)

def groupBy : Rule (List Expr) := do
  if ← skipAll ["GROUP", "BY"] then commaSeparated nested.expr else return []

def select? : Rule (Option Select) := do
  if ← skip "SELECT" then
    let distinct ← skip "DISTINCT"
    let shape ← selectAs?
    let items ← nested.selectItems
    let source ←
      if ← skip "FROM" then some <$> require "a table" nested.tableExpr? else pure none
    let filter ← nested.exprAfter? "WHERE"
    let groupBy ← nested.groupBy
    let having ← nested.exprAfter? "HAVING"
    let qualify ← nested.exprAfter? "QUALIFY"
    return some { distinct, shape, items, source, filter, groupBy, having, qualify }
  else return none

def setOperand? : Rule (Option SetExpr) := do
  match ← nested.select? with
  | some select => return some (.select select)
  | none => return (← nested.parenQuery?).map SetExpr.paren

def setTail? : Rule (Option SetTail) := do
  match ← setOperator? with
  | none => return none
  | some op =>
    let quantifier ← setQuantifier?
    let right ← require "\x60SELECT\x60 or \x60(\x60" nested.setOperand?
    return some { op, quantifier, right }

def setExpr? : Rule (Option SetExpr) := do
  match ← nested.setOperand? with
  | none => return none
  | some first => return some ((← many nested.setTail?).foldl SetTail.attach first)

/-- A query; once common tables are there, the body has to follow. -/
def queryBody? : Rule (Option Query) := do
  let common ← nested.commonTables?
  match ← nested.setExpr? with
  | some body => return some { common, body, order := ← nested.rowOrder? }
  | none => if common.isSome then expected "a query" else return none

end Nested

/-- The rules for a number of levels. With none left, everything that nests is too deep. -/
def nestedAt : Nat → Nested
  | 0 =>
    { expr? := tooDeep, notOperand := tooDeep, signOperand := tooDeep, query? := tooDeep,
      type? := typeAt? 0, fields := fieldsAt 0 }
  | levels + 1 =>
    let inner := nestedAt levels
    { expr? := descend inner.or?
      notOperand := descend (require "an expression" inner.not?)
      signOperand := descend (require "an expression" inner.unary?)
      query? := descend (attempt inner.queryBody?)
      type? := typeAt? (levels + 1)
      fields := fieldsAt (levels + 1) }

/-- Runs a rule with as many levels as the cursor has left. -/
def atDepth {α : Type} (rule : Nested → Rule α) : Rule α := fun cursor =>
  rule (nestedAt (Cursor.maxDepth - cursor.depth)) cursor

/-- An expression, from wherever the cursor stands. -/
def expr? : Rule (Option Expr) :=
  atDepth Nested.expr?

def query? : Rule (Option Query) :=
  atDepth Nested.queryHere?

def type? : Rule (Option SqlType) :=
  atDepth Nested.type?

end SqlLayout.Grammar
