import SqlLayout.Grammar.Nested

/-!
# Sort Orders and Windows

The modifiers of aggregates and queries: what to do with nulls, sort keys, limits and windows.
-/

namespace SqlLayout.Grammar

open Rule

/-- The word before `NULLS`. -/
def nullWord? : Rule (Option NullHandling) := do
  if ← skip "IGNORE" then return some .ignore
  if ← skip "RESPECT" then return some .respect
  return none

def nullHandling? : Rule (Option NullHandling) := do
  match ← nullWord? with
  | none => return none
  | some nulls =>
    discard <| expect "NULLS"
    return some nulls

def direction? : Rule (Option Direction) := do
  if ← skip "ASC" then return some .asc
  if ← skip "DESC" then return some .desc
  return none

def nullsOrder? : Rule (Option NullsOrder) := do
  if ← skip "NULLS" then
    if ← skip "FIRST" then return some .first
    if ← skip "LAST" then return some .last
    expected "\x60FIRST\x60 or \x60LAST\x60"
  else return none

def precedingOrFollowing (preceding following : FrameBound) : Rule FrameBound := do
  if ← skip "PRECEDING" then return preceding
  if ← skip "FOLLOWING" then return following
  expected "\x60PRECEDING\x60 or \x60FOLLOWING\x60"

def frameBound : Rule FrameBound := do
  if ← skip "UNBOUNDED" then return ← precedingOrFollowing .unboundedPreceding .unboundedFollowing
  if ← skip "CURRENT" then
    discard <| expect "ROW"
    return .currentRow
  if (← kind?) = some .number then
    let count ← constant
    precedingOrFollowing (.preceding count) (.following count)
  else expected "a frame boundary"

def frameUnit? : Rule (Option FrameUnit) := do
  if ← skip "ROWS" then return some .rows
  if ← skip "RANGE" then return some .range
  return none

/-- A frame; once its unit is there, its bounds have to follow. -/
def frame? : Rule (Option Frame) := do
  match ← frameUnit? with
  | none => return none
  | some unit =>
    if ← skip "BETWEEN" then
      let start ← frameBound
      discard <| expect "AND"
      return some { unit, extent := .between start (← frameBound) }
    else return some { unit, extent := .single (← frameBound) }

namespace Nested

variable (nested : Nested)

def sortKey? : Rule (Option SortKey) := do
  match ← nested.expr? with
  | none => return none
  | some expr => return some { expr, direction := ← direction?, nulls := ← nullsOrder? }

/-- `ORDER BY` and its keys, or no keys. -/
def orderBy : Rule (List SortKey) := do
  if ← skip "ORDER" then
    discard <| expect "BY"
    commaSeparated (require "a sort key" nested.sortKey?)
  else return []

/-- `ORDER BY`, `LIMIT` and `OFFSET`; an offset needs a limit. -/
def rowOrder? : Rule (Option RowOrder) := do
  let keys ← nested.orderBy
  match ← nested.exprAfter? "LIMIT" with
  | some limit => return some { keys, limit := some limit, offset := ← nested.exprAfter? "OFFSET" }
  | none => return if keys.isEmpty then none else some { keys, limit := none, offset := none }

def partitionBy : Rule (List Expr) := do
  if ← skip "PARTITION" then
    discard <| expect "BY"
    commaSeparated nested.expr
  else return []

def window? : Rule (Option Window) := do
  if ← skip "OVER" then
    discard <| expect "("
    let partition ← nested.partitionBy
    let order ← nested.orderBy
    let frame ← frame?
    discard <| expect ")"
    return some { partition, order, frame }
  else return none

end Nested

end SqlLayout.Grammar
