import SqlLayout.Grammar.Window

/-!
# Primary Expressions

What stands on its own: constants, arrays, aggregates with modifiers, forms with a syntax of their own,
calls and names. The alternatives are tried in a fixed order, and the first that matches wins.
-/

namespace SqlLayout.Grammar

open Rule

/-- The names that make a call of the string literal after them. -/
def typedLiterals : List String :=
  ["DATE", "DATETIME", "TIME", "TIMESTAMP"]

namespace Nested

variable (nested : Nested)

/-- The type and the bracket that open an array literal. The outer option says whether one starts. -/
def arrayHead? : Rule (Option (Option SqlType)) := do
  if ← skipAll ["ARRAY", "<"] then
    let type ← nested.type
    discard <| expect ">"
    discard <| expect "["
    return some (some type)
  if ← skipAll ["ARRAY", "["] then return some none
  if ← skip "[" then return some none
  return none

def array? : Rule (Option Expr) := do
  match ← nested.arrayHead? with
  | none => return none
  | some type =>
    if ← skip "]" then return some (.array type [])
    let items ← commaSeparated nested.expr
    discard <| expect "]"
    return some (.array type items)

/-- The subscript `[OFFSET(n)]` after an array aggregate. -/
def aggOffset? : Rule (Option Expr) := do
  if ← skipAll ["[", "OFFSET"] then
    discard <| expect "("
    let position ← nested.closedExpr
    discard <| expect "]"
    return some position
  else return none

def arrayAgg? : Rule (Option Expr) := do
  if ← skipAll ["ARRAY_AGG", "("] then
    let distinct ← skip "DISTINCT"
    let operand ← nested.expr
    let nulls ← nullHandling?
    let order ← nested.rowOrder?
    let window ← nested.window?
    discard <| expect ")"
    return some (.arrayAgg distinct operand nulls order window (← nested.aggOffset?))
  else return none

def stringFunction? : Rule (Option StringFunction) := do
  if ← skipAll ["STRING_AGG", "("] then return some .stringAgg
  if ← skipAll ["SPLIT", "("] then return some .split
  return none

/-- The subscript after an aggregate over strings. -/
def accessor? : Rule (Option Accessor) := do
  if ← skip "[" then
    let accessor ←
      if ← ask (·.seesAt 1 "(") then
        let name ← segment?
        discard <| expect "("
        pure { name, position := ← nested.closedExpr : Accessor }
      else pure { name := none, position := ← nested.expr : Accessor }
    discard <| expect "]"
    return some accessor
  else return none

def stringAgg? : Rule (Option Expr) := do
  match ← stringFunction? with
  | none => return none
  | some function =>
    let distinct ← skip "DISTINCT"
    let operand ← nested.expr
    let delimiter ← if ← skip "," then some <$> constant else pure none
    let nulls ← nullHandling?
    let order ← nested.rowOrder?
    let window ← nested.window?
    discard <| expect ")"
    let accessor ← nested.accessor?
    return some (.stringAgg function distinct operand delimiter nulls order window accessor)

def arrayQuery? : Rule (Option Expr) := do
  if ← skipAll ["ARRAY", "("] then return some (.arrayQuery (← nested.closedQuery))
  return none

/-- A whole query between parentheses if there is one, and an expression otherwise. -/
def parenExpr : Rule Expr := do
  match ← nested.parenQuery? with
  | some query => return .subquery query
  | none =>
    discard <| expect "("
    return .paren (← nested.closedExpr)

def castExpr (safe : Bool) : Rule Expr := do
  discard <| expect "("
  let operand ← nested.expr
  discard <| expect "AS"
  let type ← nested.type
  discard <| expect ")"
  return .cast safe operand type

def extractExpr : Rule Expr := do
  discard <| expect "("
  let part ← nested.expr
  discard <| expect "FROM"
  let operand ← nested.expr
  let zone ← if ← skipAll ["AT", "TIME", "ZONE"] then some <$> nested.expr else pure none
  discard <| expect ")"
  return .extract part operand zone

def branch? : Rule (Option Branch) := do
  if ← skip "WHEN" then
    let condition ← nested.expr
    discard <| expect "THEN"
    return some { condition, result := ← nested.expr }
  else return none

def caseExpr : Rule Expr := do
  let operand ← if ← sees "WHEN" then pure none else some <$> nested.expr
  let branches ← many nested.branch?
  if branches.isEmpty then return ← expected "\x60WHEN\x60"
  let otherwise ← nested.exprAfter? "ELSE"
  discard <| expect "END"
  return .case operand branches otherwise

/-- The fields of a structure constructor; an empty list of them is a token of its own. -/
def structFields? : Rule (Option (List Field)) := do
  if ← skip "<>" then return some []
  if ← skip "<" then return some (← nested.fields)
  return none

def structExpr : Rule Expr := do
  let fields ← nested.structFields?
  let items ← parenthesized do
    return { expr := ← nested.expr, aliasName := ← aliasName? : StructItem }
  return .struct fields items

/-- The forms with a syntax of their own, and parentheses. The value of an interval is read by
`unary?`, at the same level. -/
def special? (unary? : Rule (Option Expr)) : Rule (Option Expr) := do
  if ← sees "(" then return some (← nested.parenExpr)
  if ← skip "CASE" then return some (← nested.caseExpr)
  if ← skip "STRUCT" then return some (← nested.structExpr)
  if ← skip "INTERVAL" then
    let count ← require "an expression" unary?
    return some (.interval count (← identifier))
  if ← ask (·.seesAt 1 "(") then
    if ← skip "CAST" then return some (← nested.castExpr false)
    if ← skip "SAFE_CAST" then return some (← nested.castExpr true)
    if ← skip "EXTRACT" then return some (← nested.extractExpr)
    if ← skip "EXISTS" then
      discard <| expect "("
      return some (.existsQuery (← nested.closedQuery))
  return none

/-- A name; a reserved word is one where it names a function. -/
def nameExpr? : Rule (Option Expr) := fun cursor =>
  match cursor.token? 0 with
  | some token =>
    if token.kind = .word && Keyword.isCallable token.text && cursor.seesAt 1 "(" then
      .ok (some (.name { first := { raw := token.text } })) (cursor.advance 1)
    else (Option.map Expr.name <$> qualifiedName?) cursor
  | none => .ok none cursor

/-- An argument of a call; a star is one too. -/
def argument : Rule Expr := do
  if ← skip "*" then return .star else nested.expr

/-- The rest of a call, after its opening parenthesis. -/
def callRest (function : QualifiedName) : Rule Expr := do
  let distinct ← skip "DISTINCT"
  if !distinct then
    if ← skip ")" then return .call function false [] none
  let args ← commaSeparated nested.argument
  let nulls ← nullHandling?
  discard <| expect ")"
  return .call function distinct args nulls

/-- What a name is the start of: a call if a parenthesis follows, a call with one argument if it is the
name of a typed literal, or a name and nothing more. -/
def afterName (name : QualifiedName) : Rule Expr := do
  if ← skip "(" then return ← nested.callRest name
  let isTyped := name.isSingle && typedLiterals.any (Text.sameWord name.first.raw)
  if isTyped && (← kind?) = some .string then
    return .call name false [.constant (← constant)] none
  return .name name

/-- A primary expression, perhaps with a window. -/
def primary? (unary? : Rule (Option Expr)) : Rule (Option Expr) := do
  let found ← firstOf
    [Option.map Expr.constant <$> constant?, nested.array?, nested.arrayAgg?, nested.stringAgg?,
      nested.arrayQuery?, nested.special? unary?, nameExpr?]
  match found with
  | none => return none
  | some found =>
    let expr ←
      match found with
      | .name name => nested.afterName name
      | other => pure other
    match ← nested.window? with
    | some window => return some (.over expr window)
    | none => return some expr

end Nested

end SqlLayout.Grammar
