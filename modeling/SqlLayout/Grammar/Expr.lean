import SqlLayout.Grammar.Primary

/-!
# Operators

Operators bind by precedence, from `OR`, which binds least, to the signs and the subscripts, which bind
most. Operators of one level associate to the left. The tail of an operand is read as data first and
attached to the operand afterwards.
-/

namespace SqlLayout.Grammar

open Rule

/-- What can follow a base: a subscript or the name of a field. -/
inductive Postfix where
  | index (kind : Option IndexKind) (position : Expr)
  | field (name : Identifier)

def Postfix.attach (base : Expr) : Postfix → Expr
  | index kind position => .index base kind position
  | field name => .field base name

/-- What can follow an operand on the level of comparisons. -/
inductive Comparison where
  | binary (op : BinaryOp) (right : Expr)
  | isValue (negated : Bool) (value : IsValue)
  | member (negated : Bool) (target : MemberTarget)
  | between (negated : Bool) (low high : Expr)

def Comparison.attach (left : Expr) : Comparison → Expr
  | binary op right => .binary op left right
  | isValue negated value => .isValue left negated value
  | member negated target => .member left negated target
  | between negated low high => .between left negated low high

/-- An operand of a level with the operators of that level and the operands after them. -/
def leftAssoc (operand? : Rule (Option Expr)) (op? : Rule (Option BinaryOp)) :
    Rule (Option Expr) := do
  match ← operand? with
  | none => return none
  | some first =>
    let rest ← many do
      match ← op? with
      | some op => return some (op, ← require "an expression" operand?)
      | none => return none
    return some (rest.foldl (fun left (op, right) => .binary op left right) first)

/-- The first of some operators whose spelling is next. -/
def opOf? : List (String × BinaryOp) → Rule (Option BinaryOp)
  | [] => return none
  | (pattern, op) :: ops => do
    if ← skip pattern then return some op else opOf? ops

def shiftOp? : Rule (Option BinaryOp) := do
  if ← skip "<<" then return some .shiftLeft
  if (← takeJoined? [">", ">"]).isSome then return some .shiftRight
  return none

def sign? : Rule (Option UnaryOp) := do
  if ← skip "-" then return some .minus
  if ← skip "+" then return some .plus
  if ← skip "~" then return some .bitNot
  return none

def isTest : Rule IsValue := do
  if ← skip "NULL" then return .null
  if ← skip "TRUE" then return .true
  if ← skip "FALSE" then return .false
  expected "\x60NULL\x60, \x60TRUE\x60 or \x60FALSE\x60"

/-- The way of counting that a subscript names before a parenthesis. -/
def indexKind? : Rule (Option IndexKind) := fun cursor =>
  match cursor.token? 0 with
  | some token =>
    if token.kind = .word && cursor.seesAt 1 "(" then
      match IndexKind.ofWord? token.text with
      | some kind => .ok (some kind) (cursor.advance 1)
      | none => .ok none cursor
    else .ok none cursor
  | none => .ok none cursor

namespace Nested

variable (nested : Nested)

/-- The rest of a subscript, after its opening bracket. -/
def subscript : Rule Postfix := do
  match ← indexKind? with
  | some kind =>
    discard <| expect "("
    let position ← nested.closedExpr
    discard <| expect "]"
    return .index (some kind) position
  | none =>
    let position ← nested.expr
    discard <| expect "]"
    return .index none position

def postfix? : Rule (Option Postfix) := do
  if ← skip "[" then return some (← nested.subscript)
  return (← dotSegment?).map Postfix.field

/-- A primary with its subscripts and fields. -/
def operand? (unary? : Rule (Option Expr)) : Rule (Option Expr) := do
  match ← nested.primary? unary? with
  | none => return none
  | some base => return some ((← many nested.postfix?).foldl Postfix.attach base)

/-- A signed operand. The operand of a sign is one level deeper, but the value of an interval is not;
since an interval takes a token before it reads its value, the tokens left bound the steps. -/
def unaryUpTo? : Nat → Rule (Option Expr)
  | 0 => return none
  | steps + 1 => do
    match ← sign? with
    | some op => return some (.unary op (← nested.signOperand))
    | none => nested.operand? (unaryUpTo? steps)

def unary? : Rule (Option Expr) := fun cursor =>
  nested.unaryUpTo? (cursor.remaining + 1) cursor

def product? : Rule (Option Expr) :=
  leftAssoc nested.unary? (opOf? [("*", .multiply), ("/", .divide), ("||", .concat)])

def sum? : Rule (Option Expr) :=
  leftAssoc nested.product? (opOf? [("+", .plus), ("-", .minus)])

def shift? : Rule (Option Expr) :=
  leftAssoc nested.sum? shiftOp?

def bitAnd? : Rule (Option Expr) :=
  leftAssoc nested.shift? (opOf? [("&", .bitAnd)])

def bitXor? : Rule (Option Expr) :=
  leftAssoc nested.bitAnd? (opOf? [("^", .bitXor)])

def bitOr? : Rule (Option Expr) :=
  leftAssoc nested.bitXor? (opOf? [("|", .bitOr)])

/-- What follows `IN`: an array, a query or a list. -/
def memberTarget : Rule MemberTarget := do
  if ← skipAll ["UNNEST", "("] then return .unnest (← nested.closedExpr)
  let isQuery ← ask fun cursor =>
    cursor.sees "(" && (cursor.seesAt 1 "SELECT" || cursor.seesAt 1 "WITH")
  discard <| expect "("
  if isQuery then return .query (← nested.closedQuery)
  let items ← commaSeparated nested.expr
  discard <| expect ")"
  return .list items

/-- A negation that belongs to the word after it. -/
def negated : Rule Bool := do
  let isNegated ← ask fun cursor =>
    cursor.sees "NOT" && ["LIKE", "IN", "BETWEEN"].any (cursor.seesAt 1)
  if isNegated then discard bump
  return isNegated

def comparison? : Rule (Option Comparison) := do
  let operand := require "an expression" nested.bitOr?
  match ← opOf? [("=", .eq), ("!=", .notEq), ("<>", .ltGt), ("<=", .ltEq), (">=", .gtEq), ("<", .lt),
      (">", .gt)] with
  | some op => return some (.binary op (← operand))
  | none =>
    if ← skip "IS" then return some (.isValue (← skip "NOT") (← isTest))
    let negated ← negated
    if ← skip "LIKE" then return some (.binary (if negated then .notLike else .like) (← operand))
    if ← skip "IN" then return some (.member negated (← nested.memberTarget))
    if ← skip "BETWEEN" then
      let low ← operand
      discard <| expect "AND"
      return some (.between negated low (← operand))
    return none

def compared? : Rule (Option Expr) := do
  match ← nested.bitOr? with
  | none => return none
  | some left => return some ((← many nested.comparison?).foldl Comparison.attach left)

def not? : Rule (Option Expr) := do
  if ← skip "NOT" then return some (.unary .not (← nested.notOperand))
  nested.compared?

def and? : Rule (Option Expr) :=
  leftAssoc nested.not? (opOf? [("AND", .and)])

def or? : Rule (Option Expr) :=
  leftAssoc nested.and? (opOf? [("OR", .or)])

end Nested

end SqlLayout.Grammar
