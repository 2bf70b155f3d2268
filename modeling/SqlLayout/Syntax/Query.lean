import SqlLayout.Syntax.Operator
import SqlLayout.Syntax.Type

/-!
# Expressions and Queries

Expressions hold queries and queries hold expressions, so they are defined together. A tree says nothing
about where its pieces stood in a source: trees are equal exactly when they describe the same text up to
its layout.
-/

namespace SqlLayout

mutual

inductive Expr where
  | constant (constant : Constant)
  | name (name : QualifiedName)
  /-- The star of a call such as `COUNT(*)`. -/
  | star
  | call (function : QualifiedName) (distinct : Bool) (args : List Expr)
      (nulls : Option NullHandling)
  | array (type : Option SqlType) (items : List Expr)
  | arrayQuery (query : Query)
  | arrayAgg (distinct : Bool) (operand : Expr) (nulls : Option NullHandling)
      (order : Option RowOrder) (window : Option Window) (offset : Option Expr)
  | stringAgg (function : StringFunction) (distinct : Bool) (operand : Expr)
      (delimiter : Option Constant) (nulls : Option NullHandling) (order : Option RowOrder)
      (window : Option Window) (accessor : Option Accessor)
  | over (operand : Expr) (window : Window)
  | binary (op : BinaryOp) (left right : Expr)
  | unary (op : UnaryOp) (operand : Expr)
  | paren (inner : Expr)
  | subquery (query : Query)
  | existsQuery (query : Query)
  | struct (fields : Option (List Field)) (items : List StructItem)
  | cast (safe : Bool) (operand : Expr) (type : SqlType)
  | extract (part operand : Expr) (zone : Option Expr)
  | case (operand : Option Expr) (branches : List Branch) (otherwise : Option Expr)
  | interval (count : Expr) (unit : Identifier)
  | member (operand : Expr) (negated : Bool) (target : MemberTarget)
  | between (operand : Expr) (negated : Bool) (low high : Expr)
  | isValue (operand : Expr) (negated : Bool) (value : IsValue)
  | index (base : Expr) (kind : Option IndexKind) (position : Expr)
  /-- Access to a field of something that is not a bare name. -/
  | field (base : Expr) (name : Identifier)

structure SortKey where
  expr : Expr
  direction : Option Direction
  nulls : Option NullsOrder

/-- `ORDER BY`, `LIMIT` and `OFFSET`. -/
structure RowOrder where
  keys : List SortKey
  limit : Option Expr
  offset : Option Expr

/-- The window of an analytic function, after `OVER`. -/
structure Window where
  partition : List Expr
  order : List SortKey
  frame : Option Frame

/-- A subscript after an aggregate over strings: `[NAME(n)]` or `[n]`. -/
structure Accessor where
  name : Option Identifier
  position : Expr

structure StructItem where
  expr : Expr
  aliasName : Option Identifier

/-- `WHEN condition THEN result`. -/
structure Branch where
  condition : Expr
  result : Expr

/-- What follows `IN`. -/
inductive MemberTarget where
  | list (items : List Expr)
  | query (query : Query)
  | unnest (array : Expr)

structure Query where
  common : Option CommonTables
  body : SetExpr
  order : Option RowOrder

/-- The tables a query defines for itself, after `WITH`. -/
structure CommonTables where
  isRecursive : Bool
  tables : List CommonTable

/-- `name AS (query)`. -/
structure CommonTable where
  name : Identifier
  query : Query

inductive SetExpr where
  | select (select : Select)
  | paren (query : Query)
  | combine (op : SetOperator) (quantifier : Option SetQuantifier) (left right : SetExpr)

structure Select where
  distinct : Bool
  shape : Option SelectAs
  items : List SelectItem
  source : Option TableExpr
  filter : Option Expr
  groupBy : List Expr
  having : Option Expr
  qualify : Option Expr

inductive SelectItem where
  | wildcard (qualifier : Option QualifiedName) (except : List Identifier)
      (replace : List Replacement)
  | expr (expr : Expr) (aliasName : Option Identifier)

/-- `expr AS name` inside `REPLACE (…)`. -/
structure Replacement where
  expr : Expr
  aliasName : Identifier

inductive TableExpr where
  | table (name : QualifiedName) (aliasName : Option Identifier)
  | subquery (query : Query) (aliasName : Option Identifier)
  /-- The outer option of `offset` says whether `WITH OFFSET` is there, the inner one names it. -/
  | unnest (array : Expr) (aliasName : Option Identifier) (offset : Option (Option Identifier))
  | join (left : TableExpr) (kind : JoinKind) (right : TableExpr) (condition : Option JoinCondition)

inductive JoinCondition where
  | condition (condition : Expr)
  | columns (columns : List Identifier)

end

instance : Inhabited Expr := ⟨.star⟩

end SqlLayout
