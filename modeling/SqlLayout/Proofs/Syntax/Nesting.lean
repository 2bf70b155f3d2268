import SqlLayout.Syntax.Statement

/-!
# Nesting

How deep a tree nests: along the deepest path from its root, the queries, the signs and negations, the
types with something inside them, and the expressions that do not stand as an operand. What an interval
adds is left open, and so is what a name or a literal adds that is no operand.
-/

namespace SqlLayout

mutual

/-- A structure without fields holds nothing, so it adds nothing. -/
def SqlType.nesting : SqlType → Nat
  | .named _ _ | .any => 0
  | .array element => element.nesting + 1
  | .struct fields => if fields.isEmpty then 0 else fieldsNesting fields + 1

def fieldsNesting : List Field → Nat
  | [] => 0
  | ⟨_, type⟩ :: fields => max type.nesting (fieldsNesting fields)

end

structure Weights where
  /-- What a name or a literal adds where it is no operand. -/
  leaf : Nat := 0
  interval : Nat := 0

/-- How deep an expression nests where it is no operand, given how deep it does as one. -/
def Expr.whole (weights : Weights) : Expr → Nat → Nat
  | .star, _ => 0
  | .constant _, _ | .name _, _ => weights.leaf
  | _, inside => inside + 1

mutual

/-- How deep an expression nests as an operand. -/
def Expr.nesting (weights : Weights) : Expr → Nat
  | .constant _ | .name _ | .star => 0
  | .call _ _ args _ => exprsNesting weights args
  | .array (some type) items => max type.nesting (exprsNesting weights items)
  | .array none items => exprsNesting weights items
  | .arrayQuery query | .subquery query | .existsQuery query => query.nesting weights + 1
  | .arrayAgg _ operand _ order window offset =>
    max (operand.whole weights (operand.nesting weights))
      (max (rowOrderNesting? weights order) (max (windowNesting? weights window)
        (exprNesting? weights offset)))
  | .stringAgg _ _ operand _ _ order window accessor =>
    max (operand.whole weights (operand.nesting weights))
      (max (rowOrderNesting? weights order) (max (windowNesting? weights window)
        (accessorNesting? weights accessor)))
  | .over operand window => max (operand.nesting weights) (window.nesting weights)
  | .binary _ left right => max (left.nesting weights) (right.nesting weights)
  | .unary _ operand => operand.nesting weights + 1
  | .paren inner => inner.whole weights (inner.nesting weights)
  | .struct (some fields) items => max (fieldsNesting fields) (structItemsNesting weights items)
  | .struct none items => structItemsNesting weights items
  | .cast _ operand type => max (operand.whole weights (operand.nesting weights)) type.nesting
  | .extract part operand zone =>
    max (part.whole weights (part.nesting weights))
      (max (operand.whole weights (operand.nesting weights)) (exprNesting? weights zone))
  | .case operand branches otherwise =>
    max (exprNesting? weights operand)
      (max (branchesNesting weights branches) (exprNesting? weights otherwise))
  | .interval count _ => count.nesting weights + weights.interval
  | .member operand _ target => max (operand.nesting weights) (target.nesting weights)
  | .between operand _ low high =>
    max (operand.nesting weights) (max (low.nesting weights) (high.nesting weights))
  | .isValue operand _ _ => operand.nesting weights
  | .index base _ position =>
    max (base.nesting weights) (position.whole weights (position.nesting weights))
  | .field base _ => base.nesting weights

def exprsNesting (weights : Weights) : List Expr → Nat
  | [] => 0
  | expr :: exprs => max (expr.whole weights (expr.nesting weights)) (exprsNesting weights exprs)

def exprNesting? (weights : Weights) : Option Expr → Nat
  | some expr => expr.whole weights (expr.nesting weights)
  | none => 0

def sortKeysNesting (weights : Weights) : List SortKey → Nat
  | [] => 0
  | ⟨expr, _, _⟩ :: keys => max (expr.whole weights (expr.nesting weights)) (sortKeysNesting weights keys)

def structItemsNesting (weights : Weights) : List StructItem → Nat
  | [] => 0
  | ⟨expr, _⟩ :: items => max (expr.whole weights (expr.nesting weights)) (structItemsNesting weights items)

def branchesNesting (weights : Weights) : List Branch → Nat
  | [] => 0
  | ⟨condition, result⟩ :: branches =>
    max (condition.whole weights (condition.nesting weights))
      (max (result.whole weights (result.nesting weights)) (branchesNesting weights branches))

def RowOrder.nesting (weights : Weights) : RowOrder → Nat
  | ⟨keys, limit, offset⟩ =>
    max (sortKeysNesting weights keys) (max (exprNesting? weights limit) (exprNesting? weights offset))

def rowOrderNesting? (weights : Weights) : Option RowOrder → Nat
  | some order => order.nesting weights
  | none => 0

def Window.nesting (weights : Weights) : Window → Nat
  | ⟨partition, order, _⟩ => max (exprsNesting weights partition) (sortKeysNesting weights order)

def windowNesting? (weights : Weights) : Option Window → Nat
  | some window => window.nesting weights
  | none => 0

def accessorNesting? (weights : Weights) : Option Accessor → Nat
  | some ⟨_, position⟩ => position.whole weights (position.nesting weights)
  | none => 0

def MemberTarget.nesting (weights : Weights) : MemberTarget → Nat
  | .list items => exprsNesting weights items
  | .query query => query.nesting weights + 1
  | .unnest array => array.whole weights (array.nesting weights)

/-- How deep what is inside a query nests. -/
def Query.nesting (weights : Weights) : Query → Nat
  | ⟨common, body, order⟩ =>
    max (commonTablesNesting? weights common)
      (max (body.nesting weights) (rowOrderNesting? weights order))

def commonTablesNesting? (weights : Weights) : Option CommonTables → Nat
  | some ⟨_, tables⟩ => commonTablesNesting weights tables
  | none => 0

def commonTablesNesting (weights : Weights) : List CommonTable → Nat
  | [] => 0
  | ⟨_, query⟩ :: tables => max (query.nesting weights + 1) (commonTablesNesting weights tables)

def SetExpr.nesting (weights : Weights) : SetExpr → Nat
  | .select select => select.nesting weights
  | .paren query => query.nesting weights + 1
  | .combine _ _ left right => max (left.nesting weights) (right.nesting weights)

def Select.nesting (weights : Weights) : Select → Nat
  | ⟨_, _, items, source, filter, groupBy, having, qualify⟩ =>
    max (selectItemsNesting weights items)
      (max (tableExprNesting? weights source)
        (max (exprNesting? weights filter)
          (max (exprsNesting weights groupBy)
            (max (exprNesting? weights having) (exprNesting? weights qualify)))))

def selectItemsNesting (weights : Weights) : List SelectItem → Nat
  | [] => 0
  | .wildcard _ _ replace :: items =>
    max (replacementsNesting weights replace) (selectItemsNesting weights items)
  | .expr expr _ :: items =>
    max (expr.whole weights (expr.nesting weights)) (selectItemsNesting weights items)

def replacementsNesting (weights : Weights) : List Replacement → Nat
  | [] => 0
  | ⟨expr, _⟩ :: items => max (expr.whole weights (expr.nesting weights)) (replacementsNesting weights items)

def TableExpr.nesting (weights : Weights) : TableExpr → Nat
  | .table _ _ => 0
  | .subquery query _ => query.nesting weights + 1
  | .unnest array _ _ => array.whole weights (array.nesting weights)
  | .join left _ right condition =>
    max (left.nesting weights) (max (right.nesting weights) (joinConditionNesting? weights condition))

def tableExprNesting? (weights : Weights) : Option TableExpr → Nat
  | some table => table.nesting weights
  | none => 0

def joinConditionNesting? (weights : Weights) : Option JoinCondition → Nat
  | some (.condition condition) => condition.whole weights (condition.nesting weights)
  | some (.columns _) | none => 0

end

section Statements

variable (weights : Weights)

def declarationsNesting (declarations : List Declaration) : Nat :=
  declarations.foldr (fun declaration deepest => max declaration.type.nesting deepest) 0

def optionsNesting (options : List OptionItem) : Nat :=
  exprsNesting weights (options.map OptionItem.value)

/-- A query that stands on its own. -/
def queryNesting? (query : Option Query) : Nat :=
  match query with
  | some query => query.nesting weights + 1
  | none => 0

def FunctionBody.nesting : FunctionBody → Nat
  | .sql body => body.whole weights (body.nesting weights)
  | .foreign _ _ options => optionsNesting weights options

def Action.nesting : Action → Nat
  | .query body => body.nesting weights + 1
  | .createFunction function =>
    max (declarationsNesting function.params)
      (max ((function.returns.map SqlType.nesting).getD 0) (FunctionBody.nesting weights function.body))
  | .createTable table =>
    max (declarationsNesting table.columns)
      (max (optionsNesting weights table.options) (queryNesting? weights table.query))
  | .createView view => max (optionsNesting weights view.options) (view.query.nesting weights + 1)
  | .insert insertion =>
    match insertion.source with
    | .query body => body.nesting weights + 1
    | .values rows => rows.foldr (fun row deepest => max (exprsNesting weights row) deepest) 0

def Script.nesting (script : Script) : Nat :=
  script.statements.foldr (fun statement deepest => max (Action.nesting weights statement.action) deepest) 0

end Statements

end SqlLayout
