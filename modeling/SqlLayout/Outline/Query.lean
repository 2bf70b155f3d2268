import SqlLayout.Outline.Basic
import SqlLayout.Syntax.Query

/-!
# Outlines of Expressions and Queries

A label names the kind of a piece of syntax and whatever of it is not a tree of its own.
-/

namespace SqlLayout

/-- A label with the flags that are set. -/
def flagged (label : String) (flags : List (Option String)) : String :=
  " ".intercalate (label :: flags.filterMap id)

def flag (isSet : Bool) (text : String) : Option String :=
  if isSet then some text else none

def withAlias (label : String) (aliasName : Option Identifier) : String :=
  flagged label [aliasName.map fun name => "AS " ++ name.raw]

def Constant.outline (constant : Constant) : Outline :=
  .leaf ("Constant " ++ constant.kind.label ++ " " ++ constant.text)

def identifierList (names : List Identifier) : String :=
  ", ".intercalate (names.map Identifier.raw)

def unnestLabel (aliasName : Option Identifier) (offset : Option (Option Identifier)) : String :=
  match offset with
  | some offset => withAlias (withAlias "Unnest" aliasName ++ " WITH OFFSET") offset
  | none => withAlias "Unnest" aliasName

def wildcardLabel (qualifier : Option QualifiedName) (except : List Identifier) : String :=
  flagged "Wildcard"
    [qualifier.map QualifiedName.dotted,
      flag (!except.isEmpty) ("EXCEPT " ++ identifierList except)]

/-- A label above some outlines, or nothing if there are none. -/
def Outline.group (label : String) (children : List Outline) : List Outline :=
  if children.isEmpty then [] else [.node label children]

mutual

def Expr.outline : Expr → Outline
  | .constant constant => constant.outline
  | .name name => .leaf ("Path " ++ name.dotted)
  | .star => .leaf "Star"
  | .call function distinct args nulls =>
    .node
      (flagged ("Function " ++ function.dotted)
        [flag distinct "DISTINCT", nulls.map NullHandling.text])
      (exprOutlines args)
  | .array type items =>
    .node (flagged "ArrayLiteral" [type.map SqlType.text]) (exprOutlines items)
  | .arrayQuery query => .above "ArraySelect" query.outline
  | .arrayAgg distinct operand nulls order window offset =>
    let order := match order with | some order => order.outlines | none => []
    let window := match window with | some window => [window.outline] | none => []
    let offset := match offset with | some offset => [.above "Offset" offset.outline] | none => []
    .node (flagged "ArrayAgg" [flag distinct "DISTINCT", nulls.map NullHandling.text])
      (operand.outline :: order ++ window ++ offset)
  | .stringAgg function distinct operand delimiter nulls order window accessor =>
    let delimiter := (delimiter.map fun text => Outline.leaf ("Delimiter " ++ text.text)).toList
    let order := match order with | some order => order.outlines | none => []
    let window := match window with | some window => [window.outline] | none => []
    let accessor :=
      match accessor with
      | some ⟨name, position⟩ =>
        [.above (flagged "Accessor" [name.map Identifier.raw]) position.outline]
      | none => []
    .node
      (flagged ("StringAgg " ++ function.text)
        [flag distinct "DISTINCT", nulls.map NullHandling.text])
      (operand.outline :: delimiter ++ order ++ window ++ accessor)
  | .over operand window => .node "WithAnalytic" [operand.outline, window.outline]
  | .binary op left right => .node ("Binary " ++ op.text) [left.outline, right.outline]
  | .unary op operand => .above ("Unary " ++ op.text) operand.outline
  | .paren inner => .above "Paren" inner.outline
  | .subquery query => .above "Subquery" query.outline
  | .existsQuery query => .above "Exists" query.outline
  | .struct fields items =>
    .node (flagged "Struct" [fields.map fun fields => "STRUCT<" ++ fieldsText fields ++ ">"])
      (structItemOutlines items)
  | .cast safe operand type =>
    .above ((if safe then "SafeCast " else "Cast ") ++ type.text) operand.outline
  | .extract part operand zone =>
    let zone := match zone with | some zone => [.above "TimeZone" zone.outline] | none => []
    .node "Extract" ([part.outline, operand.outline] ++ zone)
  | .case operand branches otherwise =>
    let operand :=
      match operand with
      | some operand => [.above "Operand" operand.outline]
      | none => []
    let otherwise :=
      match otherwise with
      | some otherwise => [.above "Else" otherwise.outline]
      | none => []
    .node "Case" (operand ++ branchOutlines branches ++ otherwise)
  | .interval count unit => .above ("Interval " ++ unit.raw) count.outline
  | .member operand negated target =>
    .node (flagged "In" [flag negated "NOT"]) [operand.outline, target.outline]
  | .between operand negated low high =>
    .node (flagged "Between" [flag negated "NOT"]) [operand.outline, low.outline, high.outline]
  | .isValue operand negated value =>
    .above (flagged "Is" [flag negated "NOT", some value.text]) operand.outline
  | .index base kind position =>
    .node (flagged "Index" [kind.map IndexKind.text]) [base.outline, position.outline]
  | .field base name => .above ("Field " ++ name.raw) base.outline

def exprOutlines : List Expr → List Outline
  | [] => []
  | expr :: exprs => expr.outline :: exprOutlines exprs

def sortKeyOutlines : List SortKey → List Outline
  | [] => []
  | ⟨expr, direction, nulls⟩ :: keys =>
    .above (flagged "OrderItem" [direction.map Direction.text, nulls.map NullsOrder.text])
      expr.outline :: sortKeyOutlines keys

def structItemOutlines : List StructItem → List Outline
  | [] => []
  | ⟨expr, aliasName⟩ :: items =>
    .above (withAlias "StructItem" aliasName) expr.outline :: structItemOutlines items

def branchOutlines : List Branch → List Outline
  | [] => []
  | ⟨condition, result⟩ :: branches =>
    .node "When" [condition.outline, result.outline] :: branchOutlines branches

/-- The outlines of the parts of an order, which have no common label. -/
def RowOrder.outlines : RowOrder → List Outline
  | ⟨keys, limit, offset⟩ =>
    let limit := match limit with | some limit => [.above "Limit" limit.outline] | none => []
    let offset := match offset with | some offset => [.above "Offset" offset.outline] | none => []
    Outline.group "OrderBy" (sortKeyOutlines keys) ++ limit ++ offset

def Window.outline : Window → Outline
  | ⟨partition, order, frame⟩ =>
    .node "Analytic"
      (Outline.group "PartitionBy" (exprOutlines partition) ++ Outline.group "OrderBy" (sortKeyOutlines order)
        ++ (frame.map fun frame => Outline.leaf ("Frame " ++ frame.text)).toList)

def MemberTarget.outline : MemberTarget → Outline
  | .list items => .node "List" (exprOutlines items)
  | .query query => query.outline
  | .unnest array => .above "Unnest" array.outline

def Query.outline : Query → Outline
  | ⟨common, body, order⟩ =>
    let common := match common with | some common => [common.outline] | none => []
    let order := match order with | some order => order.outlines | none => []
    .node "Query" (common ++ body.outline :: order)

def CommonTables.outline : CommonTables → Outline
  | ⟨isRecursive, tables⟩ =>
    .node (flagged "With" [flag isRecursive "RECURSIVE"]) (commonTableOutlines tables)

def commonTableOutlines : List CommonTable → List Outline
  | [] => []
  | ⟨name, query⟩ :: tables =>
    .above ("Cte " ++ name.raw) query.outline :: commonTableOutlines tables

def SetExpr.outline : SetExpr → Outline
  | .select select => select.outline
  | .paren query => .above "Paren" query.outline
  | .combine op quantifier left right =>
    .node (flagged ("SetOperation " ++ op.text) [quantifier.map SetQuantifier.text])
      [left.outline, right.outline]

def Select.outline : Select → Outline
  | ⟨distinct, shape, items, source, filter, groupBy, having, qualify⟩ =>
    let source := match source with | some source => [.above "From" source.outline] | none => []
    let filter := match filter with | some filter => [.above "Where" filter.outline] | none => []
    let having := match having with | some having => [.above "Having" having.outline] | none => []
    let qualify :=
      match qualify with
      | some qualify => [.above "Qualify" qualify.outline]
      | none => []
    .node (flagged "Select" [flag distinct "DISTINCT", shape.map SelectAs.text])
      (selectItemOutlines items ++ source ++ filter ++ Outline.group "GroupBy" (exprOutlines groupBy)
        ++ having ++ qualify)

def selectItemOutlines : List SelectItem → List Outline
  | [] => []
  | .wildcard qualifier except replace :: items =>
    .node (wildcardLabel qualifier except) (replacementOutlines replace)
      :: selectItemOutlines items
  | .expr expr aliasName :: items =>
    .above (withAlias "Item" aliasName) expr.outline :: selectItemOutlines items

def replacementOutlines : List Replacement → List Outline
  | [] => []
  | ⟨expr, aliasName⟩ :: items =>
    .above ("Replace " ++ aliasName.raw) expr.outline :: replacementOutlines items

def TableExpr.outline : TableExpr → Outline
  | .table name aliasName => .leaf (withAlias ("Table " ++ name.dotted) aliasName)
  | .subquery query aliasName => .above (withAlias "Subquery" aliasName) query.outline
  | .unnest array aliasName offset => .above (unnestLabel aliasName offset) array.outline
  | .join left kind right condition =>
    let condition :=
      match condition with
      | some (.condition condition) => [.above "On" condition.outline]
      | some (.columns columns) => [.leaf ("Using " ++ identifierList columns)]
      | none => []
    .node ("Join " ++ kind.text) ([left.outline, right.outline] ++ condition)

end

end SqlLayout
