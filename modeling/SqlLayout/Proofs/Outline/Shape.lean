import SqlLayout.Outline.Statement
import SqlLayout.Syntax.Node

/-!
# The Shape of an Outline

What is below a label, written as a list of parts. Parts that may be missing have labels of their own, and
lists are the outlines of their items one after the other.
-/

namespace SqlLayout

section Items

def SortKey.outline (key : SortKey) : Outline :=
  .above (flagged "OrderItem" [key.direction.map Direction.text, key.nulls.map NullsOrder.text])
    key.expr.outline

def StructItem.outline (item : StructItem) : Outline :=
  .above (withAlias "StructItem" item.aliasName) item.expr.outline

def Branch.outline (branch : Branch) : Outline :=
  .node "When" [branch.condition.outline, branch.result.outline]

def CommonTable.outline (table : CommonTable) : Outline :=
  .above ("Cte " ++ table.name.raw) table.query.outline

def Replacement.outline (item : Replacement) : Outline :=
  .above ("Replace " ++ item.aliasName.raw) item.expr.outline

def SelectItem.outline : SelectItem → Outline
  | .wildcard qualifier except replace =>
    .node (wildcardLabel qualifier except) (replace.map Replacement.outline)
  | .expr value aliasName => .above (withAlias "Item" aliasName) value.outline

theorem exprOutlines_eq_map (exprs : List Expr) : exprOutlines exprs = exprs.map Expr.outline := by
  induction exprs with
  | nil => rw [exprOutlines, List.map_nil]
  | cons expr exprs ih => rw [exprOutlines, ih, List.map_cons]

theorem sortKeyOutlines_eq_map (keys : List SortKey) : sortKeyOutlines keys = keys.map SortKey.outline := by
  induction keys with
  | nil => rw [sortKeyOutlines, List.map_nil]
  | cons key keys ih =>
    obtain ⟨expr, direction, nulls⟩ := key
    rw [sortKeyOutlines, ih, List.map_cons, SortKey.outline]

theorem structItemOutlines_eq_map (items : List StructItem) :
    structItemOutlines items = items.map StructItem.outline := by
  induction items with
  | nil => rw [structItemOutlines, List.map_nil]
  | cons item items ih =>
    obtain ⟨expr, aliasName⟩ := item
    rw [structItemOutlines, ih, List.map_cons, StructItem.outline]

theorem branchOutlines_eq_map (branches : List Branch) :
    branchOutlines branches = branches.map Branch.outline := by
  induction branches with
  | nil => rw [branchOutlines, List.map_nil]
  | cons branch branches ih =>
    obtain ⟨condition, result⟩ := branch
    rw [branchOutlines, ih, List.map_cons, Branch.outline]

theorem commonTableOutlines_eq_map (tables : List CommonTable) :
    commonTableOutlines tables = tables.map CommonTable.outline := by
  induction tables with
  | nil => rw [commonTableOutlines, List.map_nil]
  | cons table tables ih =>
    obtain ⟨name, query⟩ := table
    rw [commonTableOutlines, ih, List.map_cons, CommonTable.outline]

theorem replacementOutlines_eq_map (items : List Replacement) :
    replacementOutlines items = items.map Replacement.outline := by
  induction items with
  | nil => rw [replacementOutlines, List.map_nil]
  | cons item items ih =>
    obtain ⟨expr, aliasName⟩ := item
    rw [replacementOutlines, ih, List.map_cons, Replacement.outline]

theorem selectItemOutlines_eq_map (items : List SelectItem) :
    selectItemOutlines items = items.map SelectItem.outline := by
  induction items with
  | nil => rw [selectItemOutlines, List.map_nil]
  | cons item items ih =>
    cases item with
    | wildcard qualifier except replace =>
      rw [selectItemOutlines, ih, List.map_cons, SelectItem.outline, replacementOutlines_eq_map]
    | expr expr aliasName => rw [selectItemOutlines, ih, List.map_cons, SelectItem.outline]

end Items

section Parts

/-- An expression with a label of its own, if it is there. -/
def Outline.part (label : String) (expr : Option Expr) : List Outline :=
  expr.toList.map fun expr => .above label expr.outline

def orderOutlines : Option RowOrder → List Outline
  | some order => order.outlines
  | none => []

def windowOutlines (window : Option Window) : List Outline :=
  window.toList.map Window.outline

def Accessor.outline (accessor : Accessor) : Outline :=
  .above (flagged "Accessor" [accessor.name.map Identifier.raw]) accessor.position.outline

theorem RowOrder.outlines_eq (order : RowOrder) :
    order.outlines = Outline.group "OrderBy" (order.keys.map SortKey.outline) ++
      (Outline.part "Limit" order.limit ++ Outline.part "Offset" order.offset) := by
  obtain ⟨keys, limit, offset⟩ := order
  rw [← sortKeyOutlines_eq_map]
  rw [← List.append_assoc]
  cases limit <;> cases offset <;> rfl

theorem Window.outline_eq (window : Window) :
    window.outline = .node "Analytic"
      (Outline.group "PartitionBy" (window.partition.map Expr.outline) ++
        (Outline.group "OrderBy" (window.order.map SortKey.outline) ++
          (window.frame.map fun frame => Outline.leaf ("Frame " ++ frame.text)).toList)) := by
  obtain ⟨partition, order, frame⟩ := window
  rw [← exprOutlines_eq_map, ← sortKeyOutlines_eq_map, ← List.append_assoc]
  rfl

theorem Expr.outline_call (function : QualifiedName) (distinct : Bool) (args : List Expr)
    (nulls : Option NullHandling) :
    (Expr.call function distinct args nulls).outline =
      .node (flagged ("Function " ++ function.dotted) [flag distinct "DISTINCT", nulls.map NullHandling.text])
        (args.map Expr.outline) := by
  rw [← exprOutlines_eq_map]
  rfl

theorem Expr.outline_array (type : Option SqlType) (items : List Expr) :
    (Expr.array type items).outline =
      .node (flagged "ArrayLiteral" [type.map SqlType.text]) (items.map Expr.outline) := by
  rw [← exprOutlines_eq_map]
  rfl

theorem Expr.outline_struct (fields : Option (List Field)) (items : List StructItem) :
    (Expr.struct fields items).outline =
      .node (flagged "Struct" [fields.map fun fields => "STRUCT<" ++ fieldsText fields ++ ">"])
        (items.map StructItem.outline) := by
  rw [← structItemOutlines_eq_map]
  rfl

theorem MemberTarget.outline_list (items : List Expr) :
    (MemberTarget.list items).outline = .node "List" (items.map Expr.outline) := by
  rw [← exprOutlines_eq_map]
  rfl

theorem CommonTables.outline_eq (common : CommonTables) :
    common.outline = .node (flagged "With" [flag common.isRecursive "RECURSIVE"])
      (common.tables.map CommonTable.outline) := by
  obtain ⟨isRecursive, tables⟩ := common
  rw [← commonTableOutlines_eq_map]
  rfl

theorem Expr.outline_arrayAgg (distinct : Bool) (operand : Expr) (nulls : Option NullHandling)
    (order : Option RowOrder) (window : Option Window) (offset : Option Expr) :
    (Expr.arrayAgg distinct operand nulls order window offset).outline =
      .node (flagged "ArrayAgg" [flag distinct "DISTINCT", nulls.map NullHandling.text])
        (operand.outline ::
          (orderOutlines order ++ (windowOutlines window ++ Outline.part "Offset" offset))) := by
  rw [← List.append_assoc]
  cases order <;> cases window <;> cases offset <;> rfl

theorem Expr.outline_stringAgg (function : StringFunction) (distinct : Bool) (operand : Expr)
    (delimiter : Option Constant) (nulls : Option NullHandling) (order : Option RowOrder)
    (window : Option Window) (accessor : Option Accessor) :
    (Expr.stringAgg function distinct operand delimiter nulls order window accessor).outline =
      .node (flagged ("StringAgg " ++ function.text) [flag distinct "DISTINCT", nulls.map NullHandling.text])
        (operand.outline :: ((delimiter.map fun text => Outline.leaf ("Delimiter " ++ text.text)).toList ++
          (orderOutlines order ++ (windowOutlines window ++ accessor.toList.map Accessor.outline)))) := by
  simp only [← List.append_assoc]
  rcases accessor with _ | ⟨name, position⟩ <;> cases order <;> cases window <;> rfl

theorem Expr.outline_extract (part operand : Expr) (zone : Option Expr) :
    (Expr.extract part operand zone).outline =
      .node "Extract" (part.outline :: operand.outline :: Outline.part "TimeZone" zone) := by
  cases zone <;> rfl

theorem Expr.outline_case (operand : Option Expr) (branches : List Branch) (otherwise : Option Expr) :
    (Expr.case operand branches otherwise).outline =
      .node "Case" (Outline.part "Operand" operand ++
        (branches.map Branch.outline ++ Outline.part "Else" otherwise)) := by
  rw [← branchOutlines_eq_map]
  rw [← List.append_assoc]
  cases operand <;> cases otherwise <;> rfl

theorem Query.outline_eq (query : Query) :
    query.outline = .node "Query"
      (query.common.toList.map CommonTables.outline ++ query.body.outline :: orderOutlines query.order) := by
  obtain ⟨common, body, order⟩ := query
  cases common <;> cases order <;> rfl

theorem Select.outline_eq (select : Select) :
    select.outline =
      .node (flagged "Select" [flag select.distinct "DISTINCT", select.shape.map SelectAs.text])
        (select.items.map SelectItem.outline ++
          (select.source.toList.map (fun source => Outline.above "From" source.outline) ++
            (Outline.part "Where" select.filter ++
              (Outline.group "GroupBy" (select.groupBy.map Expr.outline) ++
                (Outline.part "Having" select.having ++ Outline.part "Qualify" select.qualify))))) := by
  obtain ⟨distinct, shape, items, source, filter, groupBy, having, qualify⟩ := select
  rw [← selectItemOutlines_eq_map, ← exprOutlines_eq_map]
  simp only [← List.append_assoc]
  cases source <;> cases filter <;> cases having <;> cases qualify <;> rfl

def JoinCondition.outline : JoinCondition → Outline
  | .condition test => .above "On" test.outline
  | .columns names => .leaf ("Using " ++ identifierList names)

theorem TableExpr.outline_join (left : TableExpr) (kind : JoinKind) (right : TableExpr)
    (condition : Option JoinCondition) :
    (TableExpr.join left kind right condition).outline =
      .node ("Join " ++ kind.text)
        (left.outline :: right.outline :: condition.toList.map JoinCondition.outline) := by
  rcases condition with _ | _ | _ <;> rfl

end Parts

/-- What is shown of a node. -/
def Node.outline : Node → Outline
  | script body => body.outline
  | statement body => body.outline true
  | function definition =>
    .node (Action.createFunction definition).label (Action.createFunction definition).outlines
  | query body => body.outline
  | commonTable table => table.outline
  | setExpr body => body.outline
  | select body => body.outline
  | selectItem item => item.outline
  | tableExpr table => table.outline
  | expr body => body.outline

end SqlLayout
