import SqlLayout.Syntax.Statement

/-!
# Trees with Capitalised Names

Two trees are equal up to the case of the letters of unquoted names when they are equal with all of these
names in capitals. Backquoted names, constants and comments stay as they are.
-/

namespace SqlLayout

section Words

/-- The name in capitals, unless it is in backquotes. -/
def Identifier.capital (name : Identifier) : Identifier :=
  if name.isQuoted then name else { raw := Text.upper name.raw }

def QualifiedName.capital (name : QualifiedName) : QualifiedName :=
  { first := name.first.capital, rest := name.rest.map Identifier.capital }

end Words

section Types

mutual

def SqlType.capital : SqlType → SqlType
  | .named name params => .named name.capital params
  | .array element => .array element.capital
  | .struct fields => .struct (fieldsCapital fields)
  | .any => .any

def fieldsCapital : List Field → List Field
  | [] => []
  | ⟨name, type⟩ :: fields => ⟨name.map Identifier.capital, type.capital⟩ :: fieldsCapital fields

end

def Field.capital (field : Field) : Field :=
  { name := field.name.map Identifier.capital, type := field.type.capital }

def Declaration.capital (declaration : Declaration) : Declaration :=
  { name := declaration.name.capital, type := declaration.type.capital }

end Types

section Queries

mutual

def Expr.capital : Expr → Expr
  | .constant constant => .constant constant
  | .name name => .name name.capital
  | .star => .star
  | .call function distinct args nulls => .call function.capital distinct (exprsCapital args) nulls
  | .array type items => .array (type.map SqlType.capital) (exprsCapital items)
  | .arrayQuery query => .arrayQuery query.capital
  | .arrayAgg distinct operand nulls order window offset =>
    .arrayAgg distinct operand.capital nulls (rowOrderCapital? order) (windowCapital? window)
      (exprCapital? offset)
  | .stringAgg function distinct operand delimiter nulls order window accessor =>
    .stringAgg function distinct operand.capital delimiter nulls (rowOrderCapital? order)
      (windowCapital? window) (accessorCapital? accessor)
  | .over operand window => .over operand.capital window.capital
  | .binary op left right => .binary op left.capital right.capital
  | .unary op operand => .unary op operand.capital
  | .paren inner => .paren inner.capital
  | .subquery query => .subquery query.capital
  | .existsQuery query => .existsQuery query.capital
  | .struct fields items => .struct (fields.map fieldsCapital) (structItemsCapital items)
  | .cast safe operand type => .cast safe operand.capital type.capital
  | .extract part operand zone => .extract part.capital operand.capital (exprCapital? zone)
  | .case operand branches otherwise =>
    .case (exprCapital? operand) (branchesCapital branches) (exprCapital? otherwise)
  | .interval count unit => .interval count.capital unit.capital
  | .member operand negated target => .member operand.capital negated target.capital
  | .between operand negated low high => .between operand.capital negated low.capital high.capital
  | .isValue operand negated value => .isValue operand.capital negated value
  | .index base kind position => .index base.capital kind position.capital
  | .field base name => .field base.capital name.capital

def exprsCapital : List Expr → List Expr
  | [] => []
  | expr :: exprs => expr.capital :: exprsCapital exprs

def exprCapital? : Option Expr → Option Expr
  | some expr => some expr.capital
  | none => none

def sortKeysCapital : List SortKey → List SortKey
  | [] => []
  | ⟨expr, direction, nulls⟩ :: keys => ⟨expr.capital, direction, nulls⟩ :: sortKeysCapital keys

def structItemsCapital : List StructItem → List StructItem
  | [] => []
  | ⟨expr, aliasName⟩ :: items =>
    ⟨expr.capital, aliasName.map Identifier.capital⟩ :: structItemsCapital items

def branchesCapital : List Branch → List Branch
  | [] => []
  | ⟨condition, result⟩ :: branches => ⟨condition.capital, result.capital⟩ :: branchesCapital branches

def RowOrder.capital : RowOrder → RowOrder
  | ⟨keys, limit, offset⟩ => ⟨sortKeysCapital keys, exprCapital? limit, exprCapital? offset⟩

def rowOrderCapital? : Option RowOrder → Option RowOrder
  | some order => some order.capital
  | none => none

def Window.capital : Window → Window
  | ⟨partition, order, frame⟩ => ⟨exprsCapital partition, sortKeysCapital order, frame⟩

def windowCapital? : Option Window → Option Window
  | some window => some window.capital
  | none => none

def accessorCapital? : Option Accessor → Option Accessor
  | some ⟨name, position⟩ => some ⟨name.map Identifier.capital, position.capital⟩
  | none => none

def MemberTarget.capital : MemberTarget → MemberTarget
  | .list items => .list (exprsCapital items)
  | .query query => .query query.capital
  | .unnest array => .unnest array.capital

def Query.capital : Query → Query
  | ⟨common, body, order⟩ => ⟨commonTablesCapital? common, body.capital, rowOrderCapital? order⟩

def commonTablesCapital? : Option CommonTables → Option CommonTables
  | some ⟨isRecursive, tables⟩ => some ⟨isRecursive, commonTablesCapital tables⟩
  | none => none

def commonTablesCapital : List CommonTable → List CommonTable
  | [] => []
  | ⟨name, query⟩ :: tables => ⟨name.capital, query.capital⟩ :: commonTablesCapital tables

def SetExpr.capital : SetExpr → SetExpr
  | .select select => .select select.capital
  | .paren query => .paren query.capital
  | .combine op quantifier left right => .combine op quantifier left.capital right.capital

def Select.capital : Select → Select
  | ⟨distinct, shape, items, source, filter, groupBy, having, qualify⟩ =>
    ⟨distinct, shape, selectItemsCapital items, tableExprCapital? source, exprCapital? filter,
      exprsCapital groupBy, exprCapital? having, exprCapital? qualify⟩

def selectItemsCapital : List SelectItem → List SelectItem
  | [] => []
  | .wildcard qualifier except replace :: items =>
    .wildcard (qualifier.map QualifiedName.capital) (except.map Identifier.capital)
      (replacementsCapital replace) :: selectItemsCapital items
  | .expr expr aliasName :: items =>
    .expr expr.capital (aliasName.map Identifier.capital) :: selectItemsCapital items

def replacementsCapital : List Replacement → List Replacement
  | [] => []
  | ⟨expr, aliasName⟩ :: items => ⟨expr.capital, aliasName.capital⟩ :: replacementsCapital items

def TableExpr.capital : TableExpr → TableExpr
  | .table name aliasName => .table name.capital (aliasName.map Identifier.capital)
  | .subquery query aliasName => .subquery query.capital (aliasName.map Identifier.capital)
  | .unnest array aliasName offset =>
    .unnest array.capital (aliasName.map Identifier.capital)
      (offset.map (Option.map Identifier.capital))
  | .join left kind right condition =>
    .join left.capital kind right.capital (joinConditionCapital? condition)

def tableExprCapital? : Option TableExpr → Option TableExpr
  | some table => some table.capital
  | none => none

def joinConditionCapital? : Option JoinCondition → Option JoinCondition
  | some (.condition condition) => some (.condition condition.capital)
  | some (.columns columns) => some (.columns (columns.map Identifier.capital))
  | none => none

end

def SortKey.capital (key : SortKey) : SortKey :=
  { key with expr := key.expr.capital }

def StructItem.capital (item : StructItem) : StructItem :=
  { expr := item.expr.capital, aliasName := item.aliasName.map Identifier.capital }

def Branch.capital (branch : Branch) : Branch :=
  { condition := branch.condition.capital, result := branch.result.capital }

def Accessor.capital (accessor : Accessor) : Accessor :=
  { name := accessor.name.map Identifier.capital, position := accessor.position.capital }

def CommonTable.capital (table : CommonTable) : CommonTable :=
  { name := table.name.capital, query := table.query.capital }

def CommonTables.capital (common : CommonTables) : CommonTables :=
  { common with tables := common.tables.map CommonTable.capital }

def Replacement.capital (item : Replacement) : Replacement :=
  { expr := item.expr.capital, aliasName := item.aliasName.capital }

def SelectItem.capital : SelectItem → SelectItem
  | .wildcard qualifier except replace =>
    .wildcard (qualifier.map QualifiedName.capital) (except.map Identifier.capital)
      (replace.map Replacement.capital)
  | .expr item aliasName => .expr item.capital (aliasName.map Identifier.capital)

def JoinCondition.capital : JoinCondition → JoinCondition
  | .condition test => .condition test.capital
  | .columns names => .columns (names.map Identifier.capital)

end Queries

section Parts

/-- Items that are changed one by one. -/
theorem eq_map {α : Type} {all : List α → List α} {change : α → α} (hnil : all [] = [])
    (hcons : ∀ item items, all (item :: items) = change item :: all items) (items : List α) :
    all items = items.map change := by
  induction items with
  | nil => exact hnil
  | cons item items ih => rw [hcons, ih, List.map_cons]

@[simp] theorem fieldsCapital_eq (fields : List Field) : fieldsCapital fields = fields.map Field.capital :=
  eq_map rfl (fun ⟨_, _⟩ _ => rfl) fields

@[simp] theorem exprsCapital_eq (exprs : List Expr) : exprsCapital exprs = exprs.map Expr.capital :=
  eq_map rfl (fun _ _ => rfl) exprs

@[simp] theorem exprCapital?_eq (expr : Option Expr) : exprCapital? expr = expr.map Expr.capital := by
  cases expr <;> rfl

@[simp] theorem sortKeysCapital_eq (keys : List SortKey) :
    sortKeysCapital keys = keys.map SortKey.capital :=
  eq_map rfl (fun ⟨_, _, _⟩ _ => rfl) keys

@[simp] theorem structItemsCapital_eq (items : List StructItem) :
    structItemsCapital items = items.map StructItem.capital :=
  eq_map rfl (fun ⟨_, _⟩ _ => rfl) items

@[simp] theorem branchesCapital_eq (branches : List Branch) :
    branchesCapital branches = branches.map Branch.capital :=
  eq_map rfl (fun ⟨_, _⟩ _ => rfl) branches

@[simp] theorem rowOrderCapital?_eq (order : Option RowOrder) :
    rowOrderCapital? order = order.map RowOrder.capital := by
  cases order <;> rfl

@[simp] theorem windowCapital?_eq (window : Option Window) :
    windowCapital? window = window.map Window.capital := by
  cases window <;> rfl

@[simp] theorem accessorCapital?_eq (accessor : Option Accessor) :
    accessorCapital? accessor = accessor.map Accessor.capital := by
  rcases accessor with _ | ⟨_, _⟩ <;> rfl

@[simp] theorem commonTablesCapital_eq (tables : List CommonTable) :
    commonTablesCapital tables = tables.map CommonTable.capital :=
  eq_map rfl (fun ⟨_, _⟩ _ => rfl) tables

@[simp] theorem commonTablesCapital?_eq (common : Option CommonTables) :
    commonTablesCapital? common = common.map CommonTables.capital := by
  rcases common with _ | ⟨isRecursive, tables⟩
  · rfl
  · rw [commonTablesCapital?, commonTablesCapital_eq]
    rfl

@[simp] theorem replacementsCapital_eq (items : List Replacement) :
    replacementsCapital items = items.map Replacement.capital :=
  eq_map rfl (fun ⟨_, _⟩ _ => rfl) items

@[simp] theorem selectItemsCapital_eq (items : List SelectItem) :
    selectItemsCapital items = items.map SelectItem.capital := by
  apply eq_map rfl
  intro item items
  cases item with
  | wildcard qualifier except replace =>
    rw [selectItemsCapital, replacementsCapital_eq]
    rfl
  | expr expr aliasName => rfl

@[simp] theorem tableExprCapital?_eq (table : Option TableExpr) :
    tableExprCapital? table = table.map TableExpr.capital := by
  cases table <;> rfl

@[simp] theorem joinConditionCapital?_eq (condition : Option JoinCondition) :
    joinConditionCapital? condition = condition.map JoinCondition.capital := by
  rcases condition with _ | condition
  · rfl
  · cases condition <;> rfl

end Parts

section Statements

def OptionItem.capital (item : OptionItem) : OptionItem :=
  { name := item.name.capital, value := item.value.capital }

def FunctionBody.capital : FunctionBody → FunctionBody
  | .sql body => .sql body.capital
  | .foreign language code options =>
    .foreign language.capital code (options.map OptionItem.capital)

def FunctionDef.capital (function : FunctionDef) : FunctionDef :=
  { function with
    name := function.name.capital
    params := function.params.map Declaration.capital
    returns := function.returns.map SqlType.capital
    body := function.body.capital }

def TableDef.capital (table : TableDef) : TableDef :=
  { table with
    name := table.name.capital
    columns := table.columns.map Declaration.capital
    options := table.options.map OptionItem.capital
    query := table.query.map Query.capital }

def ViewDef.capital (view : ViewDef) : ViewDef :=
  { view with
    name := view.name.capital
    options := view.options.map OptionItem.capital
    query := view.query.capital }

def InsertSource.capital : InsertSource → InsertSource
  | .query body => .query body.capital
  | .values rows => .values (rows.map (List.map Expr.capital))

def Insertion.capital (insertion : Insertion) : Insertion :=
  { table := insertion.table.capital
    columns := insertion.columns.map Identifier.capital
    source := insertion.source.capital }

def Action.capital : Action → Action
  | .query body => .query body.capital
  | .createFunction function => .createFunction function.capital
  | .createTable table => .createTable table.capital
  | .createView view => .createView view.capital
  | .insert insertion => .insert insertion.capital

def Statement.capital (statement : Statement) : Statement :=
  { statement with action := statement.action.capital }

/-- The script with every unquoted name in capitals. -/
def Script.capital (script : Script) : Script :=
  { script with statements := script.statements.map Statement.capital }

end Statements

end SqlLayout
