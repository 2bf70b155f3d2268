import SqlLayout.Proofs.Layout.Syntax
import SqlLayout.Proofs.Token.Glyph
import SqlLayout.Syntax.Statement

/-!
# Texts Kept Verbatim

The texts of literals and of backquoted names are data: they reach the tree as they are. A tree holds
them in the order in which its pieces are printed.
-/

namespace SqlLayout

/-- The kinds of tokens whose texts are kept as they are. -/
def Token.Kind.isVerbatim : Token.Kind → Bool
  | string | number | quotedIdent => true
  | _ => false

def Glyph.verbatims (glyph : Glyph) : List String :=
  if glyph.kind.isVerbatim then [glyph.text] else []

def Token.verbatims (token : Token) : List String :=
  token.glyph.verbatims

section Words

/-- The text of a name, if it is in backquotes. -/
def Identifier.verbatims (name : Identifier) : List String :=
  name.glyph.verbatims

def QualifiedName.verbatims (name : QualifiedName) : List String :=
  name.segments.flatMap Identifier.verbatims

/-- The text of a constant, unless it is a keyword. -/
def Constant.verbatims (constant : Constant) : List String :=
  constant.glyph.verbatims

def FrameBound.verbatims : FrameBound → List String
  | preceding count | following count => count.verbatims
  | unboundedPreceding | unboundedFollowing | currentRow => []

def Frame.verbatims (frame : Frame) : List String :=
  match frame.extent with
  | .single bound => bound.verbatims
  | .between start stop => start.verbatims ++ stop.verbatims

end Words

/-- The texts of something that may be missing. -/
def verbatims? {α : Type} (texts : α → List String) : Option α → List String
  | some value => texts value
  | none => []

section Types

mutual

def SqlType.verbatims : SqlType → List String
  | .named name params => name.verbatims ++ params.flatMap Constant.verbatims
  | .array element => element.verbatims
  | .struct fields => fieldsVerbatims fields
  | .any => []

def fieldsVerbatims : List Field → List String
  | [] => []
  | ⟨name, type⟩ :: fields =>
    verbatims? Identifier.verbatims name ++ type.verbatims ++ fieldsVerbatims fields

end

def Field.verbatims (field : Field) : List String :=
  verbatims? Identifier.verbatims field.name ++ field.type.verbatims

def Declaration.verbatims (declaration : Declaration) : List String :=
  declaration.name.verbatims ++ declaration.type.verbatims

end Types

section Lists

variable {α : Type} {all : List α → List String} {texts : α → List String}

/-- Texts that are collected item by item. -/
theorem eq_flatMap (hnil : all [] = []) (hcons : ∀ item items, all (item :: items) = texts item ++ all items)
    (items : List α) : all items = items.flatMap texts := by
  induction items with
  | nil => exact hnil
  | cons item items ih => rw [hcons, ih, List.flatMap_cons]

@[simp] theorem fieldsVerbatims_eq (fields : List Field) :
    fieldsVerbatims fields = fields.flatMap Field.verbatims :=
  eq_flatMap rfl (fun ⟨_, _⟩ _ => rfl) fields

end Lists

section Queries

mutual

def Expr.verbatims : Expr → List String
  | .constant constant => constant.verbatims
  | .name name => name.verbatims
  | .star => []
  | .call function _ args _ => function.verbatims ++ exprsVerbatims args
  | .array type items => verbatims? SqlType.verbatims type ++ exprsVerbatims items
  | .arrayQuery query => query.verbatims
  | .arrayAgg _ operand _ order window offset =>
    operand.verbatims ++ rowOrderVerbatims? order ++ windowVerbatims? window
      ++ exprVerbatims? offset
  | .stringAgg _ _ operand delimiter _ order window accessor =>
    operand.verbatims ++ verbatims? Constant.verbatims delimiter ++ rowOrderVerbatims? order
      ++ windowVerbatims? window ++ accessorVerbatims? accessor
  | .over operand window => operand.verbatims ++ window.verbatims
  | .binary _ left right => left.verbatims ++ right.verbatims
  | .unary _ operand => operand.verbatims
  | .paren inner => inner.verbatims
  | .subquery query => query.verbatims
  | .existsQuery query => query.verbatims
  | .struct fields items => verbatims? fieldsVerbatims fields ++ structItemsVerbatims items
  | .cast _ operand type => operand.verbatims ++ type.verbatims
  | .extract part operand zone => part.verbatims ++ operand.verbatims ++ exprVerbatims? zone
  | .case operand branches otherwise =>
    exprVerbatims? operand ++ branchesVerbatims branches ++ exprVerbatims? otherwise
  | .interval count unit => count.verbatims ++ unit.verbatims
  | .member operand _ target => operand.verbatims ++ target.verbatims
  | .between operand _ low high => operand.verbatims ++ low.verbatims ++ high.verbatims
  | .isValue operand _ _ => operand.verbatims
  | .index base _ position => base.verbatims ++ position.verbatims
  | .field base name => base.verbatims ++ name.verbatims

def exprsVerbatims : List Expr → List String
  | [] => []
  | expr :: exprs => expr.verbatims ++ exprsVerbatims exprs

def exprVerbatims? : Option Expr → List String
  | some expr => expr.verbatims
  | none => []

def sortKeysVerbatims : List SortKey → List String
  | [] => []
  | ⟨expr, _, _⟩ :: keys => expr.verbatims ++ sortKeysVerbatims keys

def structItemsVerbatims : List StructItem → List String
  | [] => []
  | ⟨expr, aliasName⟩ :: items =>
    expr.verbatims ++ verbatims? Identifier.verbatims aliasName ++ structItemsVerbatims items

def branchesVerbatims : List Branch → List String
  | [] => []
  | ⟨condition, result⟩ :: branches =>
    condition.verbatims ++ result.verbatims ++ branchesVerbatims branches

def RowOrder.verbatims : RowOrder → List String
  | ⟨keys, limit, offset⟩ =>
    sortKeysVerbatims keys ++ exprVerbatims? limit ++ exprVerbatims? offset

def rowOrderVerbatims? : Option RowOrder → List String
  | some order => order.verbatims
  | none => []

def Window.verbatims : Window → List String
  | ⟨partition, order, frame⟩ =>
    exprsVerbatims partition ++ sortKeysVerbatims order ++ verbatims? Frame.verbatims frame

def windowVerbatims? : Option Window → List String
  | some window => window.verbatims
  | none => []

def accessorVerbatims? : Option Accessor → List String
  | some ⟨name, position⟩ => verbatims? Identifier.verbatims name ++ position.verbatims
  | none => []

def MemberTarget.verbatims : MemberTarget → List String
  | .list items => exprsVerbatims items
  | .query query => query.verbatims
  | .unnest array => array.verbatims

def Query.verbatims : Query → List String
  | ⟨common, body, order⟩ =>
    commonTablesVerbatims? common ++ body.verbatims ++ rowOrderVerbatims? order

def commonTablesVerbatims? : Option CommonTables → List String
  | some ⟨_, tables⟩ => commonTablesVerbatims tables
  | none => []

def commonTablesVerbatims : List CommonTable → List String
  | [] => []
  | ⟨name, query⟩ :: tables => name.verbatims ++ query.verbatims ++ commonTablesVerbatims tables

def SetExpr.verbatims : SetExpr → List String
  | .select select => select.verbatims
  | .paren query => query.verbatims
  | .combine _ _ left right => left.verbatims ++ right.verbatims

def Select.verbatims : Select → List String
  | ⟨_, _, items, source, filter, groupBy, having, qualify⟩ =>
    selectItemsVerbatims items ++ tableExprVerbatims? source ++ exprVerbatims? filter
      ++ exprsVerbatims groupBy ++ exprVerbatims? having ++ exprVerbatims? qualify

def selectItemsVerbatims : List SelectItem → List String
  | [] => []
  | .wildcard qualifier except replace :: items =>
    verbatims? QualifiedName.verbatims qualifier ++ except.flatMap Identifier.verbatims
      ++ replacementsVerbatims replace ++ selectItemsVerbatims items
  | .expr expr aliasName :: items =>
    expr.verbatims ++ verbatims? Identifier.verbatims aliasName ++ selectItemsVerbatims items

def replacementsVerbatims : List Replacement → List String
  | [] => []
  | ⟨expr, aliasName⟩ :: items =>
    expr.verbatims ++ aliasName.verbatims ++ replacementsVerbatims items

def TableExpr.verbatims : TableExpr → List String
  | .table name aliasName => name.verbatims ++ verbatims? Identifier.verbatims aliasName
  | .subquery query aliasName => query.verbatims ++ verbatims? Identifier.verbatims aliasName
  | .unnest array aliasName offset =>
    array.verbatims ++ verbatims? Identifier.verbatims aliasName
      ++ verbatims? (verbatims? Identifier.verbatims) offset
  | .join left _ right condition =>
    left.verbatims ++ right.verbatims ++ joinConditionVerbatims? condition

def tableExprVerbatims? : Option TableExpr → List String
  | some table => table.verbatims
  | none => []

def joinConditionVerbatims? : Option JoinCondition → List String
  | some (.condition condition) => condition.verbatims
  | some (.columns columns) => columns.flatMap Identifier.verbatims
  | none => []

end

def SortKey.verbatims (key : SortKey) : List String :=
  key.expr.verbatims

def StructItem.verbatims (item : StructItem) : List String :=
  item.expr.verbatims ++ verbatims? Identifier.verbatims item.aliasName

def Branch.verbatims (branch : Branch) : List String :=
  branch.condition.verbatims ++ branch.result.verbatims

def Accessor.verbatims (accessor : Accessor) : List String :=
  verbatims? Identifier.verbatims accessor.name ++ accessor.position.verbatims

def CommonTable.verbatims (table : CommonTable) : List String :=
  table.name.verbatims ++ table.query.verbatims

def CommonTables.verbatims (common : CommonTables) : List String :=
  common.tables.flatMap CommonTable.verbatims

def Replacement.verbatims (item : Replacement) : List String :=
  item.expr.verbatims ++ item.aliasName.verbatims

def SelectItem.verbatims : SelectItem → List String
  | .wildcard qualifier except replace =>
    verbatims? QualifiedName.verbatims qualifier ++ except.flatMap Identifier.verbatims
      ++ replace.flatMap Replacement.verbatims
  | .expr item aliasName => item.verbatims ++ verbatims? Identifier.verbatims aliasName

def JoinCondition.verbatims : JoinCondition → List String
  | .condition test => test.verbatims
  | .columns names => names.flatMap Identifier.verbatims

end Queries

section Parts

@[simp] theorem exprsVerbatims_eq (exprs : List Expr) :
    exprsVerbatims exprs = exprs.flatMap Expr.verbatims :=
  eq_flatMap rfl (fun _ _ => rfl) exprs

@[simp] theorem exprVerbatims?_eq (expr : Option Expr) :
    exprVerbatims? expr = verbatims? Expr.verbatims expr := by
  cases expr <;> rfl

@[simp] theorem sortKeysVerbatims_eq (keys : List SortKey) :
    sortKeysVerbatims keys = keys.flatMap SortKey.verbatims :=
  eq_flatMap rfl (fun ⟨_, _, _⟩ _ => rfl) keys

@[simp] theorem structItemsVerbatims_eq (items : List StructItem) :
    structItemsVerbatims items = items.flatMap StructItem.verbatims :=
  eq_flatMap rfl (fun ⟨_, _⟩ _ => rfl) items

@[simp] theorem branchesVerbatims_eq (branches : List Branch) :
    branchesVerbatims branches = branches.flatMap Branch.verbatims :=
  eq_flatMap rfl (fun ⟨_, _⟩ _ => rfl) branches

@[simp] theorem rowOrderVerbatims?_eq (order : Option RowOrder) :
    rowOrderVerbatims? order = verbatims? RowOrder.verbatims order := by
  cases order <;> rfl

@[simp] theorem windowVerbatims?_eq (window : Option Window) :
    windowVerbatims? window = verbatims? Window.verbatims window := by
  cases window <;> rfl

@[simp] theorem accessorVerbatims?_eq (accessor : Option Accessor) :
    accessorVerbatims? accessor = verbatims? Accessor.verbatims accessor := by
  rcases accessor with _ | ⟨_, _⟩ <;> rfl

@[simp] theorem commonTablesVerbatims_eq (tables : List CommonTable) :
    commonTablesVerbatims tables = tables.flatMap CommonTable.verbatims :=
  eq_flatMap rfl (fun ⟨_, _⟩ _ => rfl) tables

@[simp] theorem commonTablesVerbatims?_eq (common : Option CommonTables) :
    commonTablesVerbatims? common = verbatims? CommonTables.verbatims common := by
  rcases common with _ | ⟨_, tables⟩
  · rfl
  · exact commonTablesVerbatims_eq tables

@[simp] theorem replacementsVerbatims_eq (items : List Replacement) :
    replacementsVerbatims items = items.flatMap Replacement.verbatims :=
  eq_flatMap rfl (fun ⟨_, _⟩ _ => rfl) items

@[simp] theorem selectItemsVerbatims_eq (items : List SelectItem) :
    selectItemsVerbatims items = items.flatMap SelectItem.verbatims := by
  apply eq_flatMap rfl
  intro item items
  cases item with
  | wildcard qualifier except replace =>
    rw [selectItemsVerbatims, replacementsVerbatims_eq]
    rfl
  | expr expr aliasName => rfl

@[simp] theorem tableExprVerbatims?_eq (table : Option TableExpr) :
    tableExprVerbatims? table = verbatims? TableExpr.verbatims table := by
  cases table <;> rfl

@[simp] theorem joinConditionVerbatims?_eq (condition : Option JoinCondition) :
    joinConditionVerbatims? condition = verbatims? JoinCondition.verbatims condition := by
  rcases condition with _ | condition
  · rfl
  · cases condition <;> rfl

end Parts

section Statements

def OptionItem.verbatims (item : OptionItem) : List String :=
  item.name.verbatims ++ item.value.verbatims

def FunctionBody.verbatims : FunctionBody → List String
  | .sql body => body.verbatims
  | .foreign language code options =>
    language.verbatims ++ code.verbatims ++ options.flatMap OptionItem.verbatims

def FunctionDef.verbatims (function : FunctionDef) : List String :=
  function.name.verbatims ++ function.params.flatMap Declaration.verbatims
    ++ verbatims? SqlType.verbatims function.returns ++ function.body.verbatims

def TableDef.verbatims (table : TableDef) : List String :=
  table.name.verbatims ++ table.columns.flatMap Declaration.verbatims
    ++ table.options.flatMap OptionItem.verbatims ++ verbatims? Query.verbatims table.query

def ViewDef.verbatims (view : ViewDef) : List String :=
  view.name.verbatims ++ view.options.flatMap OptionItem.verbatims ++ view.query.verbatims

def InsertSource.verbatims : InsertSource → List String
  | .query body => body.verbatims
  | .values rows => rows.flatMap (List.flatMap Expr.verbatims)

def Insertion.verbatims (insertion : Insertion) : List String :=
  insertion.table.verbatims ++ insertion.columns.flatMap Identifier.verbatims
    ++ insertion.source.verbatims

def Action.verbatims : Action → List String
  | .query body => body.verbatims
  | .createFunction function => function.verbatims
  | .createTable table => table.verbatims
  | .createView view => view.verbatims
  | .insert insertion => insertion.verbatims

def Statement.verbatims (statement : Statement) : List String :=
  statement.action.verbatims

/-- The texts of all literals and backquoted names of a script. -/
def Script.verbatims (script : Script) : List String :=
  script.statements.flatMap Statement.verbatims

end Statements

end SqlLayout
