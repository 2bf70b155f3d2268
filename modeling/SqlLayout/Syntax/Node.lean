import SqlLayout.Syntax.Statement

/-!
# Nodes of a Tree

The pieces of a script that are of interest on their own, from the whole script down to each expression,
and the pieces directly inside each of them. A walk visits a piece before the pieces inside it. The pieces
inside are smaller, so every walk ends.
-/

namespace SqlLayout

inductive Node where
  | script (script : Script)
  | statement (statement : Statement)
  | function (function : FunctionDef)
  | query (query : Query)
  | commonTable (table : CommonTable)
  | setExpr (body : SetExpr)
  | select (select : Select)
  | selectItem (item : SelectItem)
  | tableExpr (table : TableExpr)
  | expr (expr : Expr)

namespace Node

def exprs (items : List Expr) : List Node :=
  items.map expr

def optionValues (options : List OptionItem) : List Node :=
  options.map fun item => expr item.value

def sortKeys (keys : List SortKey) : List Node :=
  keys.map fun key => expr key.expr

def ofRowOrder : Option RowOrder → List Node
  | none => []
  | some order => sortKeys order.keys ++ exprs order.limit.toList ++ exprs order.offset.toList

def ofWindow : Option Window → List Node
  | none => []
  | some window => exprs window.partition ++ sortKeys window.order

def ofAccessor : Option Accessor → List Node
  | none => []
  | some accessor => [expr accessor.position]

def structItems (items : List StructItem) : List Node :=
  items.map fun item => expr item.expr

def replacements (items : List Replacement) : List Node :=
  items.map fun item => expr item.expr

def ofBranches (branches : List Branch) : List Node :=
  branches.flatMap fun branch => [expr branch.condition, expr branch.result]

def ofMemberTarget : MemberTarget → List Node
  | .list items => exprs items
  | .query body => [query body]
  | .unnest array => [expr array]

def ofBody : FunctionBody → List Node
  | .sql body => [expr body]
  | .foreign _ _ options => optionValues options

def ofInsertSource : InsertSource → List Node
  | .query body => [query body]
  | .values rows => rows.flatMap exprs

def ofAction : Action → List Node
  | .query body => [query body]
  | .createFunction definition => [function definition]
  | .createTable definition => optionValues definition.options ++ definition.query.toList.map query
  | .createView definition => optionValues definition.options ++ [query definition.query]
  | .insert insertion => ofInsertSource insertion.source

def ofCommonTables : Option CommonTables → List Node
  | none => []
  | some common => common.tables.map commonTable

def ofSetExpr : SetExpr → List Node
  | .select body => [select body]
  | .paren body => [query body]
  | .combine _ _ left right => [setExpr left, setExpr right]

def ofSelect (body : Select) : List Node :=
  body.items.map selectItem ++ body.source.toList.map tableExpr ++ exprs body.filter.toList
    ++ exprs body.having.toList ++ exprs body.qualify.toList ++ exprs body.groupBy

def ofSelectItem : SelectItem → List Node
  | .wildcard _ _ replace => replacements replace
  | .expr item _ => [expr item]

def ofJoinCondition : Option JoinCondition → List Node
  | some (.condition condition) => [expr condition]
  | some (.columns _) | none => []

def ofTableExpr : TableExpr → List Node
  | .table _ _ => []
  | .subquery body _ => [query body]
  | .unnest array _ _ => [expr array]
  | .join left _ right condition => [tableExpr left, tableExpr right] ++ ofJoinCondition condition

def ofExpr : Expr → List Node
  | .constant _ | .name _ | .star => []
  | .call _ _ args _ => exprs args
  | .array _ items => exprs items
  | .arrayQuery body | .subquery body | .existsQuery body => [query body]
  | .arrayAgg _ operand _ order window offset =>
    [expr operand] ++ ofRowOrder order ++ ofWindow window ++ exprs offset.toList
  | .stringAgg _ _ operand _ _ order window accessor =>
    [expr operand] ++ ofRowOrder order ++ ofWindow window ++ ofAccessor accessor
  | .over operand window => expr operand :: ofWindow (some window)
  | .binary _ left right => [expr left, expr right]
  | .unary _ operand => [expr operand]
  | .paren inner => [expr inner]
  | .cast _ operand _ => [expr operand]
  | .isValue operand _ _ => [expr operand]
  | .field base _ => [expr base]
  | .interval count _ => [expr count]
  | .struct _ items => structItems items
  | .extract part operand zone => [expr part, expr operand] ++ exprs zone.toList
  | .case operand branches otherwise =>
    exprs operand.toList ++ ofBranches branches ++ exprs otherwise.toList
  | .member operand _ target => expr operand :: ofMemberTarget target
  | .between operand _ low high => [expr operand, expr low, expr high]
  | .index base _ position => [expr base, expr position]

/-- The nodes directly inside a node, in the order in which they are visited. -/
def children : Node → List Node
  | script body => body.statements.map statement
  | statement body => ofAction body.action
  | function definition => ofBody definition.body
  | query body => ofCommonTables body.common ++ [setExpr body.body] ++ ofRowOrder body.order
  | commonTable table => [query table.query]
  | setExpr body => ofSetExpr body
  | select body => ofSelect body
  | selectItem item => ofSelectItem item
  | tableExpr table => ofTableExpr table
  | expr body => ofExpr body

section Size

variable {node : Node}

theorem sizeOf_le_of_mem_map {α : Type} [SizeOf α] {wrap : α → Node} {items : List α}
    (hwrap : ∀ a, sizeOf (wrap a) ≤ 1 + sizeOf a) (h : node ∈ items.map wrap) :
    sizeOf node ≤ sizeOf items := by
  obtain ⟨a, ha, rfl⟩ := List.mem_map.mp h
  have := List.sizeOf_lt_of_mem ha
  have := hwrap a
  omega

theorem sizeOf_le_of_mem_toList {α : Type} [SizeOf α] {wrap : α → Node} {o : Option α}
    (hwrap : ∀ a, sizeOf (wrap a) ≤ 1 + sizeOf a) (h : node ∈ o.toList.map wrap) :
    sizeOf node ≤ sizeOf o := by
  cases o with
  | none => simp at h
  | some a =>
    have := hwrap a
    simp_all

theorem sizeOf_le_of_mem_exprs {items : List Expr} (h : node ∈ exprs items) :
    sizeOf node ≤ sizeOf items :=
  sizeOf_le_of_mem_map (fun _ => by simp) h

theorem sizeOf_le_of_mem_optional {o : Option Expr} (h : node ∈ exprs o.toList) :
    sizeOf node ≤ sizeOf o :=
  sizeOf_le_of_mem_toList (fun _ => by simp) h

theorem sizeOf_le_of_mem_optionValues {options : List OptionItem} (h : node ∈ optionValues options) :
    sizeOf node ≤ sizeOf options :=
  sizeOf_le_of_mem_map (fun item => by cases item; simp) h

theorem sizeOf_le_of_mem_sortKeys {keys : List SortKey} (h : node ∈ sortKeys keys) :
    sizeOf node ≤ sizeOf keys :=
  sizeOf_le_of_mem_map (fun key => by cases key; simp; omega) h

theorem sizeOf_le_of_mem_structItems {items : List StructItem} (h : node ∈ structItems items) :
    sizeOf node ≤ sizeOf items :=
  sizeOf_le_of_mem_map (fun item => by cases item; simp; omega) h

theorem sizeOf_le_of_mem_replacements {items : List Replacement} (h : node ∈ replacements items) :
    sizeOf node ≤ sizeOf items :=
  sizeOf_le_of_mem_map (fun item => by cases item; simp; omega) h

theorem sizeOf_le_of_mem_ofRowOrder {order : Option RowOrder} (h : node ∈ ofRowOrder order) :
    sizeOf node ≤ sizeOf order := by
  rcases order with _ | ⟨keys, limit, offset⟩ <;>
    grind [ofRowOrder, → sizeOf_le_of_mem_sortKeys, → sizeOf_le_of_mem_optional]

theorem sizeOf_le_of_mem_ofWindow {window : Option Window} (h : node ∈ ofWindow window) :
    sizeOf node ≤ sizeOf window := by
  rcases window with _ | ⟨partition, order, frame⟩ <;>
    grind [ofWindow, → sizeOf_le_of_mem_sortKeys, → sizeOf_le_of_mem_exprs]

theorem sizeOf_le_of_mem_ofAccessor {accessor : Option Accessor} (h : node ∈ ofAccessor accessor) :
    sizeOf node ≤ sizeOf accessor := by
  rcases accessor with _ | ⟨name, position⟩ <;> grind [ofAccessor]

theorem sizeOf_le_of_mem_ofBranches {branches : List Branch} (h : node ∈ ofBranches branches) :
    sizeOf node ≤ sizeOf branches := by
  obtain ⟨branch, hmem, h⟩ := List.mem_flatMap.mp h
  have := List.sizeOf_lt_of_mem hmem
  cases branch
  grind

theorem sizeOf_le_of_mem_ofMemberTarget {target : MemberTarget} (h : node ∈ ofMemberTarget target) :
    sizeOf node ≤ sizeOf target := by
  cases target <;> grind [ofMemberTarget, → sizeOf_le_of_mem_exprs]

theorem sizeOf_le_of_mem_ofExpr {body : Expr} (h : node ∈ ofExpr body) :
    sizeOf node ≤ sizeOf body := by
  cases body <;>
    grind [ofExpr, → sizeOf_le_of_mem_exprs, → sizeOf_le_of_mem_ofRowOrder,
      → sizeOf_le_of_mem_ofWindow, → sizeOf_le_of_mem_optional, → sizeOf_le_of_mem_ofBranches,
      → sizeOf_le_of_mem_ofMemberTarget, → sizeOf_le_of_mem_ofAccessor,
      → sizeOf_le_of_mem_structItems]

theorem sizeOf_le_of_mem_ofJoinCondition {condition : Option JoinCondition}
    (h : node ∈ ofJoinCondition condition) : sizeOf node ≤ sizeOf condition := by
  rcases condition with _ | condition | columns <;> grind [ofJoinCondition]

theorem sizeOf_le_of_mem_ofTableExpr {table : TableExpr} (h : node ∈ ofTableExpr table) :
    sizeOf node ≤ sizeOf table := by
  cases table <;> grind [ofTableExpr, → sizeOf_le_of_mem_ofJoinCondition]

theorem sizeOf_le_of_mem_ofSelectItem {item : SelectItem} (h : node ∈ ofSelectItem item) :
    sizeOf node ≤ sizeOf item := by
  cases item <;> grind [ofSelectItem, → sizeOf_le_of_mem_replacements]

theorem sizeOf_le_of_mem_ofSelect {body : Select} (h : node ∈ ofSelect body) :
    sizeOf node ≤ sizeOf body := by
  obtain ⟨distinct, shape, items, source, filter, groupBy, having, qualify⟩ := body
  have hitems : node ∈ items.map selectItem → sizeOf node ≤ sizeOf items :=
    sizeOf_le_of_mem_map fun _ => by simp
  have hsource : node ∈ source.toList.map tableExpr → sizeOf node ≤ sizeOf source :=
    sizeOf_le_of_mem_toList fun _ => by simp
  grind [ofSelect, → sizeOf_le_of_mem_optional, → sizeOf_le_of_mem_exprs]

theorem sizeOf_le_of_mem_ofSetExpr {body : SetExpr} (h : node ∈ ofSetExpr body) :
    sizeOf node ≤ sizeOf body := by
  cases body <;> grind [ofSetExpr]

theorem sizeOf_le_of_mem_ofCommonTables {common : Option CommonTables}
    (h : node ∈ ofCommonTables common) : sizeOf node ≤ sizeOf common := by
  rcases common with _ | ⟨isRecursive, tables⟩
  · simp [ofCommonTables] at h
  · have : sizeOf node ≤ sizeOf tables := sizeOf_le_of_mem_map (fun _ => by simp) h
    grind

theorem sizeOf_le_of_mem_ofBody {body : FunctionBody} (h : node ∈ ofBody body) :
    sizeOf node ≤ sizeOf body := by
  cases body <;> grind [ofBody, → sizeOf_le_of_mem_optionValues]

theorem sizeOf_le_of_mem_ofInsertSource {source : InsertSource} (h : node ∈ ofInsertSource source) :
    sizeOf node ≤ sizeOf source := by
  cases source with
  | query body => grind [ofInsertSource]
  | values rows =>
    obtain ⟨row, hrow, h⟩ := List.mem_flatMap.mp h
    have := List.sizeOf_lt_of_mem hrow
    grind [→ sizeOf_le_of_mem_exprs]

theorem sizeOf_le_of_mem_ofAction {action : Action} (h : node ∈ ofAction action) :
    sizeOf node ≤ 1 + sizeOf action := by
  cases action with
  | query body => grind [ofAction]
  | createFunction definition => grind [ofAction]
  | createTable definition =>
    obtain ⟨_, _, _, _, _, options, body⟩ := definition
    have : node ∈ body.toList.map query → sizeOf node ≤ sizeOf body :=
      sizeOf_le_of_mem_toList fun _ => by simp
    grind [ofAction, → sizeOf_le_of_mem_optionValues]
  | createView definition =>
    cases definition
    grind [ofAction, → sizeOf_le_of_mem_optionValues]
  | insert insertion =>
    cases insertion
    grind [ofAction, → sizeOf_le_of_mem_ofInsertSource]

/-- What is directly inside a node is smaller than the node. -/
theorem sizeOf_lt_of_mem_children {parent : Node} (h : node ∈ parent.children) :
    sizeOf node < sizeOf parent := by
  cases parent with
  | script body =>
    cases body with
    | mk statements trailingComments =>
      have : sizeOf node ≤ sizeOf statements := sizeOf_le_of_mem_map (fun _ => by simp) h
      grind
  | statement body => cases body; grind [children, → sizeOf_le_of_mem_ofAction]
  | function definition => cases definition; grind [children, → sizeOf_le_of_mem_ofBody]
  | query body =>
    cases body
    grind [children, → sizeOf_le_of_mem_ofCommonTables, → sizeOf_le_of_mem_ofRowOrder]
  | commonTable table => cases table; grind [children]
  | setExpr body => grind [children, → sizeOf_le_of_mem_ofSetExpr]
  | select body => grind [children, → sizeOf_le_of_mem_ofSelect]
  | selectItem item => grind [children, → sizeOf_le_of_mem_ofSelectItem]
  | tableExpr table => grind [children, → sizeOf_le_of_mem_ofTableExpr]
  | expr body => grind [children, → sizeOf_le_of_mem_ofExpr]

end Size

/-- A node and the nodes inside it, each before the ones inside it. Nothing inside an opaque node is
visited. -/
def walk (isOpaque : Node → Bool) (node : Node) : List Node :=
  node :: if isOpaque node then [] else node.children.attach.flatMap fun child => walk isOpaque child.1
termination_by sizeOf node
decreasing_by exact sizeOf_lt_of_mem_children child.2

end Node

/-- Every node of a script, the script itself first. -/
def Script.nodes (script : Script) : List Node :=
  Node.walk (fun _ => false) (.script script)

end SqlLayout
