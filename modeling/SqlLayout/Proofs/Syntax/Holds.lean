import Mathlib.Data.List.Basic
import SqlLayout.Syntax.Node

/-!
# What Stands inside What

The pieces of a tree once more, this time field by field and in no order: which expressions, queries and
tables stand directly inside another piece, and which common tables may be used there but not around it.
A common table may be used in the body and the row order of its query and by the common tables after it,
and by itself in a recursive `WITH`. A piece at some depth may use whatever was declared on the way to it.
-/

namespace SqlLayout

section Modifiers

inductive RowOrder.Holds (order : RowOrder) : Expr → Prop
  | key {key : SortKey} (h : key ∈ order.keys) : order.Holds key.expr
  | limit {count : Expr} (h : order.limit = some count) : order.Holds count
  | offset {count : Expr} (h : order.offset = some count) : order.Holds count

inductive Window.Holds (window : Window) : Expr → Prop
  | partition {item : Expr} (h : item ∈ window.partition) : window.Holds item
  | key {key : SortKey} (h : key ∈ window.order) : window.Holds key.expr

inductive MemberTarget.Holds : MemberTarget → Node → Prop
  | item {items : List Expr} {item : Expr} (h : item ∈ items) : Holds (.list items) (.expr item)
  | query (body : Query) : Holds (.query body) (.query body)
  | array (array : Expr) : Holds (.unnest array) (.expr array)

end Modifiers

section Expressions

inductive Expr.Holds : Expr → Node → Prop
  | argument {function : QualifiedName} {distinct : Bool} {args : List Expr}
    {nulls : Option NullHandling} {arg : Expr} (h : arg ∈ args) :
    Holds (.call function distinct args nulls) (.expr arg)
  | element {type : Option SqlType} {items : List Expr} {item : Expr} (h : item ∈ items) :
    Holds (.array type items) (.expr item)
  | arrayQuery (body : Query) : Holds (.arrayQuery body) (.query body)
  | subquery (body : Query) : Holds (.subquery body) (.query body)
  | existsQuery (body : Query) : Holds (.existsQuery body) (.query body)
  | arrayAgg (distinct : Bool) (operand : Expr) (nulls : Option NullHandling) (order : Option RowOrder)
    (window : Option Window) (offset : Option Expr) :
    Holds (.arrayAgg distinct operand nulls order window offset) (.expr operand)
  | arrayAggOrder {distinct : Bool} {operand : Expr} {nulls : Option NullHandling} {order : RowOrder}
    {window : Option Window} {offset : Option Expr} {item : Expr} (h : order.Holds item) :
    Holds (.arrayAgg distinct operand nulls (some order) window offset) (.expr item)
  | arrayAggWindow {distinct : Bool} {operand : Expr} {nulls : Option NullHandling}
    {order : Option RowOrder} {window : Window} {offset : Option Expr} {item : Expr}
    (h : window.Holds item) :
    Holds (.arrayAgg distinct operand nulls order (some window) offset) (.expr item)
  | arrayAggOffset (distinct : Bool) (operand : Expr) (nulls : Option NullHandling)
    (order : Option RowOrder) (window : Option Window) (offset : Expr) :
    Holds (.arrayAgg distinct operand nulls order window (some offset)) (.expr offset)
  | stringAgg (function : StringFunction) (distinct : Bool) (operand : Expr) (delimiter : Option Constant)
    (nulls : Option NullHandling) (order : Option RowOrder) (window : Option Window)
    (accessor : Option Accessor) :
    Holds (.stringAgg function distinct operand delimiter nulls order window accessor) (.expr operand)
  | stringAggOrder {function : StringFunction} {distinct : Bool} {operand : Expr}
    {delimiter : Option Constant} {nulls : Option NullHandling} {order : RowOrder}
    {window : Option Window} {accessor : Option Accessor} {item : Expr} (h : order.Holds item) :
    Holds (.stringAgg function distinct operand delimiter nulls (some order) window accessor) (.expr item)
  | stringAggWindow {function : StringFunction} {distinct : Bool} {operand : Expr}
    {delimiter : Option Constant} {nulls : Option NullHandling} {order : Option RowOrder}
    {window : Window} {accessor : Option Accessor} {item : Expr} (h : window.Holds item) :
    Holds (.stringAgg function distinct operand delimiter nulls order (some window) accessor) (.expr item)
  | accessor (function : StringFunction) (distinct : Bool) (operand : Expr) (delimiter : Option Constant)
    (nulls : Option NullHandling) (order : Option RowOrder) (window : Option Window)
    (accessor : Accessor) :
    Holds (.stringAgg function distinct operand delimiter nulls order window (some accessor))
      (.expr accessor.position)
  | over (operand : Expr) (window : Window) : Holds (.over operand window) (.expr operand)
  | overWindow {operand : Expr} {window : Window} {item : Expr} (h : window.Holds item) :
    Holds (.over operand window) (.expr item)
  | left (op : BinaryOp) (left right : Expr) : Holds (.binary op left right) (.expr left)
  | right (op : BinaryOp) (left right : Expr) : Holds (.binary op left right) (.expr right)
  | unary (op : UnaryOp) (operand : Expr) : Holds (.unary op operand) (.expr operand)
  | paren (inner : Expr) : Holds (.paren inner) (.expr inner)
  | structItem {fields : Option (List Field)} {items : List StructItem} {item : StructItem}
    (h : item ∈ items) : Holds (.struct fields items) (.expr item.expr)
  | cast (safe : Bool) (operand : Expr) (type : SqlType) : Holds (.cast safe operand type) (.expr operand)
  | part (part operand : Expr) (zone : Option Expr) : Holds (.extract part operand zone) (.expr part)
  | extract (part operand : Expr) (zone : Option Expr) :
    Holds (.extract part operand zone) (.expr operand)
  | zone (part operand zone : Expr) : Holds (.extract part operand (some zone)) (.expr zone)
  | caseOperand (operand : Expr) (branches : List Branch) (otherwise : Option Expr) :
    Holds (.case (some operand) branches otherwise) (.expr operand)
  | condition {operand : Option Expr} {branches : List Branch} {otherwise : Option Expr} {branch : Branch}
    (h : branch ∈ branches) : Holds (.case operand branches otherwise) (.expr branch.condition)
  | result {operand : Option Expr} {branches : List Branch} {otherwise : Option Expr} {branch : Branch}
    (h : branch ∈ branches) : Holds (.case operand branches otherwise) (.expr branch.result)
  | otherwise (operand : Option Expr) (branches : List Branch) (otherwise : Expr) :
    Holds (.case operand branches (some otherwise)) (.expr otherwise)
  | interval (count : Expr) (unit : Identifier) : Holds (.interval count unit) (.expr count)
  | member (operand : Expr) (negated : Bool) (target : MemberTarget) :
    Holds (.member operand negated target) (.expr operand)
  | target {operand : Expr} {negated : Bool} {target : MemberTarget} {node : Node}
    (h : target.Holds node) : Holds (.member operand negated target) node
  | between (operand : Expr) (negated : Bool) (low high : Expr) :
    Holds (.between operand negated low high) (.expr operand)
  | low (operand : Expr) (negated : Bool) (low high : Expr) :
    Holds (.between operand negated low high) (.expr low)
  | high (operand : Expr) (negated : Bool) (low high : Expr) :
    Holds (.between operand negated low high) (.expr high)
  | isValue (operand : Expr) (negated : Bool) (value : IsValue) :
    Holds (.isValue operand negated value) (.expr operand)
  | indexed (base : Expr) (kind : Option IndexKind) (position : Expr) :
    Holds (.index base kind position) (.expr base)
  | position (base : Expr) (kind : Option IndexKind) (position : Expr) :
    Holds (.index base kind position) (.expr position)
  | field (base : Expr) (name : Identifier) : Holds (.field base name) (.expr base)

end Expressions

section Queries

inductive TableExpr.Holds : TableExpr → Node → Prop
  | subquery (body : Query) (aliasName : Option Identifier) : Holds (.subquery body aliasName) (.query body)
  | array (array : Expr) (aliasName : Option Identifier) (offset : Option (Option Identifier)) :
    Holds (.unnest array aliasName offset) (.expr array)
  | left (left : TableExpr) (kind : JoinKind) (right : TableExpr) (condition : Option JoinCondition) :
    Holds (.join left kind right condition) (.tableExpr left)
  | right (left : TableExpr) (kind : JoinKind) (right : TableExpr) (condition : Option JoinCondition) :
    Holds (.join left kind right condition) (.tableExpr right)
  | condition (left : TableExpr) (kind : JoinKind) (right : TableExpr) (test : Expr) :
    Holds (.join left kind right (some (.condition test))) (.expr test)

inductive SelectItem.Holds : SelectItem → Node → Prop
  | replacement {qualifier : Option QualifiedName} {except : List Identifier}
    {replace : List Replacement} {item : Replacement} (h : item ∈ replace) :
    Holds (.wildcard qualifier except replace) (.expr item.expr)
  | expr (body : Expr) (aliasName : Option Identifier) : Holds (.expr body aliasName) (.expr body)

inductive Select.Holds (select : Select) : Node → Prop
  | item {item : SelectItem} (h : item ∈ select.items) : select.Holds (.selectItem item)
  | source {table : TableExpr} (h : select.source = some table) : select.Holds (.tableExpr table)
  | filter {test : Expr} (h : select.filter = some test) : select.Holds (.expr test)
  | group {item : Expr} (h : item ∈ select.groupBy) : select.Holds (.expr item)
  | having {test : Expr} (h : select.having = some test) : select.Holds (.expr test)
  | qualify {test : Expr} (h : select.qualify = some test) : select.Holds (.expr test)

inductive SetExpr.Holds : SetExpr → Node → Prop
  | select (body : Select) : Holds (.select body) (.select body)
  | paren (body : Query) : Holds (.paren body) (.query body)
  | left (op : SetOperator) (quantifier : Option SetQuantifier) (left right : SetExpr) :
    Holds (.combine op quantifier left right) (.setExpr left)
  | right (op : SetOperator) (quantifier : Option SetQuantifier) (left right : SetExpr) :
    Holds (.combine op quantifier left right) (.setExpr right)

/-- All common tables a query defines. -/
def Query.tables (query : Query) : List CommonTable :=
  match query.common with
  | some common => common.tables
  | none => []

/-- What stands inside a query, and the common tables of the query that may be used there. -/
inductive Query.Holds (query : Query) : List CommonTable → Node → Prop
  | commonTable {before after : List CommonTable} {table : CommonTable}
    (h : query.common = some ⟨false, before ++ table :: after⟩) : query.Holds before (.commonTable table)
  | recursiveTable {before after : List CommonTable} {table : CommonTable}
    (h : query.common = some ⟨true, before ++ table :: after⟩) :
    query.Holds (before ++ [table]) (.commonTable table)
  | body : query.Holds query.tables (.setExpr query.body)
  | order {order : RowOrder} {item : Expr} (h : query.order = some order) (hitem : order.Holds item) :
    query.Holds query.tables (.expr item)

end Queries

section Statements

inductive FunctionBody.Holds : FunctionBody → Node → Prop
  | sql (body : Expr) : Holds (.sql body) (.expr body)
  | option {language : Identifier} {code : Constant} {options : List OptionItem} {item : OptionItem}
    (h : item ∈ options) : Holds (.foreign language code options) (.expr item.value)

inductive InsertSource.Holds : InsertSource → Node → Prop
  | query (body : Query) : Holds (.query body) (.query body)
  | value {rows : List (List Expr)} {row : List Expr} {item : Expr} (hrow : row ∈ rows) (h : item ∈ row) :
    Holds (.values rows) (.expr item)

inductive Action.Holds : Action → Node → Prop
  | query (body : Query) : Holds (.query body) (.query body)
  | function (definition : FunctionDef) : Holds (.createFunction definition) (.function definition)
  | tableOption {table : TableDef} {item : OptionItem} (h : item ∈ table.options) :
    Holds (.createTable table) (.expr item.value)
  | tableQuery {table : TableDef} {body : Query} (h : table.query = some body) :
    Holds (.createTable table) (.query body)
  | viewOption {view : ViewDef} {item : OptionItem} (h : item ∈ view.options) :
    Holds (.createView view) (.expr item.value)
  | viewQuery (view : ViewDef) : Holds (.createView view) (.query view.query)
  | source {insertion : Insertion} {node : Node} (h : insertion.source.Holds node) :
    Holds (.insert insertion) node

end Statements

namespace Node

/-- A node directly inside another one, and the common tables that may be used there but not outside. -/
inductive Holds : Node → List CommonTable → Node → Prop
  | script {body : Script} {inner : Statement} (h : inner ∈ body.statements) :
    Holds (.script body) [] (.statement inner)
  | statement {body : Statement} {node : Node} (h : body.action.Holds node) : Holds (.statement body) [] node
  | function {definition : FunctionDef} {node : Node} (h : definition.body.Holds node) :
    Holds (.function definition) [] node
  | query {body : Query} {tables : List CommonTable} {node : Node} (h : body.Holds tables node) :
    Holds (.query body) tables node
  | commonTable (table : CommonTable) : Holds (.commonTable table) [] (.query table.query)
  | setExpr {body : SetExpr} {node : Node} (h : body.Holds node) : Holds (.setExpr body) [] node
  | select {body : Select} {node : Node} (h : body.Holds node) : Holds (.select body) [] node
  | selectItem {item : SelectItem} {node : Node} (h : item.Holds node) : Holds (.selectItem item) [] node
  | tableExpr {table : TableExpr} {node : Node} (h : table.Holds node) : Holds (.tableExpr table) [] node
  | expr {body : Expr} {node : Node} (h : body.Holds node) : Holds (.expr body) [] node

/-- A node at any depth inside another one, and the common tables that have been declared on the way. -/
inductive Contains : Node → List CommonTable → Node → Prop
  | here (node : Node) : Contains node [] node
  | inside {parent child node : Node} {tables inner : List CommonTable} (h : parent.Holds tables child)
    (hnode : child.Contains inner node) : Contains parent (tables ++ inner) node

end Node

section Children

variable {node : Node}

theorem RowOrder.mem_ofRowOrder {order : Option RowOrder} :
    node ∈ Node.ofRowOrder order ↔
      ∃ found item, order = some found ∧ found.Holds item ∧ node = .expr item := by
  cases order with
  | none => simp [Node.ofRowOrder]
  | some order =>
    simp only [Node.ofRowOrder, Node.sortKeys, Node.exprs, List.mem_append, List.mem_map, Option.mem_toList,
      Option.some.injEq, exists_and_left, exists_eq_left']
    constructor
    · rintro ((⟨key, h, rfl⟩ | ⟨item, h, rfl⟩) | ⟨item, h, rfl⟩)
      · exact ⟨_, .key h, rfl⟩
      · exact ⟨_, .limit h, rfl⟩
      · exact ⟨_, .offset h, rfl⟩
    · rintro ⟨_, ⟨h⟩ | h | h, rfl⟩
      · exact .inl (.inl ⟨_, h, rfl⟩)
      · exact .inl (.inr ⟨_, h, rfl⟩)
      · exact .inr ⟨_, h, rfl⟩

theorem Window.mem_ofWindow {window : Option Window} :
    node ∈ Node.ofWindow window ↔
      ∃ found item, window = some found ∧ found.Holds item ∧ node = .expr item := by
  cases window with
  | none => simp [Node.ofWindow]
  | some window =>
    simp only [Node.ofWindow, Node.sortKeys, Node.exprs, List.mem_append, List.mem_map,
      Option.some.injEq, exists_and_left, exists_eq_left']
    constructor
    · rintro (⟨item, h, rfl⟩ | ⟨key, h, rfl⟩)
      · exact ⟨_, .partition h, rfl⟩
      · exact ⟨_, .key h, rfl⟩
    · rintro ⟨_, h | ⟨h⟩, rfl⟩
      · exact .inl ⟨_, h, rfl⟩
      · exact .inr ⟨_, h, rfl⟩

theorem Accessor.mem_ofAccessor {accessor : Option Accessor} :
    node ∈ Node.ofAccessor accessor ↔ ∃ found, accessor = some found ∧ node = .expr found.position := by
  cases accessor <;> simp [Node.ofAccessor]

theorem MemberTarget.holds_iff {target : MemberTarget} :
    target.Holds node ↔ node ∈ Node.ofMemberTarget target := by
  constructor
  · rintro (h | _ | _) <;> simp_all [Node.ofMemberTarget, Node.exprs]
  · intro h
    cases target with
    | list items =>
      obtain ⟨item, hitem, rfl⟩ := List.mem_map.mp h
      exact .item hitem
    | query body =>
      obtain rfl := List.mem_singleton.mp h
      exact .query body
    | unnest array =>
      obtain rfl := List.mem_singleton.mp h
      exact .array array

theorem Expr.holds_iff {body : Expr} : body.Holds node ↔ node ∈ Node.ofExpr body := by
  constructor
  · intro h
    cases h <;>
      simp only [Node.ofExpr, Node.exprs, Node.structItems, Node.ofBranches, Accessor.mem_ofAccessor,
        RowOrder.mem_ofRowOrder, Window.mem_ofWindow, ← MemberTarget.holds_iff, List.mem_append,
        List.mem_cons, List.mem_map, List.mem_flatMap, List.not_mem_nil, Option.mem_toList] <;>
      grind
  · intro h
    cases body <;>
      simp only [Node.ofExpr, Node.exprs, Node.structItems, Node.ofBranches, Accessor.mem_ofAccessor,
        RowOrder.mem_ofRowOrder, Window.mem_ofWindow, ← MemberTarget.holds_iff, List.mem_append,
        List.mem_cons, List.mem_map, List.mem_flatMap, List.not_mem_nil, Option.mem_toList] at h <;>
      grind [Expr.Holds]

theorem TableExpr.holds_iff {table : TableExpr} : table.Holds node ↔ node ∈ Node.ofTableExpr table := by
  constructor
  · intro h
    cases h <;> simp [Node.ofTableExpr, Node.ofJoinCondition]
  · intro h
    cases table with
    | table name aliasName => simp [Node.ofTableExpr] at h
    | subquery body aliasName =>
      obtain rfl := List.mem_singleton.mp h
      exact .subquery body aliasName
    | unnest array aliasName offset =>
      obtain rfl := List.mem_singleton.mp h
      exact .array array aliasName offset
    | join left kind right condition =>
      rcases List.mem_append.mp h with h | h
      · rcases List.mem_pair.mp h with rfl | rfl
        · exact .left left kind right condition
        · exact .right left kind right condition
      · rcases condition with _ | test | columns
        · simp [Node.ofJoinCondition] at h
        · obtain rfl := List.mem_singleton.mp h
          exact .condition left kind right test
        · simp [Node.ofJoinCondition] at h

theorem SelectItem.holds_iff {item : SelectItem} : item.Holds node ↔ node ∈ Node.ofSelectItem item := by
  constructor
  · intro h
    cases h with
    | replacement h => exact List.mem_map_of_mem h
    | expr body aliasName => exact List.mem_singleton_self _
  · intro h
    cases item with
    | wildcard qualifier except replace =>
      obtain ⟨item, hitem, rfl⟩ := List.mem_map.mp h
      exact .replacement hitem
    | expr body aliasName =>
      obtain rfl := List.mem_singleton.mp h
      exact .expr body aliasName

theorem Select.holds_iff {select : Select} : select.Holds node ↔ node ∈ Node.ofSelect select := by
  simp only [Node.ofSelect, Node.exprs, List.mem_append, List.mem_map, Option.mem_toList]
  constructor
  · rintro (h | h | h | h | h | h) <;> grind
  · grind [Select.Holds]

theorem SetExpr.holds_iff {body : SetExpr} : body.Holds node ↔ node ∈ Node.ofSetExpr body := by
  constructor
  · rintro (_ | _ | _ | _) <;> simp [Node.ofSetExpr]
  · cases body <;> grind [Node.ofSetExpr, SetExpr.Holds]

theorem FunctionBody.holds_iff {body : FunctionBody} : body.Holds node ↔ node ∈ Node.ofBody body := by
  constructor
  · intro h
    cases h with
    | sql body => exact List.mem_singleton_self _
    | option h => exact List.mem_map_of_mem h
  · intro h
    cases body with
    | sql body =>
      obtain rfl := List.mem_singleton.mp h
      exact .sql body
    | foreign language code options =>
      obtain ⟨item, hitem, rfl⟩ := List.mem_map.mp h
      exact .option hitem

theorem InsertSource.holds_iff {source : InsertSource} :
    source.Holds node ↔ node ∈ Node.ofInsertSource source := by
  constructor
  · intro h
    cases h with
    | query body => exact List.mem_singleton_self _
    | value hrow h => exact List.mem_flatMap.mpr ⟨_, hrow, List.mem_map_of_mem h⟩
  · intro h
    cases source with
    | query body =>
      obtain rfl := List.mem_singleton.mp h
      exact .query body
    | values rows =>
      obtain ⟨row, hrow, h⟩ := List.mem_flatMap.mp h
      obtain ⟨item, hitem, rfl⟩ := List.mem_map.mp h
      exact .value hrow hitem

theorem Action.holds_iff {action : Action} : action.Holds node ↔ node ∈ Node.ofAction action := by
  constructor
  · intro h
    cases h <;> grind [Node.ofAction, Node.optionValues, InsertSource.holds_iff]
  · intro h
    cases action <;> grind [Node.ofAction, Node.optionValues, InsertSource.holds_iff, Action.Holds]

theorem Query.exists_holds_iff {query : Query} :
    (∃ tables, query.Holds tables node) ↔ node ∈ (Node.query query).children := by
  obtain ⟨common, body, order⟩ := query
  constructor
  · rintro ⟨_, ⟨rfl⟩ | ⟨rfl⟩ | _ | ⟨rfl, hitem⟩⟩ <;>
      simp_all [Node.children, Node.ofCommonTables, RowOrder.mem_ofRowOrder]
  · simp only [Node.children, List.mem_append, List.mem_singleton]
    rintro ((h | rfl) | h)
    · rcases common with _ | ⟨isRecursive, tables⟩
      · simp [Node.ofCommonTables] at h
      · obtain ⟨table, htable, rfl⟩ := List.mem_map.mp h
        obtain ⟨before, after, rfl⟩ := List.append_of_mem htable
        cases isRecursive with
        | false => exact ⟨_, .commonTable rfl⟩
        | true => exact ⟨_, .recursiveTable rfl⟩
    · exact ⟨_, .body⟩
    · obtain ⟨order, item, rfl, hitem, rfl⟩ := RowOrder.mem_ofRowOrder.mp h
      exact ⟨_, .order rfl hitem⟩

/-- What stands inside a node is what a walk of the tree visits there. -/
theorem Node.exists_holds_iff {parent : Node} :
    (∃ tables, parent.Holds tables node) ↔ node ∈ parent.children := by
  constructor
  · rintro ⟨tables, h⟩
    cases h with
    | script h => exact List.mem_map_of_mem h
    | statement h => exact Action.holds_iff.mp h
    | function h => exact FunctionBody.holds_iff.mp h
    | query h => exact Query.exists_holds_iff.mp ⟨_, h⟩
    | commonTable table => exact List.mem_singleton_self _
    | setExpr h => exact SetExpr.holds_iff.mp h
    | select h => exact Select.holds_iff.mp h
    | selectItem h => exact SelectItem.holds_iff.mp h
    | tableExpr h => exact TableExpr.holds_iff.mp h
    | expr h => exact Expr.holds_iff.mp h
  · intro h
    cases parent with
    | script body =>
      obtain ⟨inner, hinner, rfl⟩ := List.mem_map.mp h
      exact ⟨_, .script hinner⟩
    | statement body => exact ⟨_, .statement (Action.holds_iff.mpr h)⟩
    | function definition => exact ⟨_, .function (FunctionBody.holds_iff.mpr h)⟩
    | query body =>
      obtain ⟨tables, h⟩ := Query.exists_holds_iff.mpr h
      exact ⟨tables, .query h⟩
    | commonTable table =>
      obtain rfl := List.mem_singleton.mp h
      exact ⟨_, .commonTable table⟩
    | setExpr body => exact ⟨_, .setExpr (SetExpr.holds_iff.mpr h)⟩
    | select body => exact ⟨_, .select (Select.holds_iff.mpr h)⟩
    | selectItem item => exact ⟨_, .selectItem (SelectItem.holds_iff.mpr h)⟩
    | tableExpr table => exact ⟨_, .tableExpr (TableExpr.holds_iff.mpr h)⟩
    | expr body => exact ⟨_, .expr (Expr.holds_iff.mpr h)⟩

end Children

end SqlLayout
