import Mathlib.Data.List.Nodup
import Mathlib.Data.List.Perm.Basic
import SqlLayout.Proofs.Syntax.Holds

/-!
# Places in a Tree

Where a node stands in a tree, said without regard to any traversal: a node has named slots, a slot holds a
list of nodes, and a place is the way from the root down to a node, by the slot and the index there at each
step. Two nodes that look the same still stand at different places.
-/

namespace SqlLayout

/-- The slots of all nodes. -/
inductive Slot where
  | statements | definition | commonTables | select | items | source | filter | having | qualify | groupBy
  | options | body | left | right | component | operand | low | high | conditions | results | otherwise
  | elements | query | array | joinCondition | sortKeys | limit | offset | partition | windowKeys | position
  | zone
deriving DecidableEq

namespace Slot

def all : List Slot :=
  [statements, definition, commonTables, select, items, source, filter, having, qualify, groupBy, options,
   body, left, right, component, operand, low, high, conditions, results, otherwise, elements, query, array,
   joinCondition, sortKeys, limit, offset, partition, windowKeys, position, zone]

theorem mem_all (slot : Slot) : slot ∈ all := by
  cases slot <;> decide

theorem nodup_all : all.Nodup := by
  decide

end Slot

section Contents

def RowOrder.contents (order : RowOrder) : Slot → List Node
  | .sortKeys => order.keys.map fun key => .expr key.expr
  | .limit => order.limit.toList.map .expr
  | .offset => order.offset.toList.map .expr
  | _ => []

def Window.contents (window : Window) : Slot → List Node
  | .partition => window.partition.map .expr
  | .windowKeys => window.order.map fun key => .expr key.expr
  | _ => []

def MemberTarget.contents : MemberTarget → Slot → List Node
  | .list items, .elements => items.map .expr
  | .query body, .query => [.query body]
  | .unnest array, .array => [.expr array]
  | _, _ => []

def Expr.contents : Expr → Slot → List Node
  | .call _ _ args _, .elements => args.map .expr
  | .array _ items, .elements => items.map .expr
  | .arrayQuery body, .query => [.query body]
  | .arrayAgg _ operand _ _ _ _, .operand => [.expr operand]
  | .arrayAgg _ _ _ _ _ offset, .position => offset.toList.map .expr
  | .arrayAgg _ _ _ order window _, slot =>
    order.toList.flatMap (·.contents slot) ++ window.toList.flatMap (·.contents slot)
  | .stringAgg _ _ operand _ _ _ _ _, .operand => [.expr operand]
  | .stringAgg _ _ _ _ _ _ _ accessor, .position => accessor.toList.map fun found => .expr found.position
  | .stringAgg _ _ _ _ _ order window _, slot =>
    order.toList.flatMap (·.contents slot) ++ window.toList.flatMap (·.contents slot)
  | .over operand _, .operand => [.expr operand]
  | .over _ window, slot => window.contents slot
  | .binary _ left _, .left => [.expr left]
  | .binary _ _ right, .right => [.expr right]
  | .unary _ operand, .operand => [.expr operand]
  | .paren inner, .operand => [.expr inner]
  | .subquery body, .query => [.query body]
  | .existsQuery body, .query => [.query body]
  | .struct _ items, .elements => items.map fun item => .expr item.expr
  | .cast _ operand _, .operand => [.expr operand]
  | .extract component _ _, .component => [.expr component]
  | .extract _ operand _, .operand => [.expr operand]
  | .extract _ _ zone, .zone => zone.toList.map .expr
  | .case operand _ _, .operand => operand.toList.map .expr
  | .case _ branches _, .conditions => branches.map fun branch => .expr branch.condition
  | .case _ branches _, .results => branches.map fun branch => .expr branch.result
  | .case _ _ otherwise, .otherwise => otherwise.toList.map .expr
  | .interval count _, .operand => [.expr count]
  | .member operand _ _, .operand => [.expr operand]
  | .member _ _ target, slot => target.contents slot
  | .between operand _ _ _, .operand => [.expr operand]
  | .between _ _ low _, .low => [.expr low]
  | .between _ _ _ high, .high => [.expr high]
  | .isValue operand _ _, .operand => [.expr operand]
  | .index base _ _, .operand => [.expr base]
  | .index _ _ position, .position => [.expr position]
  | .field base _, .operand => [.expr base]
  | _, _ => []

def TableExpr.contents : TableExpr → Slot → List Node
  | .subquery body _, .query => [.query body]
  | .unnest array _ _, .array => [.expr array]
  | .join left _ _ _, .left => [.tableExpr left]
  | .join _ _ right _, .right => [.tableExpr right]
  | .join _ _ _ (some (.condition test)), .joinCondition => [.expr test]
  | _, _ => []

def SelectItem.contents : SelectItem → Slot → List Node
  | .wildcard _ _ replace, .elements => replace.map fun item => .expr item.expr
  | .expr body _, .operand => [.expr body]
  | _, _ => []

def Select.contents (select : Select) : Slot → List Node
  | .items => select.items.map .selectItem
  | .source => select.source.toList.map .tableExpr
  | .filter => select.filter.toList.map .expr
  | .groupBy => select.groupBy.map .expr
  | .having => select.having.toList.map .expr
  | .qualify => select.qualify.toList.map .expr
  | _ => []

def SetExpr.contents : SetExpr → Slot → List Node
  | .select body, .select => [.select body]
  | .paren body, .query => [.query body]
  | .combine _ _ left _, .left => [.setExpr left]
  | .combine _ _ _ right, .right => [.setExpr right]
  | _, _ => []

def Query.contents (query : Query) : Slot → List Node
  | .commonTables => query.common.toList.flatMap fun common => common.tables.map .commonTable
  | .body => [.setExpr query.body]
  | slot => query.order.toList.flatMap (·.contents slot)

def FunctionBody.contents : FunctionBody → Slot → List Node
  | .sql body, .body => [.expr body]
  | .foreign _ _ options, .options => options.map fun item => .expr item.value
  | _, _ => []

/-- The values of an insertion are counted through all of its rows. -/
def InsertSource.contents : InsertSource → Slot → List Node
  | .query body, .query => [.query body]
  | .values rows, .elements => rows.flatten.map .expr
  | _, _ => []

def Action.contents : Action → Slot → List Node
  | .query body, .query => [.query body]
  | .createFunction definition, .definition => [.function definition]
  | .createTable table, .options => table.options.map fun item => .expr item.value
  | .createTable table, .query => table.query.toList.map .query
  | .createView view, .options => view.options.map fun item => .expr item.value
  | .createView view, .query => [.query view.query]
  | .insert insertion, slot => insertion.source.contents slot
  | _, _ => []

end Contents

namespace Node

/-- What stands in a slot of a node. -/
def contents : Node → Slot → List Node
  | script body, .statements => body.statements.map statement
  | statement body, slot => body.action.contents slot
  | function definition, slot => definition.body.contents slot
  | query body, slot => body.contents slot
  | commonTable table, .query => [query table.query]
  | setExpr body, slot => body.contents slot
  | select body, slot => body.contents slot
  | selectItem item, slot => item.contents slot
  | tableExpr table, slot => table.contents slot
  | expr body, slot => body.contents slot
  | _, _ => []

end Node

section Children

attribute [local simp] Slot.all RowOrder.contents Window.contents Node.exprs Node.sortKeys Node.optionValues
  Node.ofRowOrder Node.ofWindow

theorem MemberTarget.flatMap_contents (target : MemberTarget) :
    Slot.all.flatMap target.contents = Node.ofMemberTarget target := by
  cases target <;> simp [MemberTarget.contents, Node.ofMemberTarget]

/-- A walk goes through a `CASE` branch by branch, from the condition to the result. -/
theorem perm_ofBranches (branches : List Branch) :
    (branches.map (fun branch => Node.expr branch.condition) ++
      branches.map fun branch => Node.expr branch.result).Perm (Node.ofBranches branches) := by
  have hperm := List.map_append_flatMap_perm branches (fun branch => Node.expr branch.condition)
    fun branch => [Node.expr branch.result]
  rwa [← List.map_eq_flatMap] at hperm

theorem Expr.perm_ofExpr (body : Expr) : (Slot.all.flatMap body.contents).Perm (Node.ofExpr body) := by
  cases body with
  | arrayAgg _ _ _ order window _ =>
    cases order <;> cases window <;> simp [Expr.contents, Node.ofExpr]
  | stringAgg _ _ _ _ _ order window accessor =>
    cases order <;> cases window <;> cases accessor <;> simp [Expr.contents, Node.ofExpr, Node.ofAccessor]
  | case operand branches otherwise =>
    have hperm := ((perm_ofBranches branches).append_right (Node.exprs otherwise.toList)).append_left
      (Node.exprs operand.toList)
    simpa [Expr.contents, Node.ofExpr] using hperm
  | member operand negated target =>
    have hslots : Slot.all.flatMap (Expr.member operand negated target).contents =
        .expr operand :: Slot.all.flatMap target.contents := by
      cases target <;> simp [Expr.contents, MemberTarget.contents]
    rw [hslots, target.flatMap_contents]
    exact .rfl
  | _ => simp [Expr.contents, Node.ofExpr, Node.structItems]

theorem TableExpr.flatMap_contents (table : TableExpr) :
    Slot.all.flatMap table.contents = Node.ofTableExpr table := by
  cases table with
  | join left kind right condition =>
    rcases condition with _ | _ | _ <;> simp [TableExpr.contents, Node.ofTableExpr, Node.ofJoinCondition]
  | _ => simp [TableExpr.contents, Node.ofTableExpr]

theorem SelectItem.flatMap_contents (item : SelectItem) :
    Slot.all.flatMap item.contents = Node.ofSelectItem item := by
  cases item <;> simp [SelectItem.contents, Node.ofSelectItem, Node.replacements]

theorem Select.flatMap_contents (select : Select) :
    Slot.all.flatMap select.contents = Node.ofSelect select := by
  simp [Select.contents, Node.ofSelect]

theorem SetExpr.flatMap_contents (body : SetExpr) : Slot.all.flatMap body.contents = Node.ofSetExpr body := by
  cases body <;> simp [SetExpr.contents, Node.ofSetExpr]

theorem Query.flatMap_contents (query : Query) :
    Slot.all.flatMap query.contents = (Node.query query).children := by
  obtain ⟨common, body, order⟩ := query
  cases common <;> cases order <;> simp [Query.contents, Node.children, Node.ofCommonTables]

theorem FunctionBody.flatMap_contents (body : FunctionBody) :
    Slot.all.flatMap body.contents = Node.ofBody body := by
  cases body <;> simp [FunctionBody.contents, Node.ofBody]

theorem InsertSource.flatMap_contents (source : InsertSource) :
    Slot.all.flatMap source.contents = Node.ofInsertSource source := by
  cases source with
  | query body => simp [InsertSource.contents, Node.ofInsertSource]
  | values rows =>
    have hrows : rows.flatten.map Node.expr = rows.flatMap Node.exprs := List.map_flatten
    simp only [Slot.all, InsertSource.contents, Node.ofInsertSource, hrows, List.flatMap_cons, List.flatMap_nil,
      List.nil_append, List.append_nil]

theorem Action.flatMap_contents (action : Action) :
    Slot.all.flatMap action.contents = Node.ofAction action := by
  cases action with
  | insert insertion => exact insertion.source.flatMap_contents
  | _ => simp [Action.contents, Node.ofAction]

/-- The slots of a node together hold what a walk visits right inside it. -/
theorem Node.perm_children (node : Node) : (Slot.all.flatMap node.contents).Perm node.children := by
  cases node with
  | script body => simp [Node.contents, Node.children]
  | statement body => exact .of_eq body.action.flatMap_contents
  | function definition => exact .of_eq definition.body.flatMap_contents
  | query body => exact .of_eq body.flatMap_contents
  | commonTable table => simp [Node.contents, Node.children]
  | setExpr body => exact .of_eq body.flatMap_contents
  | select body => exact .of_eq body.flatMap_contents
  | selectItem item => exact .of_eq item.flatMap_contents
  | tableExpr table => exact .of_eq table.flatMap_contents
  | expr body => exact body.perm_ofExpr

end Children

/-- One step from a node to a node right inside it: a slot, and an index there. -/
abbrev Step := Slot × Nat

/-- The steps from the root of a tree to a node. -/
abbrev Place := List Step

namespace Node

def step? (node : Node) (step : Step) : Option Node :=
  (node.contents step.1)[step.2]?

/-- The node at a place. -/
def at? : Node → Place → Option Node
  | node, [] => some node
  | node, step :: place => (node.step? step).bind (·.at? place)

variable {node root child : Node}

theorem exists_step?_iff :
    (∃ step, node.step? step = some child) ↔ ∃ tables, node.Holds tables child := by
  have hslot (slot : Slot) : (∃ index, node.step? (slot, index) = some child) ↔ child ∈ node.contents slot := by
    rw [List.mem_iff_getElem?]
    rfl
  rw [exists_holds_iff, ← node.perm_children.mem_iff, List.mem_flatMap, Prod.exists]
  simp only [hslot, Slot.mem_all, true_and]

/-- The places of a tree are those of all nodes inside it. -/
theorem exists_at?_iff : (∃ place, root.at? place = some node) ↔ ∃ tables, root.Contains tables node := by
  constructor
  · rintro ⟨place, hplace⟩
    induction place generalizing root with
    | nil =>
      cases hplace
      exact ⟨[], .here _⟩
    | cons step place ih =>
      obtain ⟨child, hchild, hnode⟩ := Option.bind_eq_some_iff.mp hplace
      obtain ⟨tables, hholds⟩ := exists_step?_iff.mp ⟨step, hchild⟩
      obtain ⟨inner, hcontains⟩ := ih hnode
      exact ⟨tables ++ inner, .inside hholds hcontains⟩
  · rintro ⟨tables, hcontains⟩
    induction hcontains with
    | here node => exact ⟨[], rfl⟩
    | inside hholds _ ih =>
      obtain ⟨step, hstep⟩ := exists_step?_iff.mpr ⟨_, hholds⟩
      obtain ⟨place, hplace⟩ := ih
      exact ⟨step :: place, Option.bind_eq_some_iff.mpr ⟨_, hstep, hplace⟩⟩

/-- The steps from a node, each once, in the order of the nodes they lead to. -/
structure IsEnteredBy (node : Node) (steps : List Step) (children : List Node) : Prop where
  nodup : steps.Nodup
  mem_iff (step : Step) : step ∈ steps ↔ (node.step? step).isSome
  leads : List.Forall₂ (fun step child => node.step? step = some child) steps children

def stepsInto (node : Node) (slot : Slot) : List Step :=
  (List.range (node.contents slot).length).map (slot, ·)

theorem mem_stepsInto {slot : Slot} {step : Step} :
    step ∈ node.stepsInto slot ↔ step.1 = slot ∧ (node.step? step).isSome := by
  obtain ⟨found, index⟩ := step
  simp only [stepsInto, List.mem_map, List.mem_range, Prod.mk.injEq, exists_eq_right_right, step?]
  constructor
  · rintro ⟨hindex, rfl⟩
    simpa using hindex
  · rintro ⟨rfl, hsome⟩
    simpa using hsome

theorem forall₂_stepsInto (slot : Slot) :
    List.Forall₂ (fun step child => node.step? step = some child) (node.stepsInto slot)
      (node.contents slot) := by
  rw [stepsInto, List.forall₂_map_left_iff, List.forall₂_iff_get]
  simp [step?]

theorem isEnteredBy_flatMap (node : Node) :
    node.IsEnteredBy (Slot.all.flatMap node.stepsInto) (Slot.all.flatMap node.contents) := by
  refine ⟨List.nodup_flatMap.mpr ⟨fun slot _ => ?_, ?_⟩, fun step => ?_, ?_⟩
  · exact (List.nodup_range).map fun _ _ h => (Prod.mk.inj h).2
  · refine Slot.nodup_all.imp fun hne step hstep hother => hne ?_
    exact (mem_stepsInto.mp hstep).1.symm.trans (mem_stepsInto.mp hother).1
  · simp [List.mem_flatMap, mem_stepsInto, Slot.mem_all]
  · refine List.rel_flatMap (List.forall₂_same.mpr fun _ _ => rfl) ?_
    rintro slot _ rfl
    exact forall₂_stepsInto slot

/-- A walk enters each node right inside another one by a step of its own. -/
theorem exists_isEnteredBy (node : Node) : ∃ steps, node.IsEnteredBy steps node.children := by
  have hslots := node.isEnteredBy_flatMap
  obtain ⟨steps, hleads, hperm⟩ := List.perm_comp_forall₂ node.perm_children.symm hslots.leads.flip
  exact ⟨steps, hperm.nodup_iff.mpr hslots.nodup, fun step => hperm.mem_iff.trans (hslots.mem_iff step),
    hleads.flip⟩

end Node

end SqlLayout
