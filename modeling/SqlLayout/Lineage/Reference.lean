import SqlLayout.Syntax.Node
import SqlLayout.Text.Ascii

/-!
# Table References

The tables a statement reads and writes. Names are compared without their backquotes. A name of one
segment may stand for a common table instead: inside a query, the tables of its `WITH` can be used in the
body and in the row order, by the tables that follow them, and by themselves if the `WITH` is recursive.
-/

namespace SqlLayout

/-- The common tables that can be used at some place. -/
abbrev Scope := List String

namespace Scope

/-- Whether a name stands for a common table. -/
def resolves (scope : Scope) (name : QualifiedName) : Bool :=
  name.isSingle && scope.any fun table => Text.sameWord table name.first.unquoted

/-- Common tables, each with the scope of its own query. -/
def ofTables (isRecursive : Bool) (scope : Scope) : List CommonTable → List (Scope × Node)
  | [] => []
  | table :: tables =>
    let wider := table.name.unquoted :: scope
    (if isRecursive then wider else scope, .commonTable table) :: ofTables isRecursive wider tables

/-- The scope after all tables of a `WITH`. -/
def extend (scope : Scope) (tables : List CommonTable) : Scope :=
  tables.foldl (fun scope table => table.name.unquoted :: scope) scope

/-- The nodes directly inside a node, each with its scope. -/
def children (scope : Scope) : Node → List (Scope × Node)
  | .query ⟨some ⟨isRecursive, tables⟩, body, order⟩ =>
    ofTables isRecursive scope tables
      ++ (Node.setExpr body :: Node.ofRowOrder order).map (scope.extend tables, ·)
  | node => node.children.map (scope, ·)

theorem map_snd_ofTables (isRecursive : Bool) (scope : Scope) (tables : List CommonTable) :
    (ofTables isRecursive scope tables).map Prod.snd = tables.map Node.commonTable := by
  induction tables generalizing scope with
  | nil => rfl
  | cons table tables ih => simp [ofTables, ih]

/-- Scopes add nothing to the nodes inside a node and leave none of them out. -/
theorem map_snd_children (scope : Scope) (node : Node) :
    (scope.children node).map Prod.snd = node.children := by
  unfold children
  split
  · simp [map_snd_ofTables, Node.children, Node.ofCommonTables, Function.comp_def]
  · simp [Function.comp_def]

theorem sizeOf_lt_of_mem_children {scope inner : Scope} {node parent : Node}
    (h : (inner, node) ∈ scope.children parent) : sizeOf node < sizeOf parent := by
  apply Node.sizeOf_lt_of_mem_children
  rw [← map_snd_children scope]
  exact List.mem_map_of_mem h

end Scope

namespace Node

/-- The table a node names, unless the name stands for a common table. -/
def tableRead (scope : Scope) : Node → List String
  | tableExpr (.table name _) => if scope.resolves name then [] else [name.unquoted]
  | _ => []

/-- The tables named inside a node, in the order in which they are visited. -/
def tablesRead (scope : Scope) (node : Node) : List String :=
  node.tableRead scope
    ++ (scope.children node).attach.flatMap fun child => tablesRead child.1.1 child.1.2
termination_by sizeOf node
decreasing_by exact Scope.sizeOf_lt_of_mem_children child.2

end Node

/-- A table that is made from another one. -/
structure Dependency where
  table : String
  source : String
deriving DecidableEq, Inhabited

namespace Statement

/-- The tables a statement reads, each once. -/
def reads (statement : Statement) : List String :=
  (Node.tablesRead [] (.statement statement)).eraseDups

/-- The tables a statement writes. -/
def writes (statement : Statement) : List String :=
  statement.action.written?.toList.map QualifiedName.unquoted

/-- What a statement writes depends on everything it reads. -/
def dependencies (statement : Statement) : List Dependency :=
  statement.writes.flatMap fun table =>
    statement.reads.map fun source => { table, source }

end Statement

/-- The dependencies of all statements of a script, each once. -/
def Script.dependencies (script : Script) : List Dependency :=
  (script.statements.flatMap Statement.dependencies).eraseDups

end SqlLayout
