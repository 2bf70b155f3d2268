import SqlLayout.Syntax.Node

/-!
# Levels of Operators

Operators bind by level, from `OR` on the first one to subscripts and fields on the last. An expression
has the level of the operator it was put together by last, and the highest one if there is none.
-/

namespace SqlLayout

def BinaryOp.level : BinaryOp → Nat
  | or => 1
  | and => 2
  | eq | notEq | ltGt | lt | ltEq | gt | gtEq | like | notLike => 4
  | bitOr => 5
  | bitXor => 6
  | bitAnd => 7
  | shiftLeft | shiftRight => 8
  | plus | minus => 9
  | multiply | divide | concat => 10

def UnaryOp.level : UnaryOp → Nat
  | not => 3
  | minus | plus | bitNot => 11

theorem BinaryOp.level_le (op : BinaryOp) : op.level ≤ 10 := by
  cases op <;> decide

theorem UnaryOp.level_le (op : UnaryOp) : op.level ≤ 11 := by
  cases op <;> decide

namespace Expr

/-- The star of a call is no operand, so it is below every level. -/
def level : Expr → Nat
  | star => 0
  | binary op _ _ => op.level
  | unary op _ => op.level
  | member _ _ _ | between _ _ _ _ | isValue _ _ _ => 4
  | _ => 12

/-- The levels an expression asks of the operands right inside it. -/
def BindsByLevel : Expr → Prop
  | binary op left right => op.level ≤ left.level ∧ op.level < right.level
  | unary op operand => op.level ≤ operand.level
  | interval count _ => 11 ≤ count.level
  | member operand _ _ => 4 ≤ operand.level
  | between operand _ low high => 4 ≤ operand.level ∧ 5 ≤ low.level ∧ 5 ≤ high.level
  | isValue operand _ _ => 4 ≤ operand.level
  | index base _ _ | field base _ => base.level = 12
  | _ => True

end Expr

namespace Node

/-- The nodes of a tree, without any that are opaque. -/
def all (node : Node) : List Node :=
  walk (fun _ => false) node

theorem all_eq (node : Node) : node.all = node :: node.children.flatMap all := by
  unfold all
  rw [walk]
  simp

theorem mem_all_iff {node inner : Node} :
    inner ∈ node.all ↔ inner = node ∨ ∃ child ∈ node.children, inner ∈ child.all := by
  rw [all_eq, List.mem_cons, List.mem_flatMap]

end Node

end SqlLayout
