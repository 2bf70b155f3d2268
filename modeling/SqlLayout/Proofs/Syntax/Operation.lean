import SqlLayout.Proofs.Syntax.Nesting
import SqlLayout.Proofs.Syntax.Sound

/-!
# Operations

Expressions put together from numbers and plain names by operators, parentheses and lists alone. Such an
expression is arranged within a number of levels if its operands bind tightly enough and it nests no
deeper.
-/

namespace SqlLayout

open Token Token.Scan

namespace Expr

inductive IsOperation : Expr → Prop
  | number {text : String} (h : IsNumber text.toList) : IsOperation (.constant { kind := .number, text })
  | name {raw : String} (h : IsWord raw.toList) (hreserved : Keyword.isReserved raw = false) :
    IsOperation (.name { first := { raw } })
  | paren {inner : Expr} (h : inner.IsOperation) : IsOperation (.paren inner)
  | unary (op : UnaryOp) {operand : Expr} (h : operand.IsOperation) : IsOperation (.unary op operand)
  | binary (op : BinaryOp) {left right : Expr} (hleft : left.IsOperation) (hright : right.IsOperation) :
    IsOperation (.binary op left right)
  | between (isNegated : Bool) {operand low high : Expr} (h : operand.IsOperation)
    (hlow : low.IsOperation) (hhigh : high.IsOperation) :
    IsOperation (.between operand isNegated low high)
  | isValue (isNegated : Bool) (value : IsValue) {operand : Expr} (h : operand.IsOperation) :
    IsOperation (.isValue operand isNegated value)
  | member (isNegated : Bool) {operand : Expr} {items : List Expr} (h : operand.IsOperation)
    (hne : items ≠ []) (hitems : ∀ item ∈ items, item.IsOperation) :
    IsOperation (.member operand isNegated (.list items))

/-- Every node of an expression asks of its operands what their levels give. -/
def BindsThroughout (expr : Expr) : Prop :=
  ∀ inner, Node.expr inner ∈ (Node.expr expr).all → inner.BindsByLevel

/-- Whether an expression starts with no other expression. -/
def isLeading : Expr → Bool
  | .constant _ | .name _ | .paren _ | .unary _ _ => true
  | _ => false

/-- What a name or a literal adds where it is no operand is one level, as for all others. -/
def wholeNesting (expr : Expr) : Nat :=
  expr.whole { leaf := 1 } (expr.nesting { leaf := 1 })

variable {expr inner : Expr}

theorem IsOperation.one_le_level (h : expr.IsOperation) : 1 ≤ expr.level := by
  cases h with
  | unary op => cases op <;> simp [level, UnaryOp.level]
  | binary op => cases op <;> simp [level, BinaryOp.level]
  | _ => simp [level]

theorem IsOperation.one_le_wholeNesting (h : expr.IsOperation) : 1 ≤ expr.wholeNesting := by
  cases h <;> simp [wholeNesting, whole]

theorem nesting_le_of_wholeNesting {levels : Nat} (h : expr.wholeNesting ≤ levels + 1) :
    expr.nesting { leaf := 1 } ≤ levels := by
  cases expr with
  | constant | name | star => exact Nat.zero_le levels
  | _ => exact Nat.le_of_succ_le_succ h

theorem BindsThroughout.here (h : expr.BindsThroughout) : expr.BindsByLevel :=
  h expr (Node.mem_all_iff.mpr (.inl rfl))

theorem BindsThroughout.child (h : expr.BindsThroughout)
    (hchild : Node.expr inner ∈ (Node.expr expr).children) : inner.BindsThroughout := fun other hother =>
  h other (Node.mem_all_iff.mpr (.inr ⟨.expr inner, hchild, hother⟩))

theorem IsOperation.of_mem_children (h : expr.IsOperation) :
    ∀ child ∈ (Node.expr expr).children, ∃ inner, child = .expr inner ∧ inner.IsOperation := by
  cases h <;> simp_all [Node.children, Node.ofExpr, Node.ofMemberTarget, Node.exprs]

/-- There is nothing but operations in an operation. -/
theorem IsOperation.of_mem_all {expr : Expr} (h : expr.IsOperation) {node : Node}
    (hnode : node ∈ (Node.expr expr).all) : ∃ inner, node = .expr inner ∧ inner.IsOperation := by
  rcases Node.mem_all_iff.mp hnode with rfl | ⟨child, hchild, hnode⟩
  · exact ⟨expr, rfl, h⟩
  · obtain ⟨inner, rfl, hinner⟩ := h.of_mem_children child hchild
    exact hinner.of_mem_all hnode
termination_by sizeOf expr
decreasing_by
  have hsize := Node.sizeOf_lt_of_mem_children hchild
  simpa using hsize

theorem IsOperation.isLocallySound (h : expr.IsOperation) : expr.IsLocallySound := by
  cases h with
  | number h => exact h
  | name h hreserved => exact ⟨.inl ⟨h, hreserved⟩, by simp⟩
  | paren h => exact ⟨h.one_le_level, by cases h <;> rfl⟩
  | member _ _ hne hitems => exact ⟨hne, fun item hmem => (hitems item hmem).one_le_level⟩
  | _ => trivial

/-- An operation that binds as it should is a sound tree. -/
theorem IsOperation.isSound (h : expr.IsOperation) (hbinds : expr.BindsThroughout) :
    (Node.expr expr).IsSound := by
  intro node hnode
  obtain ⟨inner, rfl, hinner⟩ := h.of_mem_all hnode
  exact ⟨hinner.isLocallySound, hbinds inner hnode⟩

/-- An operation that binds as it should and fits into some levels. -/
structure IsArranged (levels : Nat) (expr : Expr) : Prop where
  operation : expr.IsOperation
  binds : expr.BindsThroughout
  nesting_le : expr.nesting { leaf := 1 } ≤ levels

namespace IsArranged

variable {levels : Nat} {left right operand low high : Expr} {op : BinaryOp} {sign : UnaryOp}
  {isNegated : Bool} {value : IsValue} {target : MemberTarget}

theorem binary (h : IsArranged levels (.binary op left right)) :
    (left.IsArranged levels ∧ op.level ≤ left.level) ∧ right.IsArranged levels ∧
      op.level < right.level := by
  obtain ⟨hoperation, hbinds, hnesting⟩ := h
  cases hoperation with
  | binary _ hleft hright =>
    obtain ⟨hleftNesting, hrightNesting⟩ := Nat.max_le.mp hnesting
    exact ⟨⟨⟨hleft, hbinds.child (by simp [Node.children, Node.ofExpr]), hleftNesting⟩, hbinds.here.1⟩,
      ⟨hright, hbinds.child (by simp [Node.children, Node.ofExpr]), hrightNesting⟩, hbinds.here.2⟩

theorem between (h : IsArranged levels (.between operand isNegated low high)) :
    (operand.IsArranged levels ∧ 4 ≤ operand.level) ∧ (low.IsArranged levels ∧ 5 ≤ low.level) ∧
      high.IsArranged levels ∧ 5 ≤ high.level := by
  obtain ⟨hoperation, hbinds, hnesting⟩ := h
  cases hoperation with
  | between _ hoperand hlow hhigh =>
    obtain ⟨hoperandNesting, hboundNesting⟩ := Nat.max_le.mp hnesting
    obtain ⟨hlowNesting, hhighNesting⟩ := Nat.max_le.mp hboundNesting
    obtain ⟨hoperandLevel, hlowLevel, hhighLevel⟩ := hbinds.here
    exact ⟨⟨⟨hoperand, hbinds.child (by simp [Node.children, Node.ofExpr]), hoperandNesting⟩,
        hoperandLevel⟩,
      ⟨⟨hlow, hbinds.child (by simp [Node.children, Node.ofExpr]), hlowNesting⟩, hlowLevel⟩,
      ⟨hhigh, hbinds.child (by simp [Node.children, Node.ofExpr]), hhighNesting⟩, hhighLevel⟩

theorem isValue (h : IsArranged levels (.isValue operand isNegated value)) :
    operand.IsArranged levels ∧ 4 ≤ operand.level := by
  obtain ⟨hoperation, hbinds, hnesting⟩ := h
  cases hoperation with
  | isValue _ _ hoperand =>
    exact ⟨⟨hoperand, hbinds.child (by simp [Node.children, Node.ofExpr]), hnesting⟩, hbinds.here⟩

theorem subject (h : IsArranged levels (.member operand isNegated target)) :
    operand.IsArranged levels ∧ 4 ≤ operand.level := by
  obtain ⟨hoperation, hbinds, hnesting⟩ := h
  cases hoperation with
  | member _ hoperand =>
    exact ⟨⟨hoperand, hbinds.child (by simp [Node.children, Node.ofExpr]), (Nat.max_le.mp hnesting).1⟩,
      hbinds.here⟩

/-- An expression on its own takes a level, and is arranged within the others. -/
theorem of_wholeNesting (h : expr.IsOperation) (hbinds : expr.BindsThroughout)
    (hnesting : expr.wholeNesting ≤ levels) :
    ∃ inside, levels = inside + 1 ∧ expr.IsArranged inside := by
  obtain ⟨inside, rfl⟩ := Nat.exists_eq_add_one_of_ne_zero
    (Nat.ne_of_gt (Nat.lt_of_lt_of_le h.one_le_wholeNesting hnesting))
  exact ⟨inside, rfl, h, hbinds, nesting_le_of_wholeNesting hnesting⟩

theorem paren (h : IsArranged levels (.paren inner)) :
    ∃ inside, levels = inside + 1 ∧ inner.IsArranged inside := by
  obtain ⟨hoperation, hbinds, hnesting⟩ := h
  cases hoperation with
  | paren hinner =>
    exact of_wholeNesting hinner (hbinds.child (by simp [Node.children, Node.ofExpr])) hnesting

theorem unary (h : IsArranged levels (.unary sign operand)) :
    ∃ inside, levels = inside + 1 ∧ operand.IsArranged inside ∧ sign.level ≤ operand.level := by
  obtain ⟨hoperation, hbinds, hnesting⟩ := h
  cases hoperation with
  | unary _ hoperand =>
    obtain ⟨inside, rfl⟩ := Nat.exists_eq_add_one_of_ne_zero
      (Nat.ne_of_gt (Nat.lt_of_lt_of_le (Nat.succ_pos _) hnesting))
    have hinside := Nat.le_of_succ_le_succ hnesting
    exact ⟨inside, rfl, ⟨hoperand, hbinds.child (by simp [Node.children, Node.ofExpr]), hinside⟩,
      hbinds.here⟩

theorem wholeNesting_le_exprsNesting {items : List Expr} {item : Expr} (h : item ∈ items) :
    item.wholeNesting ≤ exprsNesting { leaf := 1 } items := by
  induction items with
  | nil => cases h
  | cons first items ih =>
    rcases List.mem_cons.mp h with rfl | h
    · exact Nat.le_max_left _ _
    · exact (ih h).trans (Nat.le_max_right _ _)

/-- What an `IN` compares with is a list, and its items are one level deeper. -/
theorem items (h : IsArranged levels (.member operand isNegated target)) :
    ∃ inside first rest, levels = inside + 1 ∧ target = .list (first :: rest) ∧
      ∀ item ∈ first :: rest, item.IsArranged inside := by
  obtain ⟨hoperation, hbinds, hnesting⟩ := h
  cases hoperation with
  | @member _ _ items _ hne hitems =>
    have hitemsNesting := (Nat.max_le.mp hnesting).2
    have hitem (item : Expr) (hmem : item ∈ items) :
        ∃ inside, levels = inside + 1 ∧ item.IsArranged inside := by
      apply of_wholeNesting (hitems item hmem)
      · apply hbinds.child
        exact List.mem_cons_of_mem _ (List.mem_map_of_mem hmem)
      · exact (wholeNesting_le_exprsNesting hmem).trans hitemsNesting
    cases items with
    | nil => exact absurd rfl hne
    | cons first rest =>
      obtain ⟨inside, rfl, -⟩ := hitem first List.mem_cons_self
      refine ⟨inside, first, rest, rfl, rfl, fun item hmem => ?_⟩
      obtain ⟨other, hlevels, harranged⟩ := hitem item hmem
      cases hlevels
      exact harranged

/-- Every expression starts with one that starts with no other. -/
theorem exists_leading {expr : Expr} (h : expr.IsArranged levels) :
    ∃ (first : Expr) (rest : Spelling), first.IsArranged levels ∧ first.isLeading ∧ expr.level ≤ first.level ∧
      expr.spelling = first.spelling ++ rest := by
  have hstep {operand : Expr} (hsize : sizeOf operand < sizeOf expr)
      (hoperand : operand.IsArranged levels) (hlevel : expr.level ≤ operand.level)
      (hspelling : ∃ rest, expr.spelling = operand.spelling ++ rest) :
      ∃ (first : Expr) (rest : Spelling), first.IsArranged levels ∧ first.isLeading ∧
        expr.level ≤ first.level ∧ expr.spelling = first.spelling ++ rest := by
    obtain ⟨first, rest, hfirst, hleading, hfirstLevel, hoperandSpelling⟩ := exists_leading hoperand
    obtain ⟨tail, hspelling⟩ := hspelling
    refine ⟨first, rest ++ tail, hfirst, hleading, hlevel.trans hfirstLevel, ?_⟩
    rw [hspelling, hoperandSpelling, List.append_assoc]
  cases expr with
  | binary op left right =>
    obtain ⟨⟨hleft, hlevel⟩, -⟩ := h.binary
    exact hstep (by simp; omega) hleft hlevel ⟨_, List.append_assoc _ _ _⟩
  | between operand isNegated low high =>
    obtain ⟨⟨hoperand, hlevel⟩, -⟩ := h.between
    have hspelling : (Expr.between operand isNegated low high).spelling =
        operand.spelling ++ .gap :: Spelling.words (if isNegated then ["NOT", "BETWEEN"] else ["BETWEEN"])
          ++ .gap :: low.spelling ++ [.gap, Atom.word "AND", .gap] ++ high.spelling := rfl
    simp only [List.append_assoc] at hspelling
    exact hstep (by simp; omega) hoperand hlevel ⟨_, hspelling⟩
  | isValue operand isNegated value =>
    obtain ⟨hoperand, hlevel⟩ := h.isValue
    exact hstep (by simp; omega) hoperand hlevel ⟨_, List.append_assoc _ _ _⟩
  | member operand isNegated target =>
    obtain ⟨hoperand, hlevel⟩ := h.subject
    exact hstep (by simp; omega) hoperand hlevel ⟨_, List.append_assoc _ _ _⟩
  | constant | name | paren | unary => exact ⟨_, [], h, rfl, Nat.le_refl _, (List.append_nil _).symm⟩
  | _ => exact absurd h.operation (by rintro ⟨⟩)
termination_by sizeOf expr

end IsArranged


end Expr

end SqlLayout
