import SqlLayout.Proofs.Nesting.Clause
import SqlLayout.Proofs.Sound.Expr

/-!
# Expressions Stay within the Levels Left

Operands of an operator, bases of a subscript and the value of an interval are read on the level of the
whole; what stands between brackets is read one level deeper.
-/

namespace SqlLayout

open Rule

namespace Grammar

namespace Nested.IsShallow

variable {nested : Nested} {levels : Nat} (h : nested.IsShallow levels)

include h

section Primaries

theorem array? :
    nested.array?.StaysWithin levels := by
  have hhead : nested.arrayHead?.Gives fun value =>
      ∀ type ∈ value, ((type.map SqlType.nesting).getD 0) ≤ levels := by
    apply (isQuiet_skipAll _).gives_bind
    intro _
    apply Gives.ite
    · intro _
      apply h.type.bind
      intro type htype
      apply (isQuiet_expect ">").discard.gives_bind
      intro _
      apply (isQuiet_expect "[").discard.gives_bind
      intro _
      apply Gives.pure
      rintro _ ⟨⟩
      exact htype
    intro _
    have hplain : Gives (pure (some none)) fun value : Option (Option SqlType) =>
        ∀ type ∈ value, ((type.map SqlType.nesting).getD 0) ≤ levels := by
      apply Gives.pure
      rintro _ ⟨⟩
      exact Nat.zero_le levels
    apply (isQuiet_skipAll _).gives_bind
    intro _
    apply Gives.ite fun _ => hplain
    intro _
    apply (isQuiet_skip "[").gives_bind
    intro _
    exact .ite (fun _ => hplain) fun _ => .pure (by simp)
  have hwhole (type : Option SqlType) (items : List Expr)
      (htype : ((type.map SqlType.nesting).getD 0) ≤ levels) (hitems : exprsNesting {} items ≤ levels) :
      (Expr.array type items).nesting {} ≤ levels := by
    cases type with
    | none => exact hitems
    | some type => exact Nat.max_le.mpr ⟨htype, hitems⟩
  apply hhead.bind
  intro type htype
  cases type with
  | none => exact .pure (by simp)
  | some type =>
    apply (isQuiet_skip "]").gives_bind
    intro _
    apply Gives.ite
    · intro _
      apply Gives.pure
      rintro _ ⟨⟩
      exact hwhole type [] (htype type rfl) (Nat.zero_le levels)
    · intro _
      apply h.exprs.bind
      intro items hitems
      apply (isQuiet_expect "]").discard.gives_bind
      intro _
      apply Gives.pure
      rintro _ ⟨⟩
      exact hwhole type items (htype type rfl) hitems

theorem arrayAgg? :
    nested.arrayAgg?.StaysWithin levels := by
  have hoffset : nested.aggOffset?.Gives fun value => exprNesting? {} value ≤ levels := by
    apply (isQuiet_skipAll _).gives_bind
    intro _
    apply Gives.ite
    · intro _
      apply (isQuiet_expect "(").discard.gives_bind
      intro _
      apply h.closedExpr.bind
      intro position hposition
      apply (isQuiet_expect "]").discard.gives_bind
      intro _
      exact .pure hposition
    · intro _
      exact .pure (Nat.zero_le levels)
  apply (isQuiet_skipAll _).gives_bind
  intro _
  apply Gives.ite
  · intro _
    apply (isQuiet_skip "DISTINCT").gives_bind
    intro distinct
    apply h.expr.bind
    intro operand hoperand
    apply isQuiet_nullHandling?.gives_bind
    intro nulls
    apply h.rowOrder?.bind
    intro order horder
    apply h.window?.bind
    intro window hwindow
    apply (isQuiet_expect ")").discard.gives_bind
    intro _
    apply hoffset.bind
    intro offset hoffset
    apply Gives.pure
    rintro _ ⟨⟩
    exact Nat.max_le.mpr ⟨hoperand, Nat.max_le.mpr ⟨horder, Nat.max_le.mpr ⟨hwindow, hoffset⟩⟩⟩
  · intro _
    exact .pure (by simp)

theorem accessor? : nested.accessor?.Gives fun value => accessorNesting? {} value ≤ levels := by
  have hrest (name : Option Identifier) (position : Expr)
      (hposition : position.whole {} (position.nesting {}) ≤ levels) :
      Gives (do discard <| expect "]"; return some ({ name, position } : Accessor))
        fun value => accessorNesting? {} value ≤ levels := by
    apply (isQuiet_expect "]").discard.gives_bind
    intro _
    exact .pure hposition
  apply (isQuiet_skip "[").gives_bind
  intro _
  apply Gives.ite
  · intro _
    apply (isQuiet_ask fun _ => rfl).gives_bind
    intro _
    apply Gives.ite
    · intro _
      apply isQuiet_segment?.gives_bind
      intro name
      apply (isQuiet_expect "(").discard.gives_bind
      intro _
      exact h.closedExpr.bind (hrest name)
    · intro _
      exact h.expr.bind (hrest none)
  · intro _
    exact .pure (Nat.zero_le levels)

theorem stringAgg? :
    nested.stringAgg?.StaysWithin levels := by
  have hfunction : stringFunction?.IsQuiet := by
    apply (isQuiet_skipAll _).bind
    intro _
    exact (IsQuiet.pure _).ite (((isQuiet_skipAll _).bind fun _ => (IsQuiet.pure _).ite (.pure _)))
  apply hfunction.gives_bind
  intro function
  cases function with
  | none => exact .pure (by simp)
  | some function =>
    apply (isQuiet_skip "DISTINCT").gives_bind
    intro distinct
    apply h.expr.bind
    intro operand hoperand
    have hrest (delimiter : Option Constant) : Gives (do
        let nulls ← nullHandling?
        let order ← nested.rowOrder?
        let window ← nested.window?
        discard <| expect ")"
        let accessor ← nested.accessor?
        return some (Expr.stringAgg function distinct operand delimiter nulls order window accessor))
        fun value => ∀ expr ∈ value, expr.nesting {} ≤ levels := by
      apply isQuiet_nullHandling?.gives_bind
      intro nulls
      apply h.rowOrder?.bind
      intro order horder
      apply h.window?.bind
      intro window hwindow
      apply (isQuiet_expect ")").discard.gives_bind
      intro _
      apply h.accessor?.bind
      intro accessor haccessor
      apply Gives.pure
      rintro _ ⟨⟩
      exact Nat.max_le.mpr ⟨hoperand, Nat.max_le.mpr ⟨horder, Nat.max_le.mpr ⟨hwindow, haccessor⟩⟩⟩
    apply (isQuiet_skip ",").gives_bind
    intro _
    apply Gives.ite
    · intro _
      rw [map_eq_bind, bind_assoc]
      apply isQuiet_constant.gives_bind
      intro delimiter
      exact hrest _
    · intro _
      exact hrest _

theorem arrayQuery? :
    nested.arrayQuery?.StaysWithin levels := by
  apply (isQuiet_skipAll _).gives_bind
  intro _
  apply Gives.ite
  · intro _
    apply h.closedQuery.bind
    intro query hquery
    apply Gives.pure
    rintro _ ⟨⟩
    exact hquery
  · intro _
    exact .pure (by simp)

theorem parenExpr : nested.parenExpr.Gives fun expr => expr.nesting {} ≤ levels := by
  apply h.parenQuery?.bind
  intro query hquery
  cases query with
  | some query => exact .pure (hquery query rfl)
  | none =>
    apply (isQuiet_expect "(").discard.gives_bind
    intro _
    apply h.closedExpr.bind
    intro expr hexpr
    exact .pure hexpr

theorem castExpr (safe : Bool) : (nested.castExpr safe).Gives fun expr => expr.nesting {} ≤ levels := by
  apply (isQuiet_expect "(").discard.gives_bind
  intro _
  apply h.expr.bind
  intro operand hoperand
  apply (isQuiet_expect "AS").discard.gives_bind
  intro _
  apply h.type.bind
  intro type htype
  apply (isQuiet_expect ")").discard.gives_bind
  intro _
  exact .pure (Nat.max_le.mpr ⟨hoperand, htype⟩)

theorem extractExpr : nested.extractExpr.Gives fun expr => expr.nesting {} ≤ levels := by
  apply (isQuiet_expect "(").discard.gives_bind
  intro _
  apply h.expr.bind
  intro part hpart
  apply (isQuiet_expect "FROM").discard.gives_bind
  intro _
  apply h.expr.bind
  intro operand hoperand
  have hrest (zone : Option Expr) (hzone : exprNesting? {} zone ≤ levels) :
      Gives (do discard <| expect ")"; return Expr.extract part operand zone)
        fun expr => expr.nesting {} ≤ levels := by
    apply (isQuiet_expect ")").discard.gives_bind
    intro _
    exact .pure (Nat.max_le.mpr ⟨hpart, Nat.max_le.mpr ⟨hoperand, hzone⟩⟩)
  apply (isQuiet_skipAll _).gives_bind
  intro _
  apply Gives.ite
  · intro _
    rw [map_eq_bind, bind_assoc]
    apply h.expr.bind
    intro zone hzone
    exact hrest _ hzone
  · intro _
    exact hrest _ (Nat.zero_le levels)

theorem caseExpr : nested.caseExpr.Gives fun expr => expr.nesting {} ≤ levels := by
  have hbranch : nested.branch?.Gives fun value => ∀ branch ∈ value,
      branch.condition.whole {} (branch.condition.nesting {}) ≤ levels ∧
        branch.result.whole {} (branch.result.nesting {}) ≤ levels := by
    apply (isQuiet_skip "WHEN").gives_bind
    intro _
    apply Gives.ite
    · intro _
      apply h.expr.bind
      intro condition hcondition
      apply (isQuiet_expect "THEN").discard.gives_bind
      intro _
      apply h.expr.bind
      intro result hresult
      apply Gives.pure
      rintro _ ⟨⟩
      exact ⟨hcondition, hresult⟩
    · intro _
      exact .pure (by simp)
  have hrest (operand : Option Expr) (hoperand : exprNesting? {} operand ≤ levels) : Gives (do
      let branches ← many nested.branch?
      if branches.isEmpty then return ← Rule.expected "\x60WHEN\x60"
      let otherwise ← nested.exprAfter? "ELSE"
      discard <| expect "END"
      return Expr.case operand branches otherwise) fun expr => expr.nesting {} ≤ levels := by
    apply hbranch.many.bind
    intro branches hbranches
    apply Gives.ite fun _ => gives_expected _
    intro _
    apply (h.exprAfter? "ELSE").bind
    intro otherwise hotherwise
    apply (isQuiet_expect "END").discard.gives_bind
    intro _
    exact .pure (Nat.max_le.mpr ⟨hoperand, Nat.max_le.mpr ⟨branchesNesting_le hbranches, hotherwise⟩⟩)
  apply (isQuiet_sees "WHEN").gives_bind
  intro _
  apply Gives.ite
  · intro _
    exact hrest none (Nat.zero_le levels)
  · intro _
    rw [map_eq_bind, bind_assoc]
    apply h.expr.bind
    intro operand hoperand
    exact hrest (some operand) hoperand

theorem structExpr : nested.structExpr.Gives fun expr => expr.nesting {} ≤ levels := by
  have hfields : nested.structFields?.Gives fun value => ∀ found ∈ value, fieldsNesting found ≤ levels := by
    apply (isQuiet_skip "<>").gives_bind
    intro _
    apply Gives.ite
    · intro _
      apply Gives.pure
      rintro _ ⟨⟩
      exact Nat.zero_le levels
    intro _
    apply (isQuiet_skip "<").gives_bind
    intro _
    apply Gives.ite
    · intro _
      apply h.fields.bind
      intro found hfound
      exact .pure (by simpa using hfound)
    · intro _
      exact .pure (by simp)
  have hitem : Gives (do return { expr := ← nested.expr, aliasName := ← aliasName? : StructItem })
      fun item => item.expr.whole {} (item.expr.nesting {}) ≤ levels := by
    apply h.expr.bind
    intro expr hexpr
    apply isQuiet_aliasName?.gives_bind
    intro aliasName
    exact .pure hexpr
  apply hfields.bind
  intro fields hfields
  apply hitem.parenthesized.bind
  intro items hitems
  have hitems := structItemsNesting_le hitems
  cases fields with
  | none => exact .pure hitems
  | some fields => exact .pure (Nat.max_le.mpr ⟨hfields fields rfl, hitems⟩)

variable {unary? : Rule (Option Expr)}

/-- The value of an interval nests as deep as the interval may. -/
theorem special? (hunary : unary?.StaysWithin levels) :
    (nested.special? unary?).StaysWithin levels := by
  have hsome {rule : Rule Expr} (hrule : rule.Gives fun expr => expr.nesting {} ≤ levels) :
      Gives (do return some (← rule)) fun value => ∀ expr ∈ value, expr.nesting {} ≤ levels := by
    apply hrule.bind
    intro expr hexpr
    exact .pure (by simpa using hexpr)
  apply (isQuiet_sees "(").gives_bind
  intro _
  apply Gives.ite fun _ => hsome h.parenExpr
  intro _
  apply (isQuiet_skip "CASE").gives_bind
  intro _
  apply Gives.ite fun _ => hsome h.caseExpr
  intro _
  apply (isQuiet_skip "STRUCT").gives_bind
  intro _
  apply Gives.ite fun _ => hsome h.structExpr
  intro _
  apply (isQuiet_skip "INTERVAL").gives_bind
  intro _
  apply Gives.ite
  · intro _
    apply (hunary.require _).bind
    intro count hcount
    apply isQuiet_identifier.gives_bind
    intro unit
    apply Gives.pure
    rintro _ ⟨⟩
    exact hcount
  intro _
  apply (isQuiet_ask fun _ => rfl).gives_bind
  intro _
  apply Gives.ite
  · intro _
    apply (isQuiet_skip "CAST").gives_bind
    intro _
    apply Gives.ite fun _ => hsome (h.castExpr false)
    intro _
    apply (isQuiet_skip "SAFE_CAST").gives_bind
    intro _
    apply Gives.ite fun _ => hsome (h.castExpr true)
    intro _
    apply (isQuiet_skip "EXTRACT").gives_bind
    intro _
    apply Gives.ite fun _ => hsome h.extractExpr
    intro _
    apply (isQuiet_skip "EXISTS").gives_bind
    intro _
    apply Gives.ite
    · intro _
      apply (isQuiet_expect "(").discard.gives_bind
      intro _
      apply h.closedQuery.bind
      intro query hquery
      apply Gives.pure
      rintro _ ⟨⟩
      exact hquery
    · intro _
      exact .pure (by simp)
  · intro _
    exact .pure (by simp)

theorem afterName (name : QualifiedName) :
    (nested.afterName name).Gives fun expr => expr.nesting {} ≤ levels := by
  have hargument : nested.argument.Gives fun arg => arg.whole {} (arg.nesting {}) ≤ levels := by
    apply (isQuiet_skip "*").gives_bind
    intro _
    exact .ite (fun _ => .pure (Nat.zero_le levels)) fun _ => h.expr
  have hargs (distinct : Bool) : Gives (do
      let args ← commaSeparated nested.argument
      let nulls ← nullHandling?
      discard <| expect ")"
      return Expr.call name distinct args nulls) fun expr => expr.nesting {} ≤ levels := by
    apply hargument.commaSeparated.bind
    intro args hargs
    apply isQuiet_nullHandling?.gives_bind
    intro nulls
    apply (isQuiet_expect ")").discard.gives_bind
    intro _
    exact .pure (exprsNesting_le hargs.2)
  have hcall : (nested.callRest name).Gives fun expr => expr.nesting {} ≤ levels := by
    apply (isQuiet_skip "DISTINCT").gives_bind
    intro distinct
    cases distinct with
    | true => exact hargs true
    | false =>
      apply (isQuiet_skip ")").gives_bind
      intro _
      exact .ite (fun _ => .pure (Nat.zero_le levels)) fun _ => hargs false
  apply (isQuiet_skip "(").gives_bind
  intro _
  apply Gives.ite fun _ => hcall
  intro _
  apply isQuiet_kind?.gives_bind
  intro kind
  apply Gives.ite
  · intro _
    apply isQuiet_constant.gives_bind
    intro constant
    exact .pure (Nat.zero_le levels)
  · intro _
    exact .pure (Nat.zero_le levels)

theorem primary? (hunary : unary?.StaysWithin levels) :
    (nested.primary? unary?).StaysWithin levels := by
  have hconstant : (Option.map Expr.constant <$> constant?).Gives fun value =>
      ∀ expr ∈ value, expr.nesting {} ≤ levels := by
    apply isQuiet_constant?.gives.map
    intro value _ expr hexpr
    obtain ⟨constant, rfl, rfl⟩ := Option.map_eq_some_iff.mp hexpr
    exact Nat.zero_le levels
  have hname : nameExpr?.StaysWithin levels := by
    intro cursor
    apply IsSound.ensures_nameExpr?.mono
    intro value _ hvalue expr hexpr
    obtain ⟨name, rfl, -⟩ := hvalue expr hexpr
    exact Nat.zero_le levels
  have hwindow (expr : Expr) (hexpr : expr.nesting {} ≤ levels) : 
      (nested.windowed? expr).Gives fun value => ∀ expr ∈ value, expr.nesting {} ≤ levels := by
    apply h.window?.bind
    intro window hwindow
    cases window with
    | none => exact .pure (by simpa using hexpr)
    | some window =>
      apply Gives.pure
      rintro _ ⟨⟩
      exact Nat.max_le.mpr ⟨hexpr, hwindow⟩
  have hfound := Gives.firstOf (List.forall_mem_cons.mpr ⟨hconstant, List.forall_mem_cons.mpr
    ⟨h.array?, List.forall_mem_cons.mpr ⟨h.arrayAgg?, List.forall_mem_cons.mpr ⟨h.stringAgg?,
      List.forall_mem_cons.mpr ⟨h.arrayQuery?, List.forall_mem_cons.mpr ⟨h.special? hunary,
        List.forall_mem_singleton.mpr hname⟩⟩⟩⟩⟩⟩)
  apply hfound.bind
  intro found hfound
  cases found with
  | none => exact .pure (by simp)
  | some found =>
    have hfound := hfound found rfl
    cases found with
    | name path => exact (h.afterName path).bind hwindow
    | _ => exact hwindow _ hfound

end Primaries

section Operators

omit h in
/-- The operands of one level are all as shallow as the whole. -/
theorem leftAssoc {operand? : Rule (Option Expr)} {op? : Rule (Option BinaryOp)}
    (hoperand : operand?.StaysWithin levels)
    (hop : op?.IsQuiet) :
    (Grammar.leftAssoc operand? op?).StaysWithin levels := by
  have hrest : (operation? operand? op?).Gives fun value =>
      ∀ piece ∈ value, piece.2.nesting {} ≤ levels := by
    apply hop.gives_bind
    intro op
    cases op with
    | none => exact .pure (by simp)
    | some op =>
      apply (hoperand.require _).bind
      intro right hright
      apply Gives.pure
      rintro _ ⟨⟩
      exact hright
  apply hoperand.bind
  intro first hfirst
  cases first with
  | none => exact .pure (by simp)
  | some first =>
    apply hrest.many.bind
    intro rest hrest
    apply Gives.pure
    rintro _ ⟨⟩
    refine List.foldlRecOn rest _ (motive := fun whole : Expr => whole.nesting {} ≤ levels)
      (hfirst first rfl) ?_
    intro left hleft piece hpiece
    exact Nat.max_le.mpr ⟨hleft, hrest piece hpiece⟩

theorem operand? {unary? : Rule (Option Expr)}
    (hunary : unary?.StaysWithin levels) :
    (nested.operand? unary?).StaysWithin levels := by
  have hpostfix : nested.postfix?.Gives fun value => ∀ piece ∈ value,
      ∀ base : Expr, base.nesting {} ≤ levels → (Postfix.attach base piece).nesting {} ≤ levels := by
    have hindex (kind : Option IndexKind) (position : Expr)
        (hposition : position.whole {} (position.nesting {}) ≤ levels) :
        Gives (do discard <| expect "]"; return Postfix.index kind position) fun piece =>
          ∀ base : Expr, base.nesting {} ≤ levels → (Postfix.attach base piece).nesting {} ≤ levels := by
      apply (isQuiet_expect "]").discard.gives_bind
      intro _
      apply Gives.pure
      intro base hbase
      exact Nat.max_le.mpr ⟨hbase, hposition⟩
    have hsubscript : nested.subscript.Gives fun piece =>
        ∀ base : Expr, base.nesting {} ≤ levels → (Postfix.attach base piece).nesting {} ≤ levels := by
      apply isQuiet_indexKind?.gives_bind
      intro kind
      cases kind with
      | some kind =>
        apply (isQuiet_expect "(").discard.gives_bind
        intro _
        exact h.closedExpr.bind (hindex (some kind))
      | none => exact h.expr.bind (hindex none)
    apply (isQuiet_skip "[").gives_bind
    intro _
    apply Gives.ite
    · intro _
      apply hsubscript.bind
      intro piece hpiece
      exact .pure (by simpa using hpiece)
    · intro _
      apply isQuiet_dotSegment?.gives_bind
      intro label
      apply Gives.pure
      intro piece hpiece base hbase
      obtain ⟨label, -, rfl⟩ := Option.map_eq_some_iff.mp hpiece
      exact hbase
  apply (h.primary? hunary).bind
  intro base hbase
  cases base with
  | none => exact .pure (by simp)
  | some base =>
    apply hpostfix.many.bind
    intro pieces hpieces
    apply Gives.pure
    rintro _ ⟨⟩
    refine List.foldlRecOn pieces _ (motive := fun whole : Expr => whole.nesting {} ≤ levels)
      (hbase base rfl) ?_
    exact fun left hleft piece hpiece => hpieces piece hpiece left hleft

theorem unary? : nested.unary?.StaysWithin levels := by
  have hsteps (steps : Nat) :
      (nested.unaryUpTo? steps).StaysWithin levels := by
    induction steps with
    | zero => exact .pure (by simp)
    | succ steps ih =>
      apply isQuiet_sign?.gives_bind
      intro op
      cases op with
      | none => exact h.operand? ih
      | some op =>
        apply h.signOperand.bind
        intro operand hoperand
        apply Gives.pure
        rintro _ ⟨⟩
        exact hoperand
  intro cursor hclean value after hrun
  exact hsteps (cursor.remaining + 1) cursor hclean value after hrun

theorem bitOr? : nested.bitOr?.StaysWithin levels :=
  leftAssoc (leftAssoc (leftAssoc (leftAssoc (leftAssoc (leftAssoc h.unary?
    (isQuiet_opOf? _)) (isQuiet_opOf? _)) isQuiet_shiftOp?) (isQuiet_opOf? _)) (isQuiet_opOf? _))
    (isQuiet_opOf? _)

theorem memberTarget : nested.memberTarget.Gives fun target => target.nesting {} ≤ levels := by
  apply (isQuiet_skipAll _).gives_bind
  intro _
  apply Gives.ite
  · intro _
    apply h.closedExpr.bind
    intro array harray
    exact .pure harray
  intro _
  apply (isQuiet_ask fun _ => rfl).gives_bind
  intro _
  apply (isQuiet_expect "(").discard.gives_bind
  intro _
  apply Gives.ite
  · intro _
    apply h.closedQuery.bind
    intro query hquery
    exact .pure hquery
  · intro _
    apply h.exprs.bind
    intro items hitems
    apply (isQuiet_expect ")").discard.gives_bind
    intro _
    exact .pure hitems

/-- What a comparison attaches to its left operand is as shallow as the whole. -/
theorem comparison? :
    nested.comparison?.Gives fun value => ∀ piece ∈ value,
      ∀ left : Expr, left.nesting {} ≤ levels → (Comparison.attach left piece).nesting {} ≤ levels := by
  have hoperand : (require "an expression" nested.bitOr?).Gives fun right => right.nesting {} ≤ levels :=
    h.bitOr?.require _
  have hbinary (op : BinaryOp) :
      Gives (do return some (Comparison.binary op (← require "an expression" nested.bitOr?)))
        fun value => ∀ piece ∈ value, ∀ left : Expr, left.nesting {} ≤ levels →
          (Comparison.attach left piece).nesting {} ≤ levels := by
    apply hoperand.bind
    intro right hright
    apply Gives.pure
    rintro _ ⟨⟩ left hleft
    exact Nat.max_le.mpr ⟨hleft, hright⟩
  apply (isQuiet_opOf? _).gives_bind
  intro op
  cases op with
  | some op => exact hbinary op
  | none =>
    apply (isQuiet_skip "IS").gives_bind
    intro _
    apply Gives.ite
    · intro _
      apply (isQuiet_skip "NOT").gives_bind
      intro negated
      apply isQuiet_isTest.gives_bind
      intro value
      apply Gives.pure
      rintro _ ⟨⟩ left hleft
      exact hleft
    intro _
    apply isQuiet_negated.gives_bind
    intro negated
    apply (isQuiet_skip "LIKE").gives_bind
    intro _
    apply Gives.ite fun _ => hbinary _
    intro _
    apply (isQuiet_skip "IN").gives_bind
    intro _
    apply Gives.ite
    · intro _
      apply h.memberTarget.bind
      intro target htarget
      apply Gives.pure
      rintro _ ⟨⟩ left hleft
      exact Nat.max_le.mpr ⟨hleft, htarget⟩
    intro _
    apply (isQuiet_skip "BETWEEN").gives_bind
    intro _
    apply Gives.ite
    · intro _
      apply hoperand.bind
      intro low hlow
      apply (isQuiet_expect "AND").discard.gives_bind
      intro _
      apply hoperand.bind
      intro high hhigh
      apply Gives.pure
      rintro _ ⟨⟩ left hleft
      exact Nat.max_le.mpr ⟨hleft, Nat.max_le.mpr ⟨hlow, hhigh⟩⟩
    · intro _
      exact .pure (by simp)

theorem not? : nested.not?.StaysWithin levels := by
  apply (isQuiet_skip "NOT").gives_bind
  intro _
  apply Gives.ite
  · intro _
    apply h.notOperand.bind
    intro operand hoperand
    apply Gives.pure
    rintro _ ⟨⟩
    exact hoperand
  · intro _
    apply h.bitOr?.bind
    intro left hleft
    cases left with
    | none => exact .pure (by simp)
    | some left =>
      apply h.comparison?.many.bind
      intro pieces hpieces
      apply Gives.pure
      rintro _ ⟨⟩
      refine List.foldlRecOn pieces _ (motive := fun whole : Expr => whole.nesting {} ≤ levels)
        (hleft left rfl) ?_
      exact fun left hleft piece hpiece => hpieces piece hpiece left hleft

theorem or? : nested.or?.StaysWithin levels :=
  leftAssoc (leftAssoc h.not? (isQuiet_opOf? _)) (isQuiet_opOf? _)

end Operators

end Nested.IsShallow

end Grammar

end SqlLayout
