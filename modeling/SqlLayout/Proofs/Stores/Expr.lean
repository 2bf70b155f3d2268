import SqlLayout.Proofs.Stores.Name

/-!
# Expressions Store Their Texts

The rules for expressions store the verbatim texts of the tokens they take, given that the rules they may
nest do. An alternative that is given up goes back to where it started, so what it has read is not lost:
it is read again by the next one.
-/

namespace SqlLayout

open Rule

namespace Grammar

section Tails

/-- What is attached piece by piece to something read before. -/
theorem storesAfter_attached {α β : Type} {rule : Rule (Option β)} {texts : β → List String}
    (h : rule.MayStore texts) {attach : α → β → α} {whole : α → List String}
    (hattach : ∀ value piece, whole (attach value piece) = whole value ++ texts piece) (first : α) :
    StoresAfter (whole first) (do return some ((← many rule).foldl attach first)) (verbatims? whole) := by
  have hfold (pieces : List β) :
      whole first ++ pieces.flatMap texts = whole (pieces.foldl attach first) := by
    induction pieces generalizing first with
    | nil => exact List.append_nil _
    | cons piece pieces ih => rw [List.foldl_cons, ← ih, hattach, List.flatMap_cons, List.append_assoc]
  exact h.many.bind fun pieces => .pure (hfold pieces)

def Postfix.verbatims : Postfix → List String
  | index _ position => position.verbatims
  | field name => name.verbatims

def Comparison.verbatims : Comparison → List String
  | binary _ right => right.verbatims
  | isValue _ _ => []
  | member _ target => target.verbatims
  | between _ low high => low.verbatims ++ high.verbatims

theorem Postfix.verbatims_attach (base : Expr) (tail : Postfix) :
    (tail.attach base).verbatims = base.verbatims ++ tail.verbatims := by
  cases tail <;> rfl

theorem Comparison.verbatims_attach (left : Expr) (tail : Comparison) :
    (tail.attach left).verbatims = left.verbatims ++ tail.verbatims := by
  cases tail with
  | isValue negated value => exact (List.append_nil _).symm
  | between negated low high => exact List.append_assoc _ _ _
  | _ => rfl

end Tails

namespace Nested

/-- Nested rules that store what they take. -/
structure IsStoring (nested : Nested) : Prop where
  expr? : nested.expr?.MayStore Expr.verbatims
  notOperand : nested.notOperand.Stores Expr.verbatims
  signOperand : nested.signOperand.Stores Expr.verbatims
  query? : nested.query?.MayStore Query.verbatims
  type? : nested.type?.MayStore SqlType.verbatims
  fields : nested.fields.Stores (List.flatMap Field.verbatims)

namespace IsStoring

variable {nested : Nested} (h : nested.IsStoring)

include h

section Clauses

theorem expr : nested.expr.Stores Expr.verbatims :=
  h.expr?.require _

theorem type : nested.type.Stores SqlType.verbatims :=
  h.type?.require _

theorem queryHere? : nested.queryHere?.MayStore Query.verbatims :=
  (storesNothing_ask _).bind fun _ => StoresAfter.ite h.query? mayStore_none

theorem query : nested.query.Stores Query.verbatims :=
  h.queryHere?.require _

theorem parenQuery? : nested.parenQuery?.MayStore Query.verbatims := by
  have hrest : nested.queryInside?.FindsAfter [] Query.verbatims := by
    apply FindsAfter.bind h.queryHere?
    intro query
    cases query with
    | none => exact .none
    | some query =>
      apply FindsAfter.bind (storesNothing_skip ")")
      intro isClosed
      cases isClosed with
      | false => exact .none
      | true => exact (StoresAfter.pure (by simp [verbatims?])).finds
  apply Stores.of_ensures
  intro cursor
  apply (ensures_ask fun cursor : Cursor => cursor.sees "(").bind
  rintro isOpen _ ⟨hopen, rfl⟩
  apply Ensures.ite
  · intro htrue
    have henclosed : nested.enclosedQuery?.Ensures cursor fun value after =>
        ∀ found ∈ value, after.read = cursor.read ++ found.verbatims := by
      apply (ensures_bump_of_sees (hopen.symm.trans htrue)).bind
      intro _ after hread
      exact hrest after cursor.read (hread.trans (List.append_nil _).symm)
    apply Ensures.once _ (henclosed.mono fun _ _ _ => trivial)
    apply henclosed.attempt
    · intro query after hquery
      exact hquery query rfl
    · intro _ _
      exact (List.append_nil _).symm
  · intro _
    exact .pure (List.append_nil _).symm

theorem closedQuery : nested.closedQuery.Stores Query.verbatims :=
  h.query.bind fun _ => (storesNothing_expect ")").bind fun _ => .pure rfl

theorem closedExpr : nested.closedExpr.Stores Expr.verbatims :=
  h.expr.bind fun _ => (storesNothing_expect ")").bind fun _ => .pure rfl

theorem exprAfter? (keyword : String) : (nested.exprAfter? keyword).MayStore Expr.verbatims :=
  (storesNothing_skip keyword).bind fun _ =>
    StoresAfter.ite (h.expr.bind fun _ => .pure rfl) mayStore_none

theorem sortKey? : nested.sortKey?.MayStore SortKey.verbatims := by
  apply Stores.bind h.expr?
  intro expr
  cases expr with
  | none => exact mayStore_none
  | some expr =>
    exact storesNothing_direction?.bind fun _ => storesNothing_nullsOrder?.bind fun _ => .pure rfl

theorem orderBy : nested.orderBy.Stores (List.flatMap SortKey.verbatims) := by
  apply (storesNothing_skip "ORDER").bind
  intro _
  apply StoresAfter.ite _ stores_nil
  exact (storesNothing_expect "BY").bind fun _ => (h.sortKey?.require _).commaSeparated

theorem rowOrder? : nested.rowOrder?.MayStore RowOrder.verbatims := by
  apply h.orderBy.bind
  intro keys
  apply Stores.bind (h.exprAfter? "LIMIT")
  intro limit
  cases limit with
  | none =>
    apply StoresAfter.pure
    cases keys with
    | nil => rfl
    | cons key keys => simp [verbatims?, RowOrder.verbatims]
  | some limit =>
    apply Stores.bind (h.exprAfter? "OFFSET")
    intro offset
    exact .pure (by simp [verbatims?, RowOrder.verbatims])

theorem window? : nested.window?.MayStore Window.verbatims := by
  have hpartition : nested.partitionBy.Stores (List.flatMap Expr.verbatims) := by
    apply (storesNothing_skip "PARTITION").bind
    intro _
    apply StoresAfter.ite _ stores_nil
    exact (storesNothing_expect "BY").bind fun _ => h.expr.commaSeparated
  apply (storesNothing_skip "OVER").bind
  intro _
  apply StoresAfter.ite _ mayStore_none
  apply (storesNothing_expect "(").bind
  intro _
  apply hpartition.bind
  intro partition
  apply h.orderBy.bind
  intro order
  apply Stores.bind mayStore_frame?
  intro frame
  exact (storesNothing_expect ")").bind fun _ => .pure (by simp [verbatims?, Window.verbatims])

end Clauses

section Forms

attribute [local simp] Expr.verbatims

theorem array? : nested.array?.MayStore Expr.verbatims := by
  have hhead : nested.arrayHead?.MayStore (verbatims? SqlType.verbatims) := by
    apply (storesNothing_skipAll (by simp)).bind
    intro _
    apply StoresAfter.ite
    · apply h.type.bind
      intro type
      apply (storesNothing_expect ">").bind
      intro _
      exact (storesNothing_expect "[").bind fun _ => .pure rfl
    apply (storesNothing_skipAll (by simp)).bind
    intro _
    refine StoresAfter.ite (.pure rfl) ?_
    apply (storesNothing_skip "[").bind
    intro _
    exact StoresAfter.ite (.pure rfl) mayStore_none
  apply Stores.bind hhead
  intro type
  cases type with
  | none => exact mayStore_none
  | some type =>
    apply (storesNothing_skip "]").bind
    intro _
    refine StoresAfter.ite (.pure (by simp [verbatims?])) ?_
    apply h.expr.commaSeparated.bind
    intro items
    exact (storesNothing_expect "]").bind fun _ => .pure (by simp [verbatims?])

theorem arrayAgg? : nested.arrayAgg?.MayStore Expr.verbatims := by
  have hoffset : nested.aggOffset?.MayStore Expr.verbatims := by
    apply (storesNothing_skipAll (by simp)).bind
    intro _
    apply StoresAfter.ite _ mayStore_none
    apply (storesNothing_expect "(").bind
    intro _
    apply h.closedExpr.bind
    intro position
    exact (storesNothing_expect "]").bind fun _ => .pure rfl
  apply (storesNothing_skipAll (by simp)).bind
  intro _
  apply StoresAfter.ite _ mayStore_none
  apply (storesNothing_skip "DISTINCT").bind
  intro distinct
  apply h.expr.bind
  intro operand
  apply storesNothing_nullHandling?.bind
  intro nulls
  apply Stores.bind h.rowOrder?
  intro order
  apply Stores.bind h.window?
  intro window
  apply (storesNothing_expect ")").bind
  intro _
  exact Stores.bind hoffset fun offset => .pure (by simp [verbatims?])

theorem accessor? : nested.accessor?.MayStore Accessor.verbatims := by
  have hrest (accessor : Accessor) : StoresAfter accessor.verbatims (do
      discard <| expect "]"
      return some accessor) (verbatims? Accessor.verbatims) :=
    (storesNothing_expect "]").bind fun _ => .pure rfl
  apply (storesNothing_skip "[").bind
  intro _
  apply StoresAfter.ite _ mayStore_none
  apply (storesNothing_ask _).bind
  intro isCall
  apply StoresAfter.ite
  · apply Stores.bind mayStore_segment?
    intro name
    apply (storesNothing_expect "(").bind
    intro _
    exact h.closedExpr.bind fun position => hrest { name, position }
  · exact h.expr.bind fun position => hrest { name := none, position }

theorem stringAgg? : nested.stringAgg?.MayStore Expr.verbatims := by
  have hfunction : stringFunction?.StoresNothing := by
    apply (storesNothing_skipAll (by simp)).bind
    intro _
    refine StoresAfter.ite (.pure rfl) ?_
    apply (storesNothing_skipAll (by simp)).bind
    intro _
    exact StoresAfter.ite (.pure rfl) storesNothing_none
  apply hfunction.bind
  intro function
  cases function with
  | none => exact mayStore_none
  | some function =>
    apply (storesNothing_skip "DISTINCT").bind
    intro distinct
    apply h.expr.bind
    intro operand
    have hdelimiter : MayStore (some <$> constant) Constant.verbatims :=
      stores_constant.map some fun _ => rfl
    apply (storesNothing_skip ",").bind
    intro _
    apply StoresAfter.iteBind hdelimiter mayStore_none
    intro delimiter
    apply storesNothing_nullHandling?.bind
    intro nulls
    apply Stores.bind h.rowOrder?
    intro order
    apply Stores.bind h.window?
    intro window
    apply (storesNothing_expect ")").bind
    intro _
    exact Stores.bind h.accessor? fun accessor => .pure (by simp [verbatims?])

theorem arrayQuery? : nested.arrayQuery?.MayStore Expr.verbatims :=
  (storesNothing_skipAll (by simp)).bind fun _ =>
    StoresAfter.ite (h.closedQuery.bind fun _ => .pure rfl) mayStore_none

theorem parenExpr : nested.parenExpr.Stores Expr.verbatims := by
  apply Stores.bind h.parenQuery?
  intro query
  cases query with
  | some query => exact .pure rfl
  | none => exact (storesNothing_expect "(").bind fun _ => h.closedExpr.bind fun _ => .pure rfl

theorem castExpr (safe : Bool) : (nested.castExpr safe).Stores Expr.verbatims := by
  apply (storesNothing_expect "(").bind
  intro _
  apply h.expr.bind
  intro operand
  apply (storesNothing_expect "AS").bind
  intro _
  apply h.type.bind
  intro type
  exact (storesNothing_expect ")").bind fun _ => .pure rfl

theorem extractExpr : nested.extractExpr.Stores Expr.verbatims := by
  apply (storesNothing_expect "(").bind
  intro _
  apply h.expr.bind
  intro part
  apply (storesNothing_expect "FROM").bind
  intro _
  apply h.expr.bind
  intro operand
  have hzone : MayStore (some <$> nested.expr) Expr.verbatims := h.expr.map some fun _ => rfl
  apply (storesNothing_skipAll (by simp)).bind
  intro _
  apply StoresAfter.iteBind hzone mayStore_none
  intro zone
  exact (storesNothing_expect ")").bind fun _ => .pure (by simp)

theorem caseExpr : nested.caseExpr.Stores Expr.verbatims := by
  have hbranch : nested.branch?.MayStore Branch.verbatims := by
    apply (storesNothing_skip "WHEN").bind
    intro _
    apply StoresAfter.ite _ mayStore_none
    apply h.expr.bind
    intro condition
    apply (storesNothing_expect "THEN").bind
    intro _
    exact h.expr.bind fun result => .pure rfl
  have hoperand : MayStore (some <$> nested.expr) Expr.verbatims := h.expr.map some fun _ => rfl
  apply (storesNothing_ask _).bind
  intro _
  apply StoresAfter.iteBind mayStore_none hoperand
  intro operand
  apply hbranch.many.bind
  intro branches
  apply StoresAfter.ite (storesAfter_expected _)
  apply Stores.bind (h.exprAfter? "ELSE")
  intro otherwise
  exact (storesNothing_expect "END").bind fun _ => .pure (by simp)

theorem structExpr : nested.structExpr.Stores Expr.verbatims := by
  have hfields : nested.structFields?.MayStore (List.flatMap Field.verbatims) := by
    apply (storesNothing_skip "<>").bind
    intro _
    refine StoresAfter.ite (.pure rfl) ?_
    apply (storesNothing_skip "<").bind
    intro _
    exact StoresAfter.ite (h.fields.bind fun fields => .pure rfl) mayStore_none
  have hitem : Stores (do
      return { expr := ← nested.expr, aliasName := ← aliasName? : StructItem }) StructItem.verbatims :=
    h.expr.bind fun expr => Stores.bind mayStore_aliasName? fun aliasName => .pure rfl
  have hall : fieldsVerbatims = List.flatMap Field.verbatims := funext fieldsVerbatims_eq
  apply Stores.bind hfields
  intro fields
  exact hitem.parenthesized.bind fun items => .pure (by simp [hall])

theorem special? {unary? : Rule (Option Expr)} (hunary : unary?.MayStore Expr.verbatims) :
    (nested.special? unary?).MayStore Expr.verbatims := by
  have hexpr {rule : Rule Expr} (hrule : rule.Stores Expr.verbatims) :
      MayStore (do return some (← rule)) Expr.verbatims :=
    hrule.bind fun _ => .pure rfl
  apply (storesNothing_ask _).bind
  intro _
  apply StoresAfter.ite (hexpr h.parenExpr)
  apply (storesNothing_skip "CASE").bind
  intro _
  apply StoresAfter.ite (hexpr h.caseExpr)
  apply (storesNothing_skip "STRUCT").bind
  intro _
  apply StoresAfter.ite (hexpr h.structExpr)
  apply (storesNothing_skip "INTERVAL").bind
  intro _
  apply StoresAfter.ite
  · apply (hunary.require _).bind
    intro count
    exact stores_identifier.bind fun unit => .pure rfl
  apply (storesNothing_ask _).bind
  intro _
  apply StoresAfter.ite _ mayStore_none
  apply (storesNothing_skip "CAST").bind
  intro _
  apply StoresAfter.ite (hexpr (h.castExpr false))
  apply (storesNothing_skip "SAFE_CAST").bind
  intro _
  apply StoresAfter.ite (hexpr (h.castExpr true))
  apply (storesNothing_skip "EXTRACT").bind
  intro _
  apply StoresAfter.ite (hexpr h.extractExpr)
  apply (storesNothing_skip "EXISTS").bind
  intro _
  apply StoresAfter.ite _ mayStore_none
  exact (storesNothing_expect "(").bind fun _ => h.closedQuery.bind fun _ => .pure rfl

omit h in
theorem nameExpr? : Nested.nameExpr?.MayStore Expr.verbatims := by
  have hname : MayStore (Option.map Expr.name <$> qualifiedName?) Expr.verbatims :=
    Stores.map mayStore_qualifiedName? _ fun name => by cases name <;> rfl
  apply Stores.of_ensures
  intro cursor hclean value after hrun
  unfold Nested.nameExpr? at hrun
  cases htoken : cursor.token? 0 with
  | none =>
    simp only [htoken] at hrun
    cases hrun
    exact ⟨.refl cursor, (List.append_nil _).symm⟩
  | some token =>
    simp only [htoken] at hrun
    split at hrun
    · rename_i hkind
      cases hrun
      simp only [Bool.and_eq_true, decide_eq_true_eq] at hkind
      have hread := Cursor.read_advance_name hclean htoken (.inr hkind.1.1)
      have hwhole : Expr.verbatims (.name { first := { raw := token.text } }) =
          Identifier.verbatims { raw := token.text } :=
        List.append_nil _
      refine ⟨cursor.passes_advance 1, hread.trans ?_⟩
      rw [← hwhole]
      rfl
    · exact hname.ensures cursor hclean value after hrun

theorem afterName (name : QualifiedName) :
    StoresAfter name.verbatims (nested.afterName name) Expr.verbatims := by
  have hargument : nested.argument.Stores Expr.verbatims :=
    (storesNothing_skip "*").bind fun _ => StoresAfter.ite (.pure rfl) h.expr
  have hcall : StoresAfter name.verbatims (nested.callRest name) Expr.verbatims := by
    have hrest (distinct : Bool) : StoresAfter name.verbatims (do
        let args ← commaSeparated nested.argument
        let nulls ← nullHandling?
        discard <| expect ")"
        return Expr.call name distinct args nulls) Expr.verbatims := by
      apply hargument.commaSeparated.bind
      intro args
      apply storesNothing_nullHandling?.bind
      intro nulls
      exact (storesNothing_expect ")").bind fun _ => .pure (by simp)
    apply (storesNothing_skip "DISTINCT").bind
    intro distinct
    refine StoresAfter.ite (storesAfter_word ")" ?_ (hrest distinct)) (hrest distinct)
    simp
  apply (storesNothing_skip "(").bind
  intro _
  apply StoresAfter.ite hcall
  apply (storesNothing_ask _).bind
  intro _
  refine StoresAfter.ite ?_ (.pure rfl)
  exact stores_constant.bind fun literal => .pure (by simp)

theorem primary? {unary? : Rule (Option Expr)} (hunary : unary?.MayStore Expr.verbatims) :
    (nested.primary? unary?).MayStore Expr.verbatims := by
  have hconstant : MayStore (Option.map Expr.constant <$> constant?) Expr.verbatims :=
    Stores.map mayStore_constant? _ fun constant => by cases constant <;> rfl
  have hfound : MayStore (firstOf
      [Option.map Expr.constant <$> constant?, nested.array?, nested.arrayAgg?, nested.stringAgg?,
        nested.arrayQuery?, nested.special? unary?, Nested.nameExpr?]) Expr.verbatims := by
    apply mayStore_firstOf
    simp only [List.forall_mem_cons, List.not_mem_nil, IsEmpty.forall_iff, implies_true, and_true]
    exact ⟨hconstant, h.array?, h.arrayAgg?, h.stringAgg?, h.arrayQuery?, h.special? hunary, nameExpr?⟩
  have hrest (expr : Expr) : StoresAfter expr.verbatims (nested.windowed? expr)
      (verbatims? Expr.verbatims) := by
    apply Stores.bind h.window?
    intro window
    cases window with
    | none => exact .pure (List.append_nil _)
    | some window => exact .pure rfl
  apply Stores.bind hfound
  intro found
  cases found with
  | none => exact mayStore_none
  | some found =>
    cases found
    case name name => exact (h.afterName name).bindAfter hrest
    all_goals exact (StoresAfter.pure rfl).bindAfter hrest

end Forms

section Operators

omit h in
theorem leftAssoc {operand? : Rule (Option Expr)} {op? : Rule (Option BinaryOp)}
    (hoperand : operand?.MayStore Expr.verbatims) (hop : op?.StoresNothing) :
    (Grammar.leftAssoc operand? op?).MayStore Expr.verbatims := by
  have htail : (operation? operand? op?).MayStore fun tail : BinaryOp × Expr => tail.2.verbatims := by
    apply hop.bind
    intro op
    cases op with
    | none => exact mayStore_none
    | some op => exact (hoperand.require _).bind fun right => .pure rfl
  apply Stores.bind hoperand
  intro first
  cases first with
  | none => exact mayStore_none
  | some first => exact storesAfter_attached htail (fun _ _ => rfl) first

theorem postfix? : nested.postfix?.MayStore Postfix.verbatims := by
  have hsubscript : nested.subscript.Stores Postfix.verbatims := by
    apply storesNothing_indexKind?.bind
    intro kind
    cases kind with
    | none => exact h.expr.bind fun position => (storesNothing_expect "]").bind fun _ => .pure rfl
    | some kind =>
      apply (storesNothing_expect "(").bind
      intro _
      exact h.closedExpr.bind fun position => (storesNothing_expect "]").bind fun _ => .pure rfl
  apply (storesNothing_skip "[").bind
  intro _
  refine StoresAfter.ite (hsubscript.bind fun _ => .pure rfl) ?_
  apply Stores.bind mayStore_dotSegment?
  intro name
  cases name <;> exact .pure rfl

theorem unary? : nested.unary?.MayStore Expr.verbatims := by
  have hsteps (steps : Nat) : (nested.unaryUpTo? steps).MayStore Expr.verbatims := by
    induction steps with
    | zero => exact mayStore_none
    | succ steps ih =>
      apply storesNothing_sign?.bind
      intro op
      cases op with
      | some op => exact h.signOperand.bind fun _ => .pure rfl
      | none =>
        apply Stores.bind (h.primary? ih)
        intro base
        cases base with
        | none => exact mayStore_none
        | some base => exact storesAfter_attached h.postfix? Postfix.verbatims_attach base
  exact (storesNothing_ask fun cursor => cursor.remaining + 1).bind hsteps

theorem bitOr? : nested.bitOr?.MayStore Expr.verbatims := by
  have hproduct : nested.product?.MayStore Expr.verbatims := leftAssoc h.unary? (storesNothing_opOf? _)
  have hsum : nested.sum?.MayStore Expr.verbatims := leftAssoc hproduct (storesNothing_opOf? _)
  have hshift : nested.shift?.MayStore Expr.verbatims := leftAssoc hsum storesNothing_shiftOp?
  have hbitAnd : nested.bitAnd?.MayStore Expr.verbatims := leftAssoc hshift (storesNothing_opOf? _)
  have hbitXor : nested.bitXor?.MayStore Expr.verbatims := leftAssoc hbitAnd (storesNothing_opOf? _)
  exact leftAssoc hbitXor (storesNothing_opOf? _)

theorem memberTarget : nested.memberTarget.Stores MemberTarget.verbatims := by
  apply (storesNothing_skipAll (by simp)).bind
  intro _
  refine StoresAfter.ite (h.closedExpr.bind fun _ => .pure rfl) ?_
  apply (storesNothing_ask _).bind
  intro isQuery
  apply (storesNothing_expect "(").bind
  intro _
  refine StoresAfter.ite (h.closedQuery.bind fun _ => .pure rfl) ?_
  apply h.expr.commaSeparated.bind
  intro items
  exact (storesNothing_expect ")").bind fun _ => .pure (exprsVerbatims_eq items).symm

theorem comparison? : nested.comparison?.MayStore Comparison.verbatims := by
  have hoperand : (require "an expression" nested.bitOr?).Stores Expr.verbatims := h.bitOr?.require _
  apply (storesNothing_opOf? _).bind
  intro op
  cases op with
  | some op => exact hoperand.bind fun _ => .pure rfl
  | none =>
    apply (storesNothing_skip "IS").bind
    intro _
    apply StoresAfter.ite
    · apply (storesNothing_skip "NOT").bind
      intro negated
      exact storesNothing_isTest.bind fun value => .pure rfl
    apply storesNothing_negated.bind
    intro negated
    apply (storesNothing_skip "LIKE").bind
    intro _
    refine StoresAfter.ite (hoperand.bind fun _ => .pure rfl) ?_
    apply (storesNothing_skip "IN").bind
    intro _
    refine StoresAfter.ite (h.memberTarget.bind fun _ => .pure rfl) ?_
    apply (storesNothing_skip "BETWEEN").bind
    intro _
    apply StoresAfter.ite _ mayStore_none
    apply hoperand.bind
    intro low
    exact (storesNothing_expect "AND").bind fun _ => hoperand.bind fun high => .pure rfl

theorem not? : nested.not?.MayStore Expr.verbatims := by
  have hcompared : nested.compared?.MayStore Expr.verbatims := by
    apply Stores.bind h.bitOr?
    intro left
    cases left with
    | none => exact mayStore_none
    | some left => exact storesAfter_attached h.comparison? Comparison.verbatims_attach left
  apply (storesNothing_skip "NOT").bind
  intro _
  exact StoresAfter.ite (h.notOperand.bind fun _ => .pure rfl) hcompared

theorem or? : nested.or?.MayStore Expr.verbatims :=
  leftAssoc (leftAssoc h.not? (storesNothing_opOf? _)) (storesNothing_opOf? _)

end Operators

end IsStoring

end Nested

end Grammar

end SqlLayout
