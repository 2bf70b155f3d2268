import SqlLayout.Proofs.Echo.Name

/-!
# Expressions without Regard to Case

The rules for expressions echo, given that the rules they may nest do. What a rule attaches piece by piece
may as well be changed piece by piece.
-/

namespace SqlLayout.Grammar

open Rule

section Tails

variable {α β : Type} {rule : Rule (Option β)} {attach : α → β → α} {whole : α → α} {change : β → β}

/-- What is attached piece by piece to something read before. -/
theorem echoesAs_attached (h : rule.MayEcho change)
    (hattach : ∀ value piece, attach (whole value) (change piece) = whole (attach value piece))
    (first : α) :
    EchoesAs (do return some ((← many rule).foldl attach first))
      (do return some ((← many rule).foldl attach (whole first))) (Option.map whole) := by
  have hfold (pieces : List β) (first : α) :
      (pieces.map change).foldl attach (whole first) = whole (pieces.foldl attach first) := by
    induction pieces generalizing first with
    | nil => rfl
    | cons piece pieces ih => rw [List.map_cons, List.foldl_cons, hattach, ih, List.foldl_cons]
  exact EchoesAs.bind h.many fun pieces => .pure (congrArg some (hfold pieces first))

def Postfix.capital : Postfix → Postfix
  | index kind position => .index kind position.capital
  | field name => .field name.capital

def Comparison.capital : Comparison → Comparison
  | binary op right => .binary op right.capital
  | isValue negated value => .isValue negated value
  | member negated target => .member negated target.capital
  | between negated low high => .between negated low.capital high.capital

theorem Postfix.attach_capital (base : Expr) (tail : Postfix) :
    tail.capital.attach base.capital = (tail.attach base).capital := by
  cases tail <;> rfl

theorem Comparison.attach_capital (left : Expr) (tail : Comparison) :
    tail.capital.attach left.capital = (tail.attach left).capital := by
  cases tail <;> rfl

end Tails

namespace Nested

/-- Nested rules that echo. -/
structure IsEchoing (nested : Nested) : Prop where
  expr? : nested.expr?.MayEcho Expr.capital
  notOperand : nested.notOperand.Echoes Expr.capital
  signOperand : nested.signOperand.Echoes Expr.capital
  query? : nested.query?.MayEcho Query.capital
  type? : nested.type?.MayEcho SqlType.capital
  fields : nested.fields.Echoes (List.map Field.capital)

namespace IsEchoing

variable {nested : Nested} (h : nested.IsEchoing)

include h

section Clauses

theorem expr : nested.expr.Echoes Expr.capital :=
  h.expr?.require _

theorem type : nested.type.Echoes SqlType.capital :=
  h.type?.require _

theorem queryHere? : nested.queryHere?.MayEcho Query.capital :=
  (echoesSame_ask fun cursor => cursor.seesAnyAt_capital 0 queryStarts).bind fun _ =>
    EchoesAs.ite h.query? (.pure rfl)

theorem query : nested.query.Echoes Query.capital :=
  h.queryHere?.require _

theorem parenQuery? : nested.parenQuery?.MayEcho Query.capital := by
  have henclosed : nested.enclosedQuery?.MayEcho Query.capital := by
    apply echoesSame_bump.bind
    intro _
    apply h.queryHere?.bind
    · exact .pure rfl
    · intro query
      apply (echoesSame_skip ")").bind
      intro isClosed
      cases isClosed <;> exact .pure rfl
  exact (echoesSame_sees "(").bind fun _ => EchoesAs.ite henclosed.once (.pure rfl)

theorem closedQuery : nested.closedQuery.Echoes Query.capital :=
  EchoesAs.bind h.query fun _ => (echoesSame_expect ")").bind fun _ => .pure rfl

theorem closedExpr : nested.closedExpr.Echoes Expr.capital :=
  EchoesAs.bind h.expr fun _ => (echoesSame_expect ")").bind fun _ => .pure rfl

theorem exprAfter? (keyword : String) : (nested.exprAfter? keyword).MayEcho Expr.capital :=
  (echoesSame_skip keyword).bind fun _ =>
    EchoesAs.ite (EchoesAs.bind h.expr fun _ => .pure rfl) (.pure rfl)

theorem sortKey? : nested.sortKey?.MayEcho SortKey.capital := by
  apply h.expr?.bind
  · exact .pure rfl
  · intro expr
    exact echoesSame_direction?.bind fun _ => echoesSame_nullsOrder?.bind fun _ => .pure rfl

theorem orderBy : nested.orderBy.Echoes (List.map SortKey.capital) := by
  apply (echoesSame_skip "ORDER").bind
  intro _
  refine EchoesAs.ite ?_ (.pure rfl)
  exact (echoesSame_expect "BY").bind fun _ => (h.sortKey?.require _).commaSeparated

theorem rowOrder? : nested.rowOrder?.MayEcho RowOrder.capital := by
  apply EchoesAs.bind h.orderBy
  intro keys
  apply (h.exprAfter? "LIMIT").bind
  · apply EchoesAs.pure
    cases keys with
    | nil => rfl
    | cons key keys => simp [RowOrder.capital]
  · intro limit
    apply EchoesAs.bind (h.exprAfter? "OFFSET")
    intro offset
    exact .pure (by simp [RowOrder.capital])

theorem window? : nested.window?.MayEcho Window.capital := by
  have hpartition : nested.partitionBy.Echoes (List.map Expr.capital) := by
    apply (echoesSame_skip "PARTITION").bind
    intro _
    refine EchoesAs.ite ?_ (.pure rfl)
    exact (echoesSame_expect "BY").bind fun _ => h.expr.commaSeparated
  apply (echoesSame_skip "OVER").bind
  intro _
  refine EchoesAs.ite ?_ (.pure rfl)
  apply (echoesSame_expect "(").bind
  intro _
  apply EchoesAs.bind hpartition
  intro partition
  apply EchoesAs.bind h.orderBy
  intro order
  apply echoesSame_frame?.bind
  intro frame
  exact (echoesSame_expect ")").bind fun _ => .pure (by simp [Window.capital])

end Clauses

section Forms

attribute [local simp] Expr.capital

theorem array? : nested.array?.MayEcho Expr.capital := by
  have hhead : nested.arrayHead?.MayEcho (Option.map SqlType.capital) := by
    apply (echoesSame_skipAll (by simp)).bind
    intro _
    apply EchoesAs.ite
    · apply EchoesAs.bind h.type
      intro type
      apply (echoesSame_expect ">").bind
      intro _
      exact (echoesSame_expect "[").bind fun _ => .pure rfl
    apply (echoesSame_skipAll (by simp)).bind
    intro _
    refine EchoesAs.ite (.pure rfl) ?_
    apply (echoesSame_skip "[").bind
    intro _
    exact EchoesAs.ite (.pure rfl) (.pure rfl)
  apply hhead.bind
  · exact .pure rfl
  · intro type
    apply (echoesSame_skip "]").bind
    intro _
    refine EchoesAs.ite (.pure rfl) ?_
    apply EchoesAs.bind h.expr.commaSeparated
    intro items
    exact (echoesSame_expect "]").bind fun _ => .pure (by simp)

theorem arrayAgg? : nested.arrayAgg?.MayEcho Expr.capital := by
  have hoffset : nested.aggOffset?.MayEcho Expr.capital := by
    apply (echoesSame_skipAll (by simp)).bind
    intro _
    refine EchoesAs.ite ?_ (.pure rfl)
    apply (echoesSame_expect "(").bind
    intro _
    apply EchoesAs.bind h.closedExpr
    intro position
    exact (echoesSame_expect "]").bind fun _ => .pure rfl
  apply (echoesSame_skipAll (by simp)).bind
  intro _
  refine EchoesAs.ite ?_ (.pure rfl)
  apply (echoesSame_skip "DISTINCT").bind
  intro distinct
  apply EchoesAs.bind h.expr
  intro operand
  apply echoesSame_nullHandling?.bind
  intro nulls
  apply EchoesAs.bind h.rowOrder?
  intro order
  apply EchoesAs.bind h.window?
  intro window
  apply (echoesSame_expect ")").bind
  intro _
  exact EchoesAs.bind hoffset fun offset => .pure (by simp)

theorem accessor? : nested.accessor?.MayEcho Accessor.capital := by
  have hrest (accessor : Accessor) :
      EchoesAs (do discard <| expect "]"; return some accessor)
        (do discard <| expect "]"; return some accessor.capital) (Option.map Accessor.capital) :=
    (echoesSame_expect "]").bind fun _ => .pure rfl
  apply (echoesSame_skip "[").bind
  intro _
  refine EchoesAs.ite ?_ (.pure rfl)
  apply (echoesSame_seesAt 1 "(").bind
  intro isCall
  apply EchoesAs.ite
  · apply EchoesAs.bind mayEcho_segment?
    intro name
    apply (echoesSame_expect "(").bind
    intro _
    exact EchoesAs.bind h.closedExpr fun position => hrest { name, position }
  · exact EchoesAs.bind h.expr fun position => hrest { name := none, position }

theorem stringAgg? : nested.stringAgg?.MayEcho Expr.capital := by
  have hfunction : stringFunction?.EchoesSame := by
    apply (echoesSame_skipAll (by simp)).bind
    intro _
    refine EchoesAs.ite (.pure rfl) ?_
    apply (echoesSame_skipAll (by simp)).bind
    intro _
    exact EchoesAs.ite (.pure rfl) echoesSame_none
  apply hfunction.bind
  intro function
  cases function with
  | none => exact .pure rfl
  | some function =>
    apply (echoesSame_skip "DISTINCT").bind
    intro distinct
    apply EchoesAs.bind h.expr
    intro operand
    have hdelimiter : EchoesSame (some <$> constant) := EchoesAs.map echoesSame_constant fun _ => rfl
    apply (echoesSame_skip ",").bind
    intro _
    apply EchoesAs.iteBind hdelimiter (.pure rfl)
    intro delimiter
    apply echoesSame_nullHandling?.bind
    intro nulls
    apply EchoesAs.bind h.rowOrder?
    intro order
    apply EchoesAs.bind h.window?
    intro window
    apply (echoesSame_expect ")").bind
    intro _
    exact EchoesAs.bind h.accessor? fun accessor => .pure (by simp)

theorem arrayQuery? : nested.arrayQuery?.MayEcho Expr.capital :=
  (echoesSame_skipAll (by simp)).bind fun _ =>
    EchoesAs.ite (EchoesAs.bind h.closedQuery fun _ => .pure rfl) (.pure rfl)

theorem parenExpr : nested.parenExpr.Echoes Expr.capital := by
  apply h.parenQuery?.bind
  · exact (echoesSame_expect "(").bind fun _ => EchoesAs.bind h.closedExpr fun _ => .pure rfl
  · intro query
    exact .pure rfl

theorem castExpr (safe : Bool) : (nested.castExpr safe).Echoes Expr.capital := by
  apply (echoesSame_expect "(").bind
  intro _
  apply EchoesAs.bind h.expr
  intro operand
  apply (echoesSame_expect "AS").bind
  intro _
  apply EchoesAs.bind h.type
  intro type
  exact (echoesSame_expect ")").bind fun _ => .pure rfl

theorem extractExpr : nested.extractExpr.Echoes Expr.capital := by
  apply (echoesSame_expect "(").bind
  intro _
  apply EchoesAs.bind h.expr
  intro part
  apply (echoesSame_expect "FROM").bind
  intro _
  apply EchoesAs.bind h.expr
  intro operand
  have hzone : MayEcho (some <$> nested.expr) Expr.capital := EchoesAs.map h.expr fun _ => rfl
  apply (echoesSame_skipAll (by simp)).bind
  intro _
  apply EchoesAs.iteBind hzone (.pure rfl)
  intro zone
  exact (echoesSame_expect ")").bind fun _ => .pure (by simp)

theorem caseExpr : nested.caseExpr.Echoes Expr.capital := by
  have hbranch : nested.branch?.MayEcho Branch.capital := by
    apply (echoesSame_skip "WHEN").bind
    intro _
    refine EchoesAs.ite ?_ (.pure rfl)
    apply EchoesAs.bind h.expr
    intro condition
    apply (echoesSame_expect "THEN").bind
    intro _
    exact EchoesAs.bind h.expr fun result => .pure rfl
  have hoperand : MayEcho (some <$> nested.expr) Expr.capital := EchoesAs.map h.expr fun _ => rfl
  apply (echoesSame_sees "WHEN").bind
  intro _
  apply EchoesAs.iteBind (.pure rfl) hoperand
  intro operand
  apply EchoesAs.bind hbranch.many
  intro branches
  have hrest : EchoesAs
      (do
        let otherwise ← nested.exprAfter? "ELSE"
        discard <| expect "END"
        return Expr.case operand branches otherwise)
      (do
        let otherwise ← nested.exprAfter? "ELSE"
        discard <| expect "END"
        return Expr.case (operand.map Expr.capital) (branches.map Branch.capital) otherwise)
      Expr.capital := by
    apply EchoesAs.bind (h.exprAfter? "ELSE")
    intro otherwise
    exact (echoesSame_expect "END").bind fun _ => .pure (by simp)
  cases branches with
  | nil => exact echoes_expected _
  | cons branch branches => exact hrest

theorem structExpr : nested.structExpr.Echoes Expr.capital := by
  have hfields : nested.structFields?.MayEcho (List.map Field.capital) := by
    apply (echoesSame_skip "<>").bind
    intro _
    refine EchoesAs.ite (.pure rfl) ?_
    apply (echoesSame_skip "<").bind
    intro _
    exact EchoesAs.ite (EchoesAs.bind h.fields fun fields => .pure rfl) (.pure rfl)
  have hitem : Echoes (do
      return { expr := ← nested.expr, aliasName := ← aliasName? : StructItem }) StructItem.capital :=
    EchoesAs.bind h.expr fun expr => EchoesAs.bind mayEcho_aliasName? fun aliasName => .pure rfl
  have hall : fieldsCapital = List.map Field.capital := funext fieldsCapital_eq
  apply EchoesAs.bind hfields
  intro fields
  exact EchoesAs.bind hitem.parenthesized fun items => .pure (by simp [hall])

theorem special? {unary? : Rule (Option Expr)} (hunary : unary?.MayEcho Expr.capital) :
    (nested.special? unary?).MayEcho Expr.capital := by
  have hexpr {rule : Rule Expr} (hrule : rule.Echoes Expr.capital) :
      MayEcho (do return some (← rule)) Expr.capital :=
    EchoesAs.bind hrule fun _ => .pure rfl
  apply (echoesSame_sees "(").bind
  intro _
  apply EchoesAs.ite (hexpr h.parenExpr)
  apply (echoesSame_skip "CASE").bind
  intro _
  apply EchoesAs.ite (hexpr h.caseExpr)
  apply (echoesSame_skip "STRUCT").bind
  intro _
  apply EchoesAs.ite (hexpr h.structExpr)
  apply (echoesSame_skip "INTERVAL").bind
  intro _
  apply EchoesAs.ite
  · apply EchoesAs.bind (hunary.require _)
    intro count
    exact EchoesAs.bind echoes_identifier fun unit => .pure rfl
  apply (echoesSame_seesAt 1 "(").bind
  intro _
  refine EchoesAs.ite ?_ (.pure rfl)
  apply (echoesSame_skip "CAST").bind
  intro _
  apply EchoesAs.ite (hexpr (h.castExpr false))
  apply (echoesSame_skip "SAFE_CAST").bind
  intro _
  apply EchoesAs.ite (hexpr (h.castExpr true))
  apply (echoesSame_skip "EXTRACT").bind
  intro _
  apply EchoesAs.ite (hexpr h.extractExpr)
  apply (echoesSame_skip "EXISTS").bind
  intro _
  refine EchoesAs.ite ?_ (.pure rfl)
  exact (echoesSame_expect "(").bind fun _ => EchoesAs.bind h.closedQuery fun _ => .pure rfl

omit h in
theorem nameExpr? : Nested.nameExpr?.MayEcho Expr.capital := by
  have hname : MayEcho (Option.map Expr.name <$> qualifiedName?) Expr.capital :=
    EchoesAs.map mayEcho_qualifiedName? fun name => by cases name <;> rfl
  intro cursor hclean
  have hrun := Nested.nameExpr?_apply cursor
  have hecho := Nested.nameExpr?_apply cursor.capital
  rw [cursor.token?_capital, cursor.seesAt_capital] at hecho
  cases htoken : cursor.token? 0 with
  | none =>
    rw [htoken] at hrun hecho
    exact .gives none cursor hrun hecho (.refl cursor)
  | some token =>
    rw [htoken] at hrun hecho
    have hcallable : (token.kind = .word && Keyword.isCallable token.capital.text) =
        (token.kind = .word && Keyword.isCallable token.text) := by
      by_cases hword : token.kind = .word
      · rw [Keyword.isCallable_congr]
        rw [Token.capital, if_pos hword, Text.sameWord_iff]
        exact Text.upper_upper token.text
      · rw [Token.capital_of_ne hword]
    simp only [Option.map_some, Token.kind_capital, hcallable] at hrun hecho
    by_cases hcall :
        (token.kind = .word && Keyword.isCallable token.text && cursor.seesAt 1 "(") = true
    · rw [if_pos hcall] at hrun hecho
      have hword : token.kind = .word := by
        simp only [Bool.and_eq_true, decide_eq_true_eq] at hcall
        exact hcall.1.1
      refine .gives _ _ hrun (hecho.trans ?_) (cursor.passes_advance 1)
      rw [← Identifier.capital_token (hclean.isGenuine htoken) (.inr hword)]
      rfl
    · rw [if_neg hcall] at hrun hecho
      exact (hname cursor hclean).of_eq hrun hecho

omit h in
/-- A name says in capitals, too, whether it is the name of a typed literal. -/
theorem isTyped_capital (name : QualifiedName) :
    (name.capital.isSingle && typedLiterals.any (Text.sameWord name.capital.first.raw)) =
      (name.isSingle && typedLiterals.any (Text.sameWord name.first.raw)) := by
  have hsingle : name.capital.isSingle = name.isSingle := by
    rw [QualifiedName.isSingle, QualifiedName.isSingle, QualifiedName.capital, List.isEmpty_map]
  have hupper : Text.upper name.capital.first.raw = Text.upper name.first.raw := by
    rw [QualifiedName.capital, Identifier.capital]
    split
    · rfl
    · exact Text.upper_upper name.first.raw
  have hsame : Text.sameWord name.capital.first.raw = Text.sameWord name.first.raw := by
    funext literal
    rw [Text.sameWord, Text.sameWord, hupper]
  rw [hsingle, hsame]

theorem afterName (name : QualifiedName) :
    (nested.afterName name).EchoesAs (nested.afterName name.capital) Expr.capital := by
  have hargument : nested.argument.Echoes Expr.capital :=
    (echoesSame_skip "*").bind fun _ => EchoesAs.ite (.pure rfl) h.expr
  have hrest (distinct : Bool) : EchoesAs
      (do
        let args ← commaSeparated nested.argument
        let nulls ← nullHandling?
        discard <| expect ")"
        return Expr.call name distinct args nulls)
      (do
        let args ← commaSeparated nested.argument
        let nulls ← nullHandling?
        discard <| expect ")"
        return Expr.call name.capital distinct args nulls) Expr.capital := by
    apply EchoesAs.bind hargument.commaSeparated
    intro args
    apply echoesSame_nullHandling?.bind
    intro nulls
    exact (echoesSame_expect ")").bind fun _ => .pure (by simp)
  have hcall : (nested.callRest name).EchoesAs (nested.callRest name.capital) Expr.capital := by
    apply (echoesSame_skip "DISTINCT").bind
    intro distinct
    refine EchoesAs.ite ?_ (hrest distinct)
    exact (echoesSame_skip ")").bind fun _ => EchoesAs.ite (.pure rfl) (hrest distinct)
  apply (echoesSame_skip "(").bind
  intro _
  apply EchoesAs.ite hcall
  apply echoesSame_kind?.bind
  intro kind
  rw [isTyped_capital]
  refine EchoesAs.ite ?_ (.pure rfl)
  exact echoesSame_constant.bind fun literal => .pure rfl

theorem primary? {unary? : Rule (Option Expr)} (hunary : unary?.MayEcho Expr.capital) :
    (nested.primary? unary?).MayEcho Expr.capital := by
  have hconstant : MayEcho (Option.map Expr.constant <$> constant?) Expr.capital :=
    EchoesAs.map echoesSame_constant? fun constant => by cases constant <;> rfl
  have hfound : MayEcho (firstOf
      [Option.map Expr.constant <$> constant?, nested.array?, nested.arrayAgg?, nested.stringAgg?,
        nested.arrayQuery?, nested.special? unary?, Nested.nameExpr?]) Expr.capital := by
    apply mayEcho_firstOf
    simp only [List.forall_mem_cons, List.not_mem_nil, IsEmpty.forall_iff, implies_true, and_true]
    exact ⟨hconstant, h.array?, h.arrayAgg?, h.stringAgg?, h.arrayQuery?, h.special? hunary, nameExpr?⟩
  have hrest (expr : Expr) : EchoesAs (nested.windowed? expr) (nested.windowed? expr.capital)
      (Option.map Expr.capital) := by
    apply h.window?.bind
    · exact .pure rfl
    · intro window
      exact .pure rfl
  apply hfound.bind
  · exact .pure rfl
  · intro found
    cases found
    case name name => exact EchoesAs.bind (h.afterName name) hrest
    all_goals exact EchoesAs.bind (.pure rfl) hrest

end Forms

section Operators

omit h in
theorem leftAssoc {operand? : Rule (Option Expr)} {op? : Rule (Option BinaryOp)}
    (hoperand : operand?.MayEcho Expr.capital) (hop : op?.EchoesSame) :
    (Grammar.leftAssoc operand? op?).MayEcho Expr.capital := by
  have htail : (operation? operand? op?).MayEcho fun tail : BinaryOp × Expr =>
      (tail.1, tail.2.capital) := by
    apply hop.bind
    intro op
    cases op with
    | none => exact .pure rfl
    | some op => exact EchoesAs.bind (hoperand.require _) fun right => .pure rfl
  apply hoperand.bind
  · exact .pure rfl
  · apply echoesAs_attached htail
    intro left tail
    rfl

theorem postfix? : nested.postfix?.MayEcho Postfix.capital := by
  have hsubscript : nested.subscript.Echoes Postfix.capital := by
    apply echoesSame_indexKind?.bind
    intro kind
    cases kind with
    | none => exact EchoesAs.bind h.expr fun position => (echoesSame_expect "]").bind fun _ => .pure rfl
    | some kind =>
      apply (echoesSame_expect "(").bind
      intro _
      exact EchoesAs.bind h.closedExpr fun position => (echoesSame_expect "]").bind fun _ => .pure rfl
  apply (echoesSame_skip "[").bind
  intro _
  refine EchoesAs.ite (EchoesAs.bind hsubscript fun _ => .pure rfl) ?_
  exact mayEcho_dotSegment?.bind (.pure rfl) fun name => .pure rfl

theorem unary? : nested.unary?.MayEcho Expr.capital := by
  have hsteps (steps : Nat) : (nested.unaryUpTo? steps).MayEcho Expr.capital := by
    induction steps with
    | zero => exact .pure rfl
    | succ steps ih =>
      apply echoesSame_sign?.bind
      intro op
      cases op with
      | some op => exact EchoesAs.bind h.signOperand fun _ => .pure rfl
      | none =>
        apply (h.primary? ih).bind
        · exact .pure rfl
        · intro base
          exact echoesAs_attached h.postfix? Postfix.attach_capital base
  exact echoesSame_steps.bind hsteps

theorem bitOr? : nested.bitOr?.MayEcho Expr.capital := by
  have hproduct : nested.product?.MayEcho Expr.capital := leftAssoc h.unary? (echoesSame_opOf? _)
  have hsum : nested.sum?.MayEcho Expr.capital := leftAssoc hproduct (echoesSame_opOf? _)
  have hshift : nested.shift?.MayEcho Expr.capital := leftAssoc hsum echoesSame_shiftOp?
  have hbitAnd : nested.bitAnd?.MayEcho Expr.capital := leftAssoc hshift (echoesSame_opOf? _)
  have hbitXor : nested.bitXor?.MayEcho Expr.capital := leftAssoc hbitAnd (echoesSame_opOf? _)
  exact leftAssoc hbitXor (echoesSame_opOf? _)

theorem memberTarget : nested.memberTarget.Echoes MemberTarget.capital := by
  have hquery (cursor : Cursor) :
      (cursor.capital.sees "(" && (cursor.capital.seesAt 1 "SELECT" || cursor.capital.seesAt 1 "WITH")) =
        (cursor.sees "(" && (cursor.seesAt 1 "SELECT" || cursor.seesAt 1 "WITH")) := by
    rw [cursor.sees_capital, cursor.seesAt_capital, cursor.seesAt_capital]
  apply (echoesSame_skipAll (by simp)).bind
  intro _
  refine EchoesAs.ite (EchoesAs.bind h.closedExpr fun _ => .pure rfl) ?_
  apply (echoesSame_ask hquery).bind
  intro isQuery
  apply (echoesSame_expect "(").bind
  intro _
  refine EchoesAs.ite (EchoesAs.bind h.closedQuery fun _ => .pure rfl) ?_
  apply EchoesAs.bind h.expr.commaSeparated
  intro items
  exact (echoesSame_expect ")").bind fun _ => .pure (by simp [MemberTarget.capital])

theorem comparison? : nested.comparison?.MayEcho Comparison.capital := by
  have hoperand : (require "an expression" nested.bitOr?).Echoes Expr.capital := h.bitOr?.require _
  apply (echoesSame_opOf? _).bind
  intro op
  cases op with
  | some op => exact EchoesAs.bind hoperand fun _ => .pure rfl
  | none =>
    apply (echoesSame_skip "IS").bind
    intro _
    apply EchoesAs.ite
    · apply (echoesSame_skip "NOT").bind
      intro negated
      exact echoesSame_isTest.bind fun value => .pure rfl
    apply echoesSame_negated.bind
    intro negated
    apply (echoesSame_skip "LIKE").bind
    intro _
    refine EchoesAs.ite (EchoesAs.bind hoperand fun _ => .pure rfl) ?_
    apply (echoesSame_skip "IN").bind
    intro _
    refine EchoesAs.ite (EchoesAs.bind h.memberTarget fun _ => .pure rfl) ?_
    apply (echoesSame_skip "BETWEEN").bind
    intro _
    refine EchoesAs.ite ?_ (.pure rfl)
    apply EchoesAs.bind hoperand
    intro low
    exact (echoesSame_expect "AND").bind fun _ => EchoesAs.bind hoperand fun high => .pure rfl

theorem not? : nested.not?.MayEcho Expr.capital := by
  have hcompared : nested.compared?.MayEcho Expr.capital := by
    apply h.bitOr?.bind
    · exact .pure rfl
    · intro left
      exact echoesAs_attached h.comparison? Comparison.attach_capital left
  apply (echoesSame_skip "NOT").bind
  intro _
  exact EchoesAs.ite (EchoesAs.bind h.notOperand fun _ => .pure rfl) hcompared

theorem or? : nested.or?.MayEcho Expr.capital :=
  leftAssoc (leftAssoc h.not? (echoesSame_opOf? _)) (echoesSame_opOf? _)

end Operators

end IsEchoing

end Nested

end SqlLayout.Grammar
