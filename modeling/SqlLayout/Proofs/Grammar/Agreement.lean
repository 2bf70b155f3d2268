import SqlLayout.Proofs.Cursor.Agreement
import SqlLayout.Proofs.Grammar.Pieces

/-!
# Agreement of the Rules without Queries

Names, constants, types and the short modifiers never come near a parenthesised query, so they agree at
every cursor. The rules that nest expressions are tame as soon as the rules they nest are.
-/

namespace SqlLayout.Grammar

open Rule

section Names

theorem isQuiet_identifier? : identifier?.IsQuiet := by
  intro cursor
  have hsame : cursor.forgetful.token? 0 = cursor.token? 0 := rfl
  unfold AgreesAt identifier?
  rw [hsame]
  cases cursor.token? 0 with
  | none => exact ⟨rfl, .refl cursor⟩
  | some token =>
    by_cases h :
        (token.kind = .quotedIdent || (token.kind = .word && !Keyword.isReserved token.text)) = true
    · simp only [h, if_true]
      exact ⟨rfl, cursor.passes_advance 1⟩
    · simp only [h]
      exact ⟨rfl, .refl cursor⟩

theorem isQuiet_identifier : identifier.IsQuiet :=
  (isQuiet_identifier?).require _

theorem isQuiet_segment? : segment?.IsQuiet := by
  intro cursor
  have hsame : cursor.forgetful.token? 0 = cursor.token? 0 := rfl
  unfold AgreesAt segment?
  rw [hsame]
  cases cursor.token? 0 with
  | none => exact ⟨rfl, .refl cursor⟩
  | some token =>
    by_cases h : (token.kind = .quotedIdent || token.kind = .word) = true
    · simp only [h, if_true]
      exact ⟨rfl, cursor.passes_advance 1⟩
    · simp only [h]
      exact ⟨rfl, .refl cursor⟩

theorem isQuiet_dotSegment? : dotSegment?.IsQuiet :=
  ((isQuiet_skip ".").bind fun _ => (isQuiet_segment?).ite (.pure none)).attempt

theorem isQuiet_qualifiedName? : qualifiedName?.IsQuiet := by
  apply (isQuiet_identifier?).bind
  intro first
  cases first with
  | none => exact .pure none
  | some first => exact (isQuiet_dotSegment?).many.bind fun rest => .pure _

theorem isQuiet_qualifiedName : qualifiedName.IsQuiet :=
  (isQuiet_qualifiedName?).require _

theorem isQuiet_aliasName? : aliasName?.IsQuiet :=
  (isQuiet_skip "AS").bind fun _ => ((isQuiet_identifier).bind fun _ => .pure _).ite isQuiet_identifier?

theorem isQuiet_constant? : constant?.IsQuiet := by
  apply isQuiet_kind?.bind
  intro kind
  have hword : wordConstant?.IsQuiet := by
    apply (isQuiet_takeAny? _).bind
    intro text
    cases text with
    | none => exact (isQuiet_skip "NULL").bind fun _ => (IsQuiet.pure _).ite (.pure none)
    | some text => exact .pure _
  split
  · exact isQuiet_bump.bind fun _ => .pure _
  · exact isQuiet_bump.bind fun _ => .pure _
  · exact hword
  · exact .pure none

theorem isQuiet_constant : constant.IsQuiet :=
  (isQuiet_constant?).require _

end Names

section Types

theorem isQuiet_typeParams : typeParams.IsQuiet := by
  apply (isQuiet_sees "(").bind
  intro isOpen
  apply (isQuiet_ask fun _ => rfl).bind
  intro kind
  apply IsQuiet.ite _ (.pure [])
  apply (isQuiet_expect "(").discard.bind
  intro _
  apply (isQuiet_constant).commaSeparated.bind
  intro params
  exact (isQuiet_expect ")").discard.bind fun _ => .pure params

variable {element : Rule SqlType} {fields : Rule (List Field)} {type : Rule (Option SqlType)}

theorem isQuiet_typeWith? (helement : element.IsQuiet) (hfields : fields.IsQuiet) :
    (typeWith? element fields).IsQuiet := by
  apply (isQuiet_skipAll _).bind
  intro _
  apply (IsQuiet.pure _).ite
  apply (isQuiet_skipAll _).bind
  intro _
  apply IsQuiet.ite
  · apply helement.bind
    intro type
    exact (isQuiet_expect ">").discard.bind fun _ => .pure _
  apply (isQuiet_skipAll _).bind
  intro _
  apply (IsQuiet.pure _).ite
  apply (isQuiet_skipAll _).bind
  intro _
  apply (hfields.bind fun _ => .pure _).ite
  apply (isQuiet_takeKind? _).bind
  intro raw
  cases raw with
  | none => exact .pure none
  | some raw => exact (isQuiet_typeParams).bind fun _ => .pure _

theorem isQuiet_fieldWith (htype : type.IsQuiet) : (fieldWith type).IsQuiet := by
  apply (isQuiet_ask fun _ => rfl).bind
  intro isNamed
  have hfield (name : Option Identifier) : IsQuiet (do
      return ({ name, type := ← require "a type" type } : Field)) :=
    (htype.require "a type").bind fun _ => .pure _
  apply IsQuiet.ite
  · exact (isQuiet_segment?).bind hfield
  · exact (IsQuiet.pure none).bind hfield

theorem isQuiet_fieldsWith (htype : type.IsQuiet) : (fieldsWith type).IsQuiet := by
  apply (isQuiet_skip ">").bind
  intro _
  apply (IsQuiet.pure []).ite
  apply (isQuiet_fieldWith htype).commaSeparated.bind
  intro fields
  exact (isQuiet_expect ">").discard.bind fun _ => .pure fields

theorem isQuiet_elementAt_and_nestedFieldsAt (levels : Nat) :
    (elementAt levels).IsQuiet ∧ (nestedFieldsAt levels).IsQuiet := by
  induction levels with
  | zero => exact ⟨isQuiet_tooDeep, isQuiet_tooDeep⟩
  | succ levels ih =>
    have htype := isQuiet_typeWith? ih.1 ih.2
    exact ⟨(htype.require "a type").descend, (isQuiet_fieldsWith htype).descend⟩

theorem isQuiet_typeAt? (levels : Nat) : (typeAt? levels).IsQuiet :=
  isQuiet_typeWith? (isQuiet_elementAt_and_nestedFieldsAt levels).1
    (isQuiet_elementAt_and_nestedFieldsAt levels).2

theorem isQuiet_fieldsAt (levels : Nat) : (fieldsAt levels).IsQuiet :=
  isQuiet_fieldsWith (isQuiet_typeAt? levels)

theorem isQuiet_declarationWith? (htype : type.IsQuiet) : (declarationWith? type).IsQuiet := by
  apply (isQuiet_identifier?).bind
  intro name
  cases name with
  | none => exact .pure none
  | some name => exact (htype.require "a type").bind fun _ => .pure _

end Types

section Modifiers

theorem isQuiet_nullHandling? : nullHandling?.IsQuiet := by
  have hword : nullWord?.IsQuiet :=
    (isQuiet_skip "IGNORE").bind fun _ => (IsQuiet.pure _).ite <|
      (isQuiet_skip "RESPECT").bind fun _ => (IsQuiet.pure _).ite (.pure none)
  apply hword.bind
  intro nulls
  cases nulls with
  | none => exact .pure none
  | some nulls => exact (isQuiet_expect "NULLS").discard.bind fun _ => .pure _

theorem isQuiet_direction? : direction?.IsQuiet :=
  (isQuiet_skip "ASC").bind fun _ => (IsQuiet.pure _).ite <|
    (isQuiet_skip "DESC").bind fun _ => (IsQuiet.pure _).ite (.pure none)

theorem isQuiet_nullsOrder? : nullsOrder?.IsQuiet := by
  apply (isQuiet_skip "NULLS").bind
  intro _
  apply IsQuiet.ite _ (.pure none)
  exact (isQuiet_skip "FIRST").bind fun _ => (IsQuiet.pure _).ite <|
    (isQuiet_skip "LAST").bind fun _ => (IsQuiet.pure _).ite (isQuiet_expected _)

theorem isQuiet_precedingOrFollowing (preceding following : FrameBound) :
    (precedingOrFollowing preceding following).IsQuiet :=
  (isQuiet_skip "PRECEDING").bind fun _ => (IsQuiet.pure _).ite <|
    (isQuiet_skip "FOLLOWING").bind fun _ => (IsQuiet.pure _).ite (isQuiet_expected _)

theorem isQuiet_frameBound : frameBound.IsQuiet := by
  apply (isQuiet_skip "UNBOUNDED").bind
  intro _
  apply IsQuiet.ite
  · exact isQuiet_precedingOrFollowing _ _
  apply (isQuiet_skip "CURRENT").bind
  intro _
  apply IsQuiet.ite
  · exact (isQuiet_expect "ROW").discard.bind fun _ => .pure _
  apply isQuiet_kind?.bind
  intro _
  apply IsQuiet.ite
  · exact (isQuiet_constant).bind fun _ => isQuiet_precedingOrFollowing _ _
  · exact isQuiet_expected _

theorem isQuiet_frameUnit? : frameUnit?.IsQuiet :=
  (isQuiet_skip "ROWS").bind fun _ => (IsQuiet.pure _).ite <|
    (isQuiet_skip "RANGE").bind fun _ => (IsQuiet.pure _).ite (.pure none)

theorem isQuiet_frame? : frame?.IsQuiet := by
  apply (isQuiet_frameUnit?).bind
  intro unit
  cases unit with
  | none => exact .pure none
  | some unit =>
    apply (isQuiet_skip "BETWEEN").bind
    intro _
    apply IsQuiet.ite
    · apply (isQuiet_frameBound).bind
      intro start
      apply (isQuiet_expect "AND").discard.bind
      intro _
      exact (isQuiet_frameBound).bind fun _ => .pure _
    · exact (isQuiet_frameBound).bind fun _ => .pure _

theorem isQuiet_opOf? (ops : List (String × BinaryOp)) : (opOf? ops).IsQuiet := by
  induction ops with
  | nil => exact .pure none
  | cons op ops ih => exact (isQuiet_skip op.1).bind fun _ => (IsQuiet.pure _).ite ih

theorem isQuiet_shiftOp? : shiftOp?.IsQuiet :=
  (isQuiet_skip "<<").bind fun _ => (IsQuiet.pure _).ite <|
    (isQuiet_takeJoined? _).bind fun _ => (IsQuiet.pure _).ite (.pure none)

theorem isQuiet_sign? : sign?.IsQuiet :=
  (isQuiet_skip "-").bind fun _ => (IsQuiet.pure _).ite <|
    (isQuiet_skip "+").bind fun _ => (IsQuiet.pure _).ite <|
      (isQuiet_skip "~").bind fun _ => (IsQuiet.pure _).ite (.pure none)

theorem isQuiet_isTest : isTest.IsQuiet :=
  (isQuiet_skip "NULL").bind fun _ => (IsQuiet.pure _).ite <|
    (isQuiet_skip "TRUE").bind fun _ => (IsQuiet.pure _).ite <|
      (isQuiet_skip "FALSE").bind fun _ => (IsQuiet.pure _).ite (isQuiet_expected _)

theorem isQuiet_indexKind? : indexKind?.IsQuiet := by
  intro cursor
  have hsame : cursor.forgetful.token? 0 = cursor.token? 0 := rfl
  have hnext : cursor.forgetful.seesAt 1 "(" = cursor.seesAt 1 "(" := rfl
  unfold AgreesAt indexKind?
  rw [hsame]
  cases cursor.token? 0 with
  | none => exact ⟨rfl, .refl cursor⟩
  | some token =>
    by_cases h : (token.kind = .word && cursor.seesAt 1 "(") = true
    · cases hword : IndexKind.ofWord? token.text with
      | none =>
        simp only [hnext, h, if_true, hword]
        exact ⟨trivial, .refl cursor⟩
      | some kind =>
        simp only [hnext, h, if_true, hword]
        exact ⟨rfl, cursor.passes_advance 1⟩
    · simp only [hnext, h]
      exact ⟨rfl, .refl cursor⟩

theorem isQuiet_negated : Nested.negated.IsQuiet :=
  (isQuiet_ask fun _ => rfl).bind fun _ =>
    (isQuiet_bump.discard.bind fun _ => .pure _).ite (.pure _)

end Modifiers

namespace Nested

/-- Nested rules that are tame, as far as they come from one level deeper. -/
structure IsTame (nested : Nested) : Prop where
  expr? : nested.expr?.IsOptional
  notOperand : nested.notOperand.IsTame
  signOperand : nested.signOperand.IsTame
  query : nested.query.IsTame
  type? : nested.type?.IsQuiet
  fields : nested.fields.IsQuiet

variable {nested : Nested} (h : nested.IsTame)

namespace IsTame

include h

section Clauses

theorem expr : nested.expr.IsTame :=
  h.expr?.require _

theorem type : nested.type.IsQuiet :=
  h.type?.require _

theorem closedQuery : nested.closedQuery.IsTame :=
  h.query.bind fun _ => ((isQuiet_expect ")").discard.bind fun _ => .pure _).isTame

theorem closedExpr : nested.closedExpr.IsTame :=
  h.expr.bind fun _ => ((isQuiet_expect ")").discard.bind fun _ => .pure _).isTame

theorem exprAfter? (keyword : String) : (nested.exprAfter? keyword).IsOptional := by
  apply (isQuiet_skip keyword).bind_optional
  intro _
  exact (h.expr.bind_committed fun _ => .some _).isOptional.ite (IsQuiet.pure none).isOptional

theorem sortKey? : nested.sortKey?.IsOptional := by
  apply h.expr?.bind
  · intro expr
    apply (isQuiet_direction?).isTame.bind_committed
    intro _
    exact (isQuiet_nullsOrder?).isTame.bind_committed fun _ => .some _
  · exact (IsQuiet.pure none).isOptional

theorem orderBy : nested.orderBy.IsTame := by
  apply (isQuiet_skip "ORDER").isTame.bind
  intro _
  apply IsTame.ite _ (IsQuiet.pure []).isTame
  apply (isQuiet_expect "BY").discard.isTame.bind
  intro _
  exact (h.sortKey?.require _).commaSeparated

theorem rowOrder? : nested.rowOrder?.IsTame := by
  apply h.orderBy.bind
  intro keys
  apply (h.exprAfter? "LIMIT").isTame.bind
  intro limit
  cases limit with
  | none => exact (IsQuiet.pure _).isTame
  | some limit => exact (h.exprAfter? "OFFSET").isTame.bind fun _ => (IsQuiet.pure _).isTame

theorem partitionBy : nested.partitionBy.IsTame := by
  apply (isQuiet_skip "PARTITION").isTame.bind
  intro _
  apply IsTame.ite _ (IsQuiet.pure []).isTame
  apply (isQuiet_expect "BY").discard.isTame.bind
  intro _
  exact h.expr.commaSeparated

theorem window? : nested.window?.IsOptional := by
  apply (isQuiet_skip "OVER").bind_optional
  intro _
  apply IsOptional.ite _ (IsQuiet.pure none).isOptional
  apply IsCommitted.isOptional
  apply (isQuiet_expect "(").discard.isTame.bind_committed
  intro _
  apply h.partitionBy.bind_committed
  intro partition
  apply h.orderBy.bind_committed
  intro order
  apply (isQuiet_frame?).isTame.bind_committed
  intro frame
  exact (isQuiet_expect ")").discard.isTame.bind_committed fun _ => .some _

end Clauses

section Aggregates

theorem arrayHead? : nested.arrayHead?.IsQuiet := by
  apply (isQuiet_skipAll _).bind
  intro _
  apply IsQuiet.ite
  · apply h.type.bind
    intro type
    apply (isQuiet_expect ">").discard.bind
    intro _
    exact (isQuiet_expect "[").discard.bind fun _ => .pure _
  exact (isQuiet_skipAll _).bind fun _ => (IsQuiet.pure _).ite <|
    (isQuiet_skip "[").bind fun _ => (IsQuiet.pure _).ite (.pure none)

theorem array? : nested.array?.IsOptional := by
  apply h.arrayHead?.bind_optional
  intro type
  cases type with
  | none => exact (IsQuiet.pure none).isOptional
  | some type =>
    apply (isQuiet_skip "]").bind_optional
    intro _
    apply (IsCommitted.some _).isOptional.ite
    apply (h.expr.commaSeparated.bind_committed _).isOptional
    intro items
    exact (isQuiet_expect "]").discard.isTame.bind_committed fun _ => .some _

theorem aggOffset? : nested.aggOffset?.IsOptional := by
  apply (isQuiet_skipAll _).bind_optional
  intro _
  apply IsOptional.ite _ (IsQuiet.pure none).isOptional
  apply IsCommitted.isOptional
  apply (isQuiet_expect "(").discard.isTame.bind_committed
  intro _
  apply h.closedExpr.bind_committed
  intro position
  exact (isQuiet_expect "]").discard.isTame.bind_committed fun _ => .some _

theorem arrayAgg? : nested.arrayAgg?.IsOptional := by
  apply (isQuiet_skipAll _).bind_optional
  intro _
  apply IsOptional.ite _ (IsQuiet.pure none).isOptional
  apply IsCommitted.isOptional
  apply (isQuiet_skip "DISTINCT").isTame.bind_committed
  intro distinct
  apply h.expr.bind_committed
  intro operand
  apply isQuiet_nullHandling?.isTame.bind_committed
  intro nulls
  apply h.rowOrder?.bind_committed
  intro order
  apply h.window?.isTame.bind_committed
  intro window
  apply (isQuiet_expect ")").discard.isTame.bind_committed
  intro _
  exact h.aggOffset?.isTame.bind_committed fun _ => .some _

theorem accessor? : nested.accessor?.IsOptional := by
  apply (isQuiet_skip "[").bind_optional
  intro _
  apply IsOptional.ite _ (IsQuiet.pure none).isOptional
  apply IsCommitted.isOptional
  apply (isQuiet_ask fun _ => rfl).isTame.bind_committed
  intro isCall
  have hrest (accessor : Accessor) : IsCommitted (do
      discard <| expect "]"
      return some accessor) :=
    (isQuiet_expect "]").discard.isTame.bind_committed fun _ => .some _
  apply IsCommitted.ite
  · apply isQuiet_segment?.isTame.bind_committed
    intro name
    apply (isQuiet_expect "(").discard.isTame.bind_committed
    intro _
    apply h.closedExpr.bind_committed
    intro position
    exact (IsQuiet.pure _).isTame.bind_committed hrest
  · apply h.expr.bind_committed
    intro position
    exact (IsQuiet.pure _).isTame.bind_committed hrest

theorem stringAgg? : nested.stringAgg?.IsOptional := by
  have hfunction : stringFunction?.IsQuiet :=
    (isQuiet_skipAll _).bind fun _ => (IsQuiet.pure _).ite <|
      (isQuiet_skipAll _).bind fun _ => (IsQuiet.pure _).ite (.pure none)
  apply hfunction.bind_optional
  intro function
  cases function with
  | none => exact (IsQuiet.pure none).isOptional
  | some function =>
    apply IsCommitted.isOptional
    apply (isQuiet_skip "DISTINCT").isTame.bind_committed
    intro distinct
    apply h.expr.bind_committed
    intro operand
    apply (isQuiet_skip ",").isTame.bind_committed
    intro isDelimited
    apply IsTame.ite_bind_committed (isQuiet_constant.map _).isTame (IsQuiet.pure none).isTame
    intro delimiter
    apply isQuiet_nullHandling?.isTame.bind_committed
    intro nulls
    apply h.rowOrder?.bind_committed
    intro order
    apply h.window?.isTame.bind_committed
    intro window
    apply (isQuiet_expect ")").discard.isTame.bind_committed
    intro _
    exact h.accessor?.isTame.bind_committed fun _ => .some _

end Aggregates

section Forms

theorem arrayQuery? : nested.arrayQuery?.IsOptional := by
  apply (isQuiet_skipAll _).bind_optional
  intro _
  apply IsOptional.ite _ (IsQuiet.pure none).isOptional
  exact (h.closedQuery.bind_committed fun _ => .some _).isOptional

theorem castExpr (safe : Bool) : (nested.castExpr safe).IsTame := by
  apply (isQuiet_expect "(").discard.isTame.bind
  intro _
  apply h.expr.bind
  intro operand
  apply IsQuiet.isTame
  apply (isQuiet_expect "AS").discard.bind
  intro _
  apply h.type.bind
  intro type
  exact (isQuiet_expect ")").discard.bind fun _ => .pure _

theorem extractExpr : nested.extractExpr.IsTame := by
  apply (isQuiet_expect "(").discard.isTame.bind
  intro _
  apply h.expr.bind
  intro part
  apply (isQuiet_expect "FROM").discard.isTame.bind
  intro _
  apply h.expr.bind
  intro operand
  apply (isQuiet_skipAll _).isTame.bind
  intro _
  have hrest (zone : Option Expr) :
      Rule.IsTame (do discard <| expect ")"; return Expr.extract part operand zone) :=
    ((isQuiet_expect ")").discard.bind fun _ => .pure _).isTame
  exact ((h.expr.map _).bind hrest).ite ((IsQuiet.pure none).isTame.bind hrest)

theorem branch? : nested.branch?.IsOptional := by
  apply (isQuiet_skip "WHEN").bind_optional
  intro _
  apply IsOptional.ite _ (IsQuiet.pure none).isOptional
  apply IsCommitted.isOptional
  apply h.expr.bind_committed
  intro condition
  apply (isQuiet_expect "THEN").discard.isTame.bind_committed
  intro _
  exact h.expr.bind_committed fun _ => .some _

theorem caseExpr : nested.caseExpr.IsTame := by
  have hrest (operand : Option Expr) : Rule.IsTame (do
      let branches ← many nested.branch?
      if branches.isEmpty then return ← Rule.expected "\x60WHEN\x60"
      let otherwise ← nested.exprAfter? "ELSE"
      discard <| expect "END"
      return Expr.case operand branches otherwise) := by
    apply h.branch?.many.bind
    intro branches
    apply (isQuiet_expected _).isTame.ite
    apply (h.exprAfter? "ELSE").isTame.bind
    intro otherwise
    exact ((isQuiet_expect "END").discard.bind fun _ => .pure _).isTame
  apply (isQuiet_sees "WHEN").isTame.bind
  intro _
  exact ((IsQuiet.pure none).isTame.bind hrest).ite ((h.expr.map _).bind hrest)

theorem structExpr : nested.structExpr.IsTame := by
  have hfields : nested.structFields?.IsQuiet :=
    (isQuiet_skip "<>").bind fun _ => (IsQuiet.pure _).ite <|
      (isQuiet_skip "<").bind fun _ => (h.fields.bind fun _ => .pure _).ite (.pure none)
  apply hfields.isTame.bind
  intro fields
  have hitem : Rule.IsTame (do
      return { expr := ← nested.expr, aliasName := ← aliasName? : StructItem }) :=
    h.expr.bind fun _ => (isQuiet_aliasName?.bind fun _ => .pure _).isTame
  exact hitem.parenthesized.bind fun _ => (IsQuiet.pure _).isTame

theorem special? (hparen : nested.parenExpr.IsTame) {unary? : Rule (Option Expr)}
    (hunary : unary?.IsOptional) : (nested.special? unary?).IsOptional := by
  have hexpr {rule : Rule Expr} (hrule : rule.IsTame) :
      IsOptional (do return some (← rule)) :=
    (hrule.bind_committed fun _ => .some _).isOptional
  apply (isQuiet_sees "(").bind_optional
  intro _
  apply (hexpr hparen).ite
  apply (isQuiet_skip "CASE").bind_optional
  intro _
  apply (hexpr h.caseExpr).ite
  apply (isQuiet_skip "STRUCT").bind_optional
  intro _
  apply (hexpr h.structExpr).ite
  apply (isQuiet_skip "INTERVAL").bind_optional
  intro _
  apply IsOptional.ite
  · apply IsCommitted.isOptional
    apply (hunary.require _).bind_committed
    intro count
    exact isQuiet_identifier.isTame.bind_committed fun _ => .some _
  apply (isQuiet_ask fun _ => rfl).bind_optional
  intro _
  apply IsOptional.ite _ (IsQuiet.pure none).isOptional
  apply (isQuiet_skip "CAST").bind_optional
  intro _
  apply (hexpr (h.castExpr false)).ite
  apply (isQuiet_skip "SAFE_CAST").bind_optional
  intro _
  apply (hexpr (h.castExpr true)).ite
  apply (isQuiet_skip "EXTRACT").bind_optional
  intro _
  apply (hexpr h.extractExpr).ite
  apply (isQuiet_skip "EXISTS").bind_optional
  intro _
  apply IsOptional.ite _ (IsQuiet.pure none).isOptional
  apply IsCommitted.isOptional
  apply (isQuiet_expect "(").discard.isTame.bind_committed
  intro _
  exact h.closedQuery.bind_committed fun _ => .some _

omit h in
theorem isQuiet_nameExpr? : nameExpr?.IsQuiet := by
  intro cursor
  have hsame : cursor.forgetful.token? 0 = cursor.token? 0 := rfl
  have hnext : cursor.forgetful.seesAt 1 "(" = cursor.seesAt 1 "(" := rfl
  have hname := isQuiet_qualifiedName?.map (Option.map Expr.name) cursor
  unfold AgreesAt at hname ⊢
  unfold nameExpr?
  rw [hsame, hnext]
  cases cursor.token? 0 with
  | none => exact ⟨rfl, .refl cursor⟩
  | some token =>
    by_cases hcall :
        (token.kind = .word && Keyword.isCallable token.text && cursor.seesAt 1 "(") = true
    · simp only [hcall, if_true]
      exact ⟨rfl, cursor.passes_advance 1⟩
    · simp only [hcall]
      exact hname

theorem argument : nested.argument.IsTame :=
  (isQuiet_skip "*").isTame.bind fun _ => (IsQuiet.pure _).isTame.ite h.expr

theorem callRest (function : QualifiedName) : (nested.callRest function).IsTame := by
  have hrest (distinct : Bool) : Rule.IsTame (do
      let args ← commaSeparated nested.argument
      let nulls ← nullHandling?
      discard <| expect ")"
      return Expr.call function distinct args nulls) := by
    apply h.argument.commaSeparated.bind
    intro args
    apply IsQuiet.isTame
    apply isQuiet_nullHandling?.bind
    intro nulls
    exact (isQuiet_expect ")").discard.bind fun _ => .pure _
  apply (isQuiet_skip "DISTINCT").isTame.bind
  intro distinct
  apply IsTame.ite
  · apply (isQuiet_skip ")").isTame.bind
    intro _
    exact (IsQuiet.pure _).isTame.ite (hrest distinct)
  · exact hrest distinct

theorem afterName (name : QualifiedName) : (nested.afterName name).IsTame := by
  apply (isQuiet_skip "(").isTame.bind
  intro _
  apply (h.callRest name).ite
  apply IsQuiet.isTame
  apply isQuiet_kind?.bind
  intro _
  exact (isQuiet_constant.bind fun _ => .pure _).ite (.pure _)

theorem primary? (hparen : nested.parenExpr.IsTame) {unary? : Rule (Option Expr)}
    (hunary : unary?.IsOptional) : (nested.primary? unary?).IsOptional := by
  have hfound : IsOptional (Rule.firstOf
      [Option.map Expr.constant <$> constant?, nested.array?, nested.arrayAgg?, nested.stringAgg?,
        nested.arrayQuery?, nested.special? unary?, nameExpr?]) := by
    apply IsOptional.firstOf
    intro rule hrule
    simp only [List.mem_cons, List.not_mem_nil, or_false] at hrule
    rcases hrule with rfl | rfl | rfl | rfl | rfl | rfl | rfl
    · exact isQuiet_constant?.isOptional.map _
    · exact h.array?
    · exact h.arrayAgg?
    · exact h.stringAgg?
    · exact h.arrayQuery?
    · exact h.special? hparen hunary
    · exact (isQuiet_nameExpr?).isOptional
  have hrest (expr : Expr) : (nested.windowed? expr).IsCommitted := by
    apply h.window?.isTame.bind_committed
    intro window
    cases window with
    | none => exact .some _
    | some window => exact .some _
  apply hfound.bind
  · intro found
    cases found
    case name name => exact (h.afterName name).bind_committed hrest
    all_goals exact (IsQuiet.pure _).isTame.bind_committed hrest
  · exact (IsQuiet.pure none).isOptional

end Forms

section Operators

omit h in
theorem isOptional_operatorTail {operand? : Rule (Option Expr)} {op? : Rule (Option BinaryOp)}
    (hoperand : operand?.IsOptional) (hop : op?.IsQuiet) :
    (operation? operand? op?).IsOptional := by
  apply hop.bind_optional
  intro op
  cases op with
  | none => exact (IsQuiet.pure none).isOptional
  | some op => exact ((hoperand.require _).bind_committed fun _ => .some _).isOptional

omit h in
theorem isOptional_leftAssoc {operand? : Rule (Option Expr)} {op? : Rule (Option BinaryOp)}
    (hoperand : operand?.IsOptional) (hop : op?.IsQuiet) : (leftAssoc operand? op?).IsOptional := by
  apply hoperand.bind
  · intro first
    exact (isOptional_operatorTail hoperand hop).many.bind_committed fun _ => .some _
  · exact (IsQuiet.pure none).isOptional

theorem subscript : nested.subscript.IsTame := by
  apply isQuiet_indexKind?.isTame.bind
  intro kind
  cases kind with
  | none =>
    apply h.expr.bind
    intro position
    exact ((isQuiet_expect "]").discard.bind fun _ => .pure _).isTame
  | some kind =>
    apply (isQuiet_expect "(").discard.isTame.bind
    intro _
    apply h.closedExpr.bind
    intro position
    exact ((isQuiet_expect "]").discard.bind fun _ => .pure _).isTame

theorem postfix? : nested.postfix?.IsOptional := by
  apply (isQuiet_skip "[").bind_optional
  intro _
  apply IsOptional.ite
  · exact (h.subscript.bind_committed fun _ => .some _).isOptional
  · exact (isQuiet_dotSegment?.bind fun _ => .pure _).isOptional

theorem operand? (hparen : nested.parenExpr.IsTame) {unary? : Rule (Option Expr)}
    (hunary : unary?.IsOptional) : (nested.operand? unary?).IsOptional := by
  apply (h.primary? hparen hunary).bind
  · intro base
    exact h.postfix?.many.bind_committed fun _ => .some _
  · exact (IsQuiet.pure none).isOptional

theorem unaryUpTo? (hparen : nested.parenExpr.IsTame) (steps : Nat) :
    (nested.unaryUpTo? steps).IsOptional := by
  induction steps with
  | zero => exact (IsQuiet.pure none).isOptional
  | succ steps ih =>
    apply isQuiet_sign?.bind_optional
    intro op
    cases op with
    | none => exact h.operand? hparen ih
    | some op => exact (h.signOperand.bind_committed fun _ => .some _).isOptional

theorem unary? (hparen : nested.parenExpr.IsTame) : nested.unary?.IsOptional :=
  fun cursor hfresh =>
    (h.unaryUpTo? hparen (cursor.remaining + 1) cursor hfresh).of_eq rfl rfl

theorem bitOr? (hparen : nested.parenExpr.IsTame) : nested.bitOr?.IsOptional := by
  have hproduct : nested.product?.IsOptional := isOptional_leftAssoc (h.unary? hparen) (isQuiet_opOf? _)
  have hsum : nested.sum?.IsOptional := isOptional_leftAssoc hproduct (isQuiet_opOf? _)
  have hshift : nested.shift?.IsOptional := isOptional_leftAssoc hsum isQuiet_shiftOp?
  have hbitAnd : nested.bitAnd?.IsOptional := isOptional_leftAssoc hshift (isQuiet_opOf? _)
  have hbitXor : nested.bitXor?.IsOptional := isOptional_leftAssoc hbitAnd (isQuiet_opOf? _)
  exact isOptional_leftAssoc hbitXor (isQuiet_opOf? _)

theorem memberTarget : nested.memberTarget.IsTame := by
  apply (isQuiet_skipAll _).isTame.bind
  intro _
  apply IsTame.ite (h.closedExpr.bind fun _ => (IsQuiet.pure _).isTame)
  apply (isQuiet_ask fun _ => rfl).isTame.bind
  intro isQuery
  apply (isQuiet_expect "(").discard.isTame.bind
  intro _
  apply IsTame.ite (h.closedQuery.bind fun _ => (IsQuiet.pure _).isTame)
  apply h.expr.commaSeparated.bind
  intro items
  exact ((isQuiet_expect ")").discard.bind fun _ => .pure _).isTame

theorem comparison? (hparen : nested.parenExpr.IsTame) : nested.comparison?.IsOptional := by
  have hoperand : (require "an expression" nested.bitOr?).IsTame := (h.bitOr? hparen).require _
  apply (isQuiet_opOf? _).bind_optional
  intro op
  cases op with
  | some op => exact (hoperand.bind_committed fun _ => .some _).isOptional
  | none =>
    apply (isQuiet_skip "IS").bind_optional
    intro _
    apply IsOptional.ite
    · apply IsCommitted.isOptional
      apply (isQuiet_skip "NOT").isTame.bind_committed
      intro negated
      exact isQuiet_isTest.isTame.bind_committed fun _ => .some _
    apply isQuiet_negated.bind_optional
    intro negated
    apply (isQuiet_skip "LIKE").bind_optional
    intro _
    apply (hoperand.bind_committed fun _ => .some _).isOptional.ite
    apply (isQuiet_skip "IN").bind_optional
    intro _
    apply (h.memberTarget.bind_committed fun _ => .some _).isOptional.ite
    apply (isQuiet_skip "BETWEEN").bind_optional
    intro _
    apply IsOptional.ite _ (IsQuiet.pure none).isOptional
    apply IsCommitted.isOptional
    apply hoperand.bind_committed
    intro low
    apply (isQuiet_expect "AND").discard.isTame.bind_committed
    intro _
    exact hoperand.bind_committed fun _ => .some _

theorem compared? (hparen : nested.parenExpr.IsTame) : nested.compared?.IsOptional := by
  apply (h.bitOr? hparen).bind
  · intro left
    exact (h.comparison? hparen).many.bind_committed fun _ => .some _
  · exact (IsQuiet.pure none).isOptional

theorem not? (hparen : nested.parenExpr.IsTame) : nested.not?.IsOptional := by
  apply (isQuiet_skip "NOT").bind_optional
  intro _
  exact (h.notOperand.bind_committed fun _ => .some _).isOptional.ite (h.compared? hparen)

theorem or? (hparen : nested.parenExpr.IsTame) : nested.or?.IsOptional := by
  have hand : nested.and?.IsOptional := isOptional_leftAssoc (h.not? hparen) (isQuiet_opOf? _)
  exact isOptional_leftAssoc hand (isQuiet_opOf? _)

end Operators

section Queries

omit h in
theorem isQuiet_setOperator? : setOperator?.IsQuiet :=
  (isQuiet_skip "UNION").bind fun _ => (IsQuiet.pure _).ite <|
    (isQuiet_skip "INTERSECT").bind fun _ => (IsQuiet.pure _).ite <|
      (isQuiet_skip "EXCEPT").bind fun _ => (IsQuiet.pure _).ite (.pure none)

omit h in
theorem isQuiet_setQuantifier? : setQuantifier?.IsQuiet :=
  (isQuiet_skip "ALL").bind fun _ => (IsQuiet.pure _).ite <|
    (isQuiet_skip "DISTINCT").bind fun _ => (IsQuiet.pure _).ite (.pure none)

omit h in
theorem isQuiet_selectAs? : selectAs?.IsQuiet :=
  (isQuiet_skipAll _).bind fun _ => (IsQuiet.pure _).ite <|
    (isQuiet_skipAll _).bind fun _ => (IsQuiet.pure _).ite (.pure none)

omit h in
theorem isQuiet_joinKind? : joinKind?.IsQuiet := by
  have hword : joinWord?.IsQuiet :=
    (isQuiet_skip "CROSS").bind fun _ => (IsQuiet.pure _).ite <|
      (isQuiet_skip "INNER").bind fun _ => (IsQuiet.pure _).ite <|
        (isQuiet_skip "LEFT").bind fun _ => (IsQuiet.pure _).ite <|
          (isQuiet_skip "RIGHT").bind fun _ => (IsQuiet.pure _).ite <|
            (isQuiet_skip "FULL").bind fun _ => (IsQuiet.pure _).ite <|
              (isQuiet_sees "JOIN").bind fun _ => (IsQuiet.pure _).ite (.pure none)
  apply (isQuiet_skip ",").bind
  intro _
  apply (IsQuiet.pure _).ite
  apply hword.bind
  intro kind
  cases kind with
  | none => exact .pure none
  | some kind =>
    have hjoin : IsQuiet (do discard <| expect "JOIN"; return some kind) :=
      (isQuiet_expect "JOIN").discard.bind fun _ => .pure _
    apply IsQuiet.ite
    · exact (isQuiet_skip "OUTER").discard.bind fun _ => hjoin
    · exact hjoin

omit h in
theorem isTame_listAfter {α : Type} (keyword : String) {item : Rule α} (hitem : item.IsTame) :
    (listAfter keyword item).IsTame := by
  apply (isQuiet_ask fun cursor => seesAll_forgetful cursor _).isTame.bind
  intro _
  apply IsTame.ite _ (IsQuiet.pure []).isTame
  exact isQuiet_bump.discard.isTame.bind fun _ => hitem.parenthesized

theorem commonTable? : nested.commonTable?.IsOptional := by
  apply isQuiet_identifier?.bind_optional
  intro name
  cases name with
  | none => exact (IsQuiet.pure none).isOptional
  | some name =>
    apply IsCommitted.isOptional
    apply (isQuiet_expect "AS").discard.isTame.bind_committed
    intro _
    apply (isQuiet_expect "(").discard.isTame.bind_committed
    intro _
    exact h.closedQuery.bind_committed fun _ => .some _

theorem commonTables? : nested.commonTables?.IsOptional := by
  apply (isQuiet_skip "WITH").bind_optional
  intro _
  apply IsOptional.ite _ (IsQuiet.pure none).isOptional
  apply IsCommitted.isOptional
  apply (isQuiet_skip "RECURSIVE").isTame.bind_committed
  intro isRecursive
  exact (h.commonTable?.require _).commaSeparated.bind_committed fun _ => .some _

theorem replacement : nested.replacement.IsTame := by
  apply h.expr.bind
  intro expr
  apply IsQuiet.isTame
  apply (isQuiet_expect "AS").discard.bind
  intro _
  exact isQuiet_identifier.bind fun _ => .pure _

theorem wildcard? : nested.wildcard?.IsOptional := by
  have hstar : star?.IsQuiet := by
    apply (isQuiet_skip "*").bind
    intro _
    apply (IsQuiet.pure _).ite
    apply isQuiet_qualifiedName?.bind
    intro name
    cases name with
    | none => exact .pure none
    | some name => exact (isQuiet_skipAll _).bind fun _ => .pure _
  apply hstar.bind_optional
  intro qualifier
  cases qualifier with
  | none => exact (IsQuiet.pure none).isOptional
  | some qualifier =>
    apply IsCommitted.isOptional
    apply (isTame_listAfter "EXCEPT" isQuiet_identifier.isTame).bind_committed
    intro except
    exact (isTame_listAfter "REPLACE" h.replacement).bind_committed fun _ => .some _

theorem selectItem? : nested.selectItem?.IsOptional := by
  apply h.wildcard?.attempt.bind
  · intro item
    exact .some item
  · apply h.expr?.bind
    · intro expr
      exact isQuiet_aliasName?.isTame.bind_committed fun _ => .some _
    · exact (IsQuiet.pure none).isOptional

theorem selectItems : nested.selectItems.IsTame := by
  have hitem : nested.selectItem.IsTame := h.selectItem?.require _
  have hrest : IsOptional (do
      if ← skip "," then
        if ← ask fun cursor => cursor.atEnd || cursor.seesAny [")", ";", "FROM"] then return none
        return some (← nested.selectItem)
      else return none) := by
    apply (isQuiet_skip ",").bind_optional
    intro _
    apply IsOptional.ite _ (IsQuiet.pure none).isOptional
    apply (isQuiet_ask fun _ => rfl).bind_optional
    intro _
    apply (IsQuiet.pure none).isOptional.ite
    exact (hitem.bind_committed fun _ => .some _).isOptional
  apply hitem.bind
  intro first
  exact hrest.many.bind fun _ => (IsQuiet.pure _).isTame

theorem unnested : nested.unnested.IsTame := by
  apply h.closedExpr.bind
  intro array
  apply IsQuiet.isTame
  apply isQuiet_aliasName?.bind
  intro aliasName
  apply (isQuiet_skipAll _).bind
  intro _
  apply IsQuiet.ite
  · exact (isQuiet_aliasName?.map _).bind fun _ => .pure _
  · exact (IsQuiet.pure none).bind fun _ => .pure _

theorem joinCondition? : nested.joinCondition?.IsOptional := by
  apply (isQuiet_skip "ON").bind_optional
  intro _
  apply (h.expr.bind_committed fun _ => .some _).isOptional.ite
  apply (isQuiet_skip "USING").bind_optional
  intro _
  apply IsOptional.ite _ (IsQuiet.pure none).isOptional
  exact (isQuiet_identifier.parenthesized.isTame.bind_committed fun _ => .some _).isOptional

theorem joinTail? (htable : nested.tableFactor?.IsTentative) : nested.joinTail?.IsOptional := by
  apply (isQuiet_joinKind?).bind_optional
  intro kind
  cases kind with
  | none => exact (IsQuiet.pure none).isOptional
  | some kind =>
    apply IsCommitted.isOptional
    apply (htable.require _).bind_committed
    intro right
    exact IsTame.ite_bind_committed h.joinCondition?.isTame (IsQuiet.pure none).isTame
      fun _ => .some _

theorem tableExpr? (htable : nested.tableFactor?.IsTentative) :
    nested.tableExpr?.IsTentative := by
  apply htable.bind
  · intro first
    exact (h.joinTail? htable).many.bind fun _ => (IsQuiet.pure _).isTame
  · rfl

theorem groupBy : nested.groupBy.IsTame :=
  (isQuiet_skipAll _).isTame.bind fun _ => h.expr.commaSeparated.ite (IsQuiet.pure []).isTame

theorem select? (htable : nested.tableFactor?.IsTentative) : nested.select?.IsOptional := by
  apply (isQuiet_skip "SELECT").bind_optional
  intro _
  apply IsOptional.ite _ (IsQuiet.pure none).isOptional
  apply IsCommitted.isOptional
  apply (isQuiet_skip "DISTINCT").isTame.bind_committed
  intro distinct
  apply (isQuiet_selectAs?).isTame.bind_committed
  intro shape
  apply h.selectItems.bind_committed
  intro items
  apply (isQuiet_skip "FROM").isTame.bind_committed
  intro _
  apply IsTame.ite_bind_committed (((h.tableExpr? htable).require _).map _)
    (IsQuiet.pure none).isTame
  intro source
  apply (h.exprAfter? "WHERE").isTame.bind_committed
  intro filter
  apply h.groupBy.bind_committed
  intro groupBy
  apply (h.exprAfter? "HAVING").isTame.bind_committed
  intro having
  exact (h.exprAfter? "QUALIFY").isTame.bind_committed fun _ => .some _

theorem setOperand? (htable : nested.tableFactor?.IsTentative)
    (hparen : nested.parenQuery?.IsTentative) : nested.setOperand?.IsTentative := by
  apply (h.select? htable).isTame.bind_tentative
  intro select
  cases select with
  | some select => exact (IsCommitted.some _).isOptional.isTentative
  | none =>
    apply hparen.bind
    · intro query
      exact (IsQuiet.pure _).isTame
    · rfl

theorem setTail? (htable : nested.tableFactor?.IsTentative)
    (hparen : nested.parenQuery?.IsTentative) : nested.setTail?.IsOptional := by
  apply (isQuiet_setOperator?).bind_optional
  intro op
  cases op with
  | none => exact (IsQuiet.pure none).isOptional
  | some op =>
    apply IsCommitted.isOptional
    apply (isQuiet_setQuantifier?).isTame.bind_committed
    intro quantifier
    exact ((h.setOperand? htable hparen).require _).bind_committed fun _ => .some _

theorem setExpr? (htable : nested.tableFactor?.IsTentative)
    (hparen : nested.parenQuery?.IsTentative) : nested.setExpr?.IsTentative := by
  apply (h.setOperand? htable hparen).bind
  · intro first
    exact (h.setTail? htable hparen).many.bind fun _ => (IsQuiet.pure _).isTame
  · rfl

theorem queryBody? (htable : nested.tableFactor?.IsTentative)
    (hparen : nested.parenQuery?.IsTentative) : nested.queryBody?.IsTentative := by
  apply h.commonTables?.isTame.bind_tentative
  intro common cursor hfresh
  apply (h.setExpr? htable hparen cursor hfresh).bind
  rintro body after ⟨hfollows, hafter⟩
  cases body with
  | some body =>
    apply (h.rowOrder? after (hafter rfl)).bind
    rintro order last ⟨hlast, hfollows'⟩
    exact .pure ⟨hfollows'.trans hfollows, fun _ => hlast⟩
  | none =>
    cases common with
    | none => exact .pure ⟨hfollows, fun hsome => absurd hsome (by simp)⟩
    | some common => exact .expected _

end Queries

section Statements

omit h in
theorem isQuiet_createHead? (object : String) : (createHead? object).IsQuiet := by
  have htemporary : temporary?.IsQuiet :=
    (isQuiet_skip "TEMP").bind fun _ => (IsQuiet.pure _).ite <|
      (isQuiet_skip "TEMPORARY").bind fun _ => (IsQuiet.pure _).ite (.pure none)
  apply (isQuiet_skip "CREATE").bind
  intro _
  apply IsQuiet.ite _ (.pure none)
  apply (isQuiet_skipAll _).bind
  intro orReplace
  apply htemporary.bind
  intro temporary
  exact (isQuiet_skip object).bind fun _ => .pure _

theorem declaration : nested.declaration.IsQuiet :=
  (isQuiet_declarationWith? h.type?).require _

theorem options : nested.options.IsTame := by
  have hitem : nested.optionItem.IsTame := by
    apply isQuiet_identifier.isTame.bind
    intro name
    apply (isQuiet_expect "=").discard.isTame.bind
    intro _
    exact h.expr.bind fun _ => (IsQuiet.pure _).isTame
  exact (isQuiet_skip "OPTIONS").isTame.bind fun _ => hitem.parenthesized.ite (IsQuiet.pure []).isTame

theorem functionBody : nested.functionBody.IsTame := by
  have hforeign : nested.foreignBody.IsTame := by
    apply isQuiet_identifier.isTame.bind
    intro language
    apply (isQuiet_expect "AS").discard.isTame.bind
    intro _
    apply isQuiet_kind?.isTame.bind
    intro _
    apply IsTame.ite _ (isQuiet_expected _).isTame
    apply isQuiet_constant.isTame.bind
    intro code
    exact h.options.bind fun _ => (IsQuiet.pure _).isTame
  apply (isQuiet_skip "LANGUAGE").isTame.bind
  intro _
  apply hforeign.ite
  apply (isQuiet_expect "AS").discard.isTame.bind
  intro _
  exact h.expr.bind fun _ => (IsQuiet.pure _).isTame

theorem createFunction? : nested.createFunction?.IsOptional := by
  apply (isQuiet_createHead? _).bind_optional
  intro head
  cases head with
  | none => exact (IsQuiet.pure none).isOptional
  | some head =>
    apply IsCommitted.isOptional
    apply isQuiet_qualifiedName.isTame.bind_committed
    intro name
    apply h.declaration.parenthesized.isTame.bind_committed
    intro params
    apply (isQuiet_skip "RETURNS").isTame.bind_committed
    intro _
    apply IsTame.ite_bind_committed (h.type.map _).isTame (IsQuiet.pure none).isTame
    intro returns
    exact h.functionBody.bind_committed fun _ => .some _

theorem createTable? : nested.createTable?.IsOptional := by
  apply (isQuiet_createHead? _).bind_optional
  intro head
  cases head with
  | none => exact (IsQuiet.pure none).isOptional
  | some head =>
    apply IsCommitted.isOptional
    apply (isQuiet_skipAll _).isTame.bind_committed
    intro ifNotExists
    apply isQuiet_qualifiedName.isTame.bind_committed
    intro name
    apply (isQuiet_sees "(").isTame.bind_committed
    intro _
    apply IsTame.ite_bind_committed h.declaration.parenthesized.isTame (IsQuiet.pure []).isTame
    intro columns
    apply h.options.bind_committed
    intro options
    apply (isQuiet_skip "AS").isTame.bind_committed
    intro _
    exact IsTame.ite_bind_committed (h.query.map _) (IsQuiet.pure none).isTame fun _ => .some _

theorem createView? : nested.createView?.IsOptional := by
  apply (isQuiet_createHead? _).bind_optional
  intro head
  rcases head with _ | ⟨orReplace, _ | word⟩
  · exact (IsQuiet.pure none).isOptional
  · apply IsCommitted.isOptional
    apply (isQuiet_skipAll _).isTame.bind_committed
    intro ifNotExists
    apply isQuiet_qualifiedName.isTame.bind_committed
    intro name
    apply h.options.bind_committed
    intro options
    apply (isQuiet_expect "AS").discard.isTame.bind_committed
    intro _
    exact h.query.bind_committed fun _ => .some _
  · exact (IsQuiet.pure none).isOptional

theorem insert? : nested.insert?.IsOptional := by
  have hcolumns : insertColumns.IsQuiet := by
    apply (isQuiet_ask fun _ => rfl).bind
    intro _
    exact isQuiet_identifier.parenthesized.ite (.pure [])
  have hsource : nested.insertSource.IsTame := by
    apply (isQuiet_skip "VALUES").isTame.bind
    intro _
    apply IsTame.ite
    · exact h.expr.parenthesized.commaSeparated.bind fun _ => (IsQuiet.pure _).isTame
    · exact h.query.bind fun _ => (IsQuiet.pure _).isTame
  apply (isQuiet_skip "INSERT").bind_optional
  intro _
  apply IsOptional.ite _ (IsQuiet.pure none).isOptional
  apply IsCommitted.isOptional
  apply (isQuiet_skip "INTO").discard.isTame.bind_committed
  intro _
  apply isQuiet_qualifiedName.isTame.bind_committed
  intro table
  apply hcolumns.isTame.bind_committed
  intro columns
  exact hsource.bind_committed fun _ => .some _

/-- The query is the last alternative, so nothing is tried after it has kept something ahead. -/
theorem action? (hquery : nested.queryHere?.IsTentative) : nested.action?.IsTentative := by
  have hlast : IsTentative (Rule.firstOf [Option.map Action.query <$> nested.queryHere?]) := by
    have hmapped : IsTentative (Option.map Action.query <$> nested.queryHere?) := by
      rw [map_eq_bind]
      apply hquery.bind
      · intro query
        exact (IsQuiet.pure _).isTame
      · rfl
    apply hmapped.attempt.bind
    · intro action
      exact (IsQuiet.pure _).isTame
    · rfl
  have hcons {rule : Rule (Option Action)} {rules : List (Rule (Option Action))}
      (hrule : rule.IsOptional) (hrules : (Rule.firstOf rules).IsTentative) :
      (Rule.firstOf (rule :: rules)).IsTentative := by
    apply hrule.attempt.isTame.bind_tentative
    intro action
    cases action with
    | none => exact hrules
    | some action => exact (IsCommitted.some _).isOptional.isTentative
  exact hcons h.createFunction? (hcons h.createTable? (hcons h.createView? (hcons h.insert? hlast)))

theorem script (hquery : nested.queryHere?.IsTentative) : nested.script.IsTame := by
  have hstatement : nested.statement?.IsTentative := by
    apply (h.action? hquery).bind
    · intro action
      exact isQuiet_comments.isTame.bind fun _ => (IsQuiet.pure _).isTame
    · rfl
  have hitem : nested.scriptItem?.IsOptional := by
    have hsemicolon : IsQuiet (do return if ← skip ";" then some () else none) :=
      (isQuiet_skip ";").bind fun _ => .pure _
    apply hsemicolon.many.discard.bind_optional
    intro _
    apply (isQuiet_ask fun _ => rfl).bind_optional
    intro _
    apply (IsQuiet.pure none).isOptional.ite
    apply IsCommitted.isOptional
    apply (hstatement.require _).bind_committed
    intro statement
    apply (isQuiet_skip ";").isTame.bind_committed
    intro _
    apply IsCommitted.ite _ (.some _)
    apply (isQuiet_ask fun _ => rfl).isTame.bind_committed
    intro _
    exact (isCommitted_expected _).ite (.some _)
  apply hitem.many.bind
  intro statements
  exact isQuiet_comments.isTame.bind fun _ => (IsQuiet.pure _).isTame

end Statements

end IsTame

end Nested

end SqlLayout.Grammar
