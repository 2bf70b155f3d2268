import SqlLayout.Proofs.Echo.Expr

/-!
# Queries and Statements without Regard to Case

The rules for queries and for statements echo, given that the rules they may nest do. Starting from the
rules that nest nothing, so do the rules for any number of levels.
-/

namespace SqlLayout.Grammar

open Rule

section Tails

def SetTail.capital (tail : SetTail) : SetTail :=
  { tail with right := tail.right.capital }

def JoinTail.capital (tail : JoinTail) : JoinTail :=
  { tail with right := tail.right.capital, condition := tail.condition.map JoinCondition.capital }

theorem SetTail.attach_capital (left : SetExpr) (tail : SetTail) :
    tail.capital.attach left.capital = (tail.attach left).capital :=
  rfl

theorem JoinTail.attach_capital (left : TableExpr) (tail : JoinTail) :
    tail.capital.attach left.capital = (tail.attach left).capital := by
  simp [attach, capital, TableExpr.capital]

end Tails

namespace Nested

namespace IsEchoing

variable {nested : Nested} (h : nested.IsEchoing)

include h

section Queries

omit h in
theorem listAfter {α : Type} (keyword : String) {item : Rule α} {change : α → α}
    (hitem : item.Echoes change) : (Grammar.listAfter keyword item).Echoes (List.map change) :=
  (echoesSame_ask fun cursor => cursor.seesAll_capital [keyword, "("]).bind fun _ =>
    EchoesAs.ite (echoesSame_bump.bind fun _ => hitem.parenthesized) (.pure rfl)

theorem commonTables? : nested.commonTables?.MayEcho CommonTables.capital := by
  have htable : nested.commonTable?.MayEcho CommonTable.capital := by
    apply mayEcho_identifier?.bind
    · exact .pure rfl
    · intro name
      apply (echoesSame_expect "AS").bind
      intro _
      apply (echoesSame_expect "(").bind
      intro _
      exact EchoesAs.bind h.closedQuery fun query => .pure rfl
  apply (echoesSame_skip "WITH").bind
  intro _
  refine EchoesAs.ite ?_ (.pure rfl)
  apply (echoesSame_skip "RECURSIVE").bind
  intro isRecursive
  exact EchoesAs.bind (htable.require _).commaSeparated fun tables => .pure rfl

theorem wildcard? : nested.wildcard?.MayEcho SelectItem.capital := by
  have hreplacement : nested.replacement.Echoes Replacement.capital := by
    apply EchoesAs.bind h.expr
    intro expr
    apply (echoesSame_expect "AS").bind
    intro _
    exact EchoesAs.bind echoes_identifier fun aliasName => .pure rfl
  have hstar : star?.MayEcho (Option.map QualifiedName.capital) := by
    apply (echoesSame_skip "*").bind
    intro _
    refine EchoesAs.ite (.pure rfl) ?_
    apply mayEcho_qualifiedName?.bind
    · exact .pure rfl
    · intro name
      apply (echoesSame_skipAll (by simp)).bind
      intro isStar
      cases isStar <;> exact .pure rfl
  apply hstar.bind
  · exact .pure rfl
  · intro qualifier
    apply EchoesAs.bind (listAfter "EXCEPT" echoes_identifier)
    intro except
    exact EchoesAs.bind (listAfter "REPLACE" hreplacement) fun replace => .pure rfl

theorem selectItem : nested.selectItem.Echoes SelectItem.capital := by
  have hitem : nested.selectItem?.MayEcho SelectItem.capital := by
    apply h.wildcard?.attempt.bind
    · apply h.expr?.bind
      · exact .pure rfl
      · intro expr
        exact EchoesAs.bind mayEcho_aliasName? fun aliasName => .pure rfl
    · intro item
      exact .pure rfl
  exact hitem.require _

theorem selectItems : nested.selectItems.Echoes (List.map SelectItem.capital) := by
  have hlast (cursor : Cursor) :
      (cursor.capital.atEnd || cursor.capital.seesAny [")", ";", "FROM"]) =
        (cursor.atEnd || cursor.seesAny [")", ";", "FROM"]) := by
    rw [cursor.atEnd_capital, Cursor.seesAny, cursor.seesAnyAt_capital]
    rfl
  have hrest : MayEcho (do
      if ← skip "," then
        if ← ask fun cursor => cursor.atEnd || cursor.seesAny [")", ";", "FROM"] then return none
        return some (← nested.selectItem)
      else return none) SelectItem.capital := by
    apply (echoesSame_skip ",").bind
    intro _
    refine EchoesAs.ite ?_ (.pure rfl)
    apply (echoesSame_ask hlast).bind
    intro _
    exact EchoesAs.ite (.pure rfl) (EchoesAs.bind h.selectItem fun _ => .pure rfl)
  apply EchoesAs.bind h.selectItem
  intro first
  exact EchoesAs.bind hrest.many fun rest => .pure rfl

theorem tableFactor? : nested.tableFactor?.MayEcho TableExpr.capital := by
  have hunnested : nested.unnested.Echoes TableExpr.capital := by
    apply EchoesAs.bind h.closedExpr
    intro array
    apply EchoesAs.bind mayEcho_aliasName?
    intro aliasName
    have hoffset : MayEcho (some <$> aliasName?) (Option.map Identifier.capital) :=
      EchoesAs.map mayEcho_aliasName? fun _ => rfl
    apply (echoesSame_skipAll (by simp)).bind
    intro _
    apply EchoesAs.iteBind hoffset (.pure rfl)
    intro offset
    exact .pure rfl
  apply (echoesSame_skipAll (by simp)).bind
  intro _
  refine EchoesAs.ite (EchoesAs.bind hunnested fun _ => .pure rfl) ?_
  apply h.parenQuery?.bind
  · apply mayEcho_qualifiedName?.bind
    · exact .pure rfl
    · intro name
      exact EchoesAs.bind mayEcho_aliasName? fun aliasName => .pure rfl
  · intro query
    exact EchoesAs.bind mayEcho_aliasName? fun aliasName => .pure rfl

omit h in
theorem joinKind? : Grammar.joinKind?.EchoesSame := by
  have hword : joinWord?.EchoesSame := by
    refine echoesSame_word "CROSS" _ <| echoesSame_word "INNER" _ <|
      echoesSame_word "LEFT" _ <| echoesSame_word "RIGHT" _ <| echoesSame_word "FULL" _ ?_
    exact (echoesSame_sees "JOIN").bind fun _ => EchoesAs.ite (.pure rfl) echoesSame_none
  refine echoesSame_word "," _ (hword.bind fun kind => ?_)
  cases kind with
  | none => exact echoesSame_none
  | some kind =>
    have hjoin : EchoesSame (do discard <| expect "JOIN"; return some kind) :=
      (echoesSame_expect "JOIN").bind fun _ => .pure rfl
    exact EchoesAs.ite ((echoesSame_skip "OUTER").discard.bind fun _ => hjoin) hjoin

theorem tableExpr? : nested.tableExpr?.MayEcho TableExpr.capital := by
  have hcondition : nested.joinCondition?.MayEcho JoinCondition.capital := by
    apply (echoesSame_skip "ON").bind
    intro _
    refine EchoesAs.ite (EchoesAs.bind h.expr fun _ => .pure rfl) ?_
    apply (echoesSame_skip "USING").bind
    intro _
    exact EchoesAs.ite (EchoesAs.bind echoes_identifier.parenthesized fun _ => .pure rfl) (.pure rfl)
  have htail : nested.joinTail?.MayEcho JoinTail.capital := by
    apply (joinKind?).bind
    intro kind
    cases kind with
    | none => exact .pure rfl
    | some kind =>
      apply EchoesAs.bind (h.tableFactor?.require _)
      intro right
      apply EchoesAs.iteBind hcondition (.pure rfl)
      intro condition
      exact .pure rfl
  apply h.tableFactor?.bind
  · exact .pure rfl
  · intro first
    exact echoesAs_attached htail JoinTail.attach_capital first

theorem select? : nested.select?.MayEcho Select.capital := by
  have hshape : selectAs?.EchoesSame := by
    apply (echoesSame_skipAll (by simp)).bind
    intro _
    refine EchoesAs.ite (.pure rfl) ?_
    apply (echoesSame_skipAll (by simp)).bind
    intro _
    exact EchoesAs.ite (.pure rfl) echoesSame_none
  have hgroupBy : nested.groupBy.Echoes (List.map Expr.capital) :=
    (echoesSame_skipAll (by simp)).bind fun _ => EchoesAs.ite h.expr.commaSeparated (.pure rfl)
  have hsource : MayEcho (some <$> require "a table" nested.tableExpr?) TableExpr.capital :=
    EchoesAs.map (h.tableExpr?.require _) fun _ => rfl
  apply (echoesSame_skip "SELECT").bind
  intro _
  refine EchoesAs.ite ?_ (.pure rfl)
  apply (echoesSame_skip "DISTINCT").bind
  intro distinct
  apply hshape.bind
  intro shape
  apply EchoesAs.bind h.selectItems
  intro items
  apply (echoesSame_skip "FROM").bind
  intro _
  apply EchoesAs.iteBind hsource (.pure rfl)
  intro source
  apply EchoesAs.bind (h.exprAfter? "WHERE")
  intro filter
  apply EchoesAs.bind hgroupBy
  intro groupBy
  apply EchoesAs.bind (h.exprAfter? "HAVING")
  intro having
  apply EchoesAs.bind (h.exprAfter? "QUALIFY")
  intro qualify
  exact .pure (by simp [Select.capital])

theorem queryBody? : nested.queryBody?.MayEcho Query.capital := by
  have hoperand : nested.setOperand?.MayEcho SetExpr.capital := by
    apply h.select?.bind
    · exact h.parenQuery?.bind (.pure rfl) fun query => .pure rfl
    · intro select
      exact .pure rfl
  have hop : setOperator?.EchoesSame :=
    echoesSame_word "UNION" _ <| echoesSame_word "INTERSECT" _ <|
      echoesSame_word "EXCEPT" _ echoesSame_none
  have hquantifier : setQuantifier?.EchoesSame :=
    echoesSame_word "ALL" _ <| echoesSame_word "DISTINCT" _ echoesSame_none
  have htail : nested.setTail?.MayEcho SetTail.capital := by
    apply hop.bind
    intro op
    cases op with
    | none => exact .pure rfl
    | some op =>
      exact hquantifier.bind fun _ => EchoesAs.bind (hoperand.require _) fun right => .pure rfl
  have hset : nested.setExpr?.MayEcho SetExpr.capital := by
    apply hoperand.bind
    · exact .pure rfl
    · intro first
      exact echoesAs_attached htail SetTail.attach_capital first
  apply EchoesAs.bind h.commonTables?
  intro common
  apply hset.bind
  · cases common with
    | none => exact .pure rfl
    | some common => exact echoes_expected _
  · intro body
    exact EchoesAs.bind h.rowOrder? fun order => .pure (by simp [Query.capital])

end Queries

section Statements

omit h in
theorem createHead? (object : String) : (Grammar.createHead? object).EchoesSame := by
  have htemporary : temporary?.EchoesSame :=
    echoesSame_word "TEMP" _ <| echoesSame_word "TEMPORARY" _ echoesSame_none
  apply (echoesSame_skip "CREATE").bind
  intro _
  refine EchoesAs.ite ?_ echoesSame_none
  apply (echoesSame_skipAll (by simp)).bind
  intro orReplace
  apply htemporary.bind
  intro temporary
  exact (echoesSame_skip object).bind fun _ => .pure rfl

theorem declaration : nested.declaration.Echoes Declaration.capital :=
  (mayEcho_declarationWith? h.type?).require _

theorem options : nested.options.Echoes (List.map OptionItem.capital) := by
  have hitem : nested.optionItem.Echoes OptionItem.capital := by
    apply EchoesAs.bind echoes_identifier
    intro name
    exact (echoesSame_expect "=").bind fun _ => EchoesAs.bind h.expr fun value => .pure rfl
  exact (echoesSame_skip "OPTIONS").bind fun _ => EchoesAs.ite hitem.parenthesized (.pure rfl)

theorem createFunction? : nested.createFunction?.MayEcho Action.capital := by
  have hforeign : nested.foreignBody.Echoes FunctionBody.capital := by
    apply EchoesAs.bind echoes_identifier
    intro language
    apply (echoesSame_expect "AS").bind
    intro _
    apply echoesSame_kind?.bind
    intro _
    refine EchoesAs.ite ?_ (echoes_expected _)
    apply echoesSame_constant.bind
    intro code
    exact EchoesAs.bind h.options fun options => .pure rfl
  have hbody : nested.functionBody.Echoes FunctionBody.capital := by
    apply (echoesSame_skip "LANGUAGE").bind
    intro _
    apply EchoesAs.ite hforeign
    exact (echoesSame_expect "AS").bind fun _ => EchoesAs.bind h.expr fun body => .pure rfl
  have hreturns : MayEcho (some <$> nested.type) SqlType.capital := EchoesAs.map h.type fun _ => rfl
  apply (createHead? _).bind
  intro head
  cases head with
  | none => exact .pure rfl
  | some head =>
    apply EchoesAs.bind echoes_qualifiedName
    intro name
    apply EchoesAs.bind h.declaration.parenthesized
    intro params
    apply (echoesSame_skip "RETURNS").bind
    intro _
    apply EchoesAs.iteBind hreturns (.pure rfl)
    intro returns
    exact EchoesAs.bind hbody fun body => .pure rfl

theorem createTable? : nested.createTable?.MayEcho Action.capital := by
  have hquery : MayEcho (some <$> nested.query) Query.capital := EchoesAs.map h.query fun _ => rfl
  apply (createHead? _).bind
  intro head
  cases head with
  | none => exact .pure rfl
  | some head =>
    apply (echoesSame_skipAll (by simp)).bind
    intro ifNotExists
    apply EchoesAs.bind echoes_qualifiedName
    intro name
    apply (echoesSame_sees "(").bind
    intro _
    apply EchoesAs.iteBind h.declaration.parenthesized (.pure rfl)
    intro columns
    apply EchoesAs.bind h.options
    intro options
    apply (echoesSame_skip "AS").bind
    intro _
    apply EchoesAs.iteBind hquery (.pure rfl)
    intro query
    exact .pure rfl

theorem createView? : nested.createView?.MayEcho Action.capital := by
  apply (createHead? _).bind
  intro head
  rcases head with _ | ⟨orReplace, _ | word⟩
  · exact .pure rfl
  · apply (echoesSame_skipAll (by simp)).bind
    intro ifNotExists
    apply EchoesAs.bind echoes_qualifiedName
    intro name
    apply EchoesAs.bind h.options
    intro options
    apply (echoesSame_expect "AS").bind
    intro _
    exact EchoesAs.bind h.query fun query => .pure rfl
  · exact .pure rfl

theorem insert? : nested.insert?.MayEcho Action.capital := by
  have hlist (cursor : Cursor) :
      (cursor.capital.sees "(" && !cursor.capital.seesAnyAt 1 queryStarts) =
        (cursor.sees "(" && !cursor.seesAnyAt 1 queryStarts) := by
    rw [cursor.sees_capital, cursor.seesAnyAt_capital]
  have hcolumns : insertColumns.Echoes (List.map Identifier.capital) :=
    (echoesSame_ask hlist).bind fun _ => EchoesAs.ite echoes_identifier.parenthesized (.pure rfl)
  have hsource : nested.insertSource.Echoes InsertSource.capital := by
    apply (echoesSame_skip "VALUES").bind
    intro _
    apply EchoesAs.ite
    · exact EchoesAs.bind h.expr.parenthesized.commaSeparated fun rows => .pure rfl
    · exact EchoesAs.bind h.query fun query => .pure rfl
  apply (echoesSame_skip "INSERT").bind
  intro _
  refine EchoesAs.ite ?_ (.pure rfl)
  apply (echoesSame_skip "INTO").discard.bind
  intro _
  apply EchoesAs.bind echoes_qualifiedName
  intro table
  apply EchoesAs.bind hcolumns
  intro columns
  exact EchoesAs.bind hsource fun source => .pure rfl

theorem action? : nested.action?.MayEcho Action.capital := by
  have hquery : MayEcho (Option.map Action.query <$> nested.queryHere?) Action.capital :=
    EchoesAs.map h.queryHere? fun query => by cases query <;> rfl
  apply mayEcho_firstOf
  simp only [List.forall_mem_cons, List.not_mem_nil, IsEmpty.forall_iff, implies_true, and_true]
  exact ⟨h.createFunction?, h.createTable?, h.createView?, h.insert?, hquery⟩

theorem statement? : nested.statement?.MayEcho Statement.capital := by
  apply h.action?.bind
  · exact .pure rfl
  · intro action
    exact echoesSame_comments.bind fun comments => .pure rfl

theorem scriptItem? : nested.scriptItem?.MayEcho Statement.capital := by
  have hsemicolon : MayEcho (do return if ← skip ";" then some () else none) id := by
    apply (echoesSame_skip ";").bind
    intro isThere
    cases isThere <;> exact .pure rfl
  have hsemicolons : EchoesSame (discard <| many do return if ← skip ";" then some () else none) :=
    EchoesAs.map hsemicolon.many fun _ => rfl
  apply hsemicolons.bind
  intro _
  apply echoesSame_atEnd.bind
  intro _
  refine EchoesAs.ite (.pure rfl) ?_
  apply EchoesAs.bind (h.statement?.require _)
  intro statement
  apply (echoesSame_skip ";").bind
  intro _
  refine EchoesAs.ite ?_ (.pure rfl)
  apply echoesSame_atEnd.bind
  intro _
  exact EchoesAs.ite (echoes_expected _) (.pure rfl)

theorem script : nested.script.Echoes Script.capital := by
  apply EchoesAs.bind h.scriptItem?.many
  intro statements
  exact echoesSame_comments.bind fun comments => .pure rfl

end Statements

end IsEchoing

theorem isEchoing_nestedAt (levels : Nat) : (nestedAt levels).IsEchoing := by
  induction levels with
  | zero =>
    exact ⟨echoes_tooDeep, echoes_tooDeep, echoes_tooDeep, echoes_tooDeep, mayEcho_typeAt? 0,
      echoes_fieldsAt 0⟩
  | succ levels ih =>
    exact ⟨ih.or?.descend, (ih.not?.require _).descend, (ih.unary?.require _).descend,
      ih.queryBody?.attempt.descend, mayEcho_typeAt? _, echoes_fieldsAt _⟩

end Nested

end SqlLayout.Grammar
