import SqlLayout.Proofs.Stores.Expr

/-!
# The Grammar Stores Every Literal and Quoted Name

Each rule up to the whole script stores the verbatim texts of the tokens it takes. How deep the rules may
nest makes no difference: they are the ones of the level below, and the deepest ones take nothing.
-/

namespace SqlLayout

open Rule

namespace Grammar

section Tails

def SetTail.verbatims (tail : SetTail) : List String :=
  tail.right.verbatims

def JoinTail.verbatims (tail : JoinTail) : List String :=
  tail.right.verbatims ++ verbatims? JoinCondition.verbatims tail.condition

theorem SetTail.verbatims_attach (left : SetExpr) (tail : SetTail) :
    (tail.attach left).verbatims = left.verbatims ++ tail.verbatims :=
  rfl

theorem JoinTail.verbatims_attach (left : TableExpr) (tail : JoinTail) :
    (tail.attach left).verbatims = left.verbatims ++ tail.verbatims := by
  simp [attach, verbatims, TableExpr.verbatims]

end Tails

namespace Nested

namespace IsStoring

variable {nested : Nested} (h : nested.IsStoring)

include h

section Queries

omit h in
theorem listAfter {α : Type} (keyword : String) {item : Rule α} {texts : α → List String}
    (hitem : item.Stores texts) : (Grammar.listAfter keyword item).Stores (List.flatMap texts) := by
  apply Stores.of_ensures
  intro cursor
  apply (ensures_ask fun cursor : Cursor => cursor.seesAll [keyword, "("]).bind
  rintro isThere _ ⟨hthere, rfl⟩
  apply Ensures.ite
  · intro htrue
    rw [hthere, Cursor.seesAll, Cursor.seesAllAt, Bool.and_eq_true] at htrue
    apply (ensures_bump_of_sees htrue.1).bind
    intro _ after hread
    rw [← hread]
    exact hitem.parenthesized.ensures after
  · intro _
    exact .pure (List.append_nil _).symm

theorem commonTables? : nested.commonTables?.MayStore CommonTables.verbatims := by
  have htable : nested.commonTable?.MayStore CommonTable.verbatims := by
    apply Stores.bind mayStore_identifier?
    intro name
    cases name with
    | none => exact mayStore_none
    | some name =>
      apply (storesNothing_expect "AS").bind
      intro _
      apply (storesNothing_expect "(").bind
      intro _
      exact h.closedQuery.bind fun query => .pure rfl
  apply (storesNothing_skip "WITH").bind
  intro _
  apply StoresAfter.ite _ mayStore_none
  apply (storesNothing_skip "RECURSIVE").bind
  intro isRecursive
  exact (htable.require _).commaSeparated.bind fun tables => .pure rfl

theorem wildcard? : nested.wildcard?.FindsAfter [] SelectItem.verbatims := by
  have hreplacement : nested.replacement.Stores Replacement.verbatims := by
    apply h.expr.bind
    intro expr
    apply (storesNothing_expect "AS").bind
    intro _
    exact stores_identifier.bind fun aliasName => .pure rfl
  have hrest (qualifier : Option QualifiedName) :
      StoresAfter (verbatims? QualifiedName.verbatims qualifier) (do
        let except ← Grammar.listAfter "EXCEPT" identifier
        let replace ← Grammar.listAfter "REPLACE" nested.replacement
        return some (SelectItem.wildcard qualifier except replace)) (verbatims? SelectItem.verbatims) := by
    apply (listAfter "EXCEPT" stores_identifier).bind
    intro except
    exact (listAfter "REPLACE" hreplacement).bind fun replace => .pure rfl
  have hfound (qualifier : Option QualifiedName) :
      FindsAfter (verbatims? QualifiedName.verbatims qualifier) (pure (some qualifier))
        (verbatims? QualifiedName.verbatims) :=
    StoresAfter.finds (.pure rfl)
  have hqualified : qualifiedStar?.FindsAfter [] (verbatims? QualifiedName.verbatims) := by
    apply FindsAfter.bind mayStore_qualifiedName?
    intro name
    cases name with
    | none => exact .none
    | some name =>
      apply FindsAfter.bind (storesNothing_skipAll (by simp))
      intro isStar
      cases isStar with
      | false => exact .none
      | true => simpa using hfound (some name)
  -- A name without a star is read and given up, and the attempt around the rule goes back.
  have hstar : star?.FindsAfter [] (verbatims? QualifiedName.verbatims) := by
    apply FindsAfter.bind (storesNothing_skip "*")
    intro isStar
    cases isStar with
    | true => exact hfound none
    | false => exact hqualified
  exact hstar.bindFound rfl fun qualifier => (hrest qualifier).finds

theorem selectItem : nested.selectItem.Stores SelectItem.verbatims := by
  have hitem : nested.selectItem?.MayStore SelectItem.verbatims := by
    apply Stores.bind h.wildcard?.attempt
    intro item
    cases item with
    | some item => exact .pure rfl
    | none =>
      apply Stores.bind h.expr?
      intro expr
      cases expr with
      | none => exact mayStore_none
      | some expr => exact Stores.bind mayStore_aliasName? fun aliasName => .pure rfl
  exact hitem.require _

theorem selectItems : nested.selectItems.Stores (List.flatMap SelectItem.verbatims) := by
  have hrest : MayStore (do
      if ← skip "," then
        if ← ask fun cursor => cursor.atEnd || cursor.seesAny [")", ";", "FROM"] then return none
        return some (← nested.selectItem)
      else return none) SelectItem.verbatims := by
    apply (storesNothing_skip ",").bind
    intro _
    apply StoresAfter.ite _ mayStore_none
    apply (storesNothing_ask _).bind
    intro _
    exact StoresAfter.ite mayStore_none (h.selectItem.bind fun _ => .pure rfl)
  apply h.selectItem.bind
  intro first
  exact hrest.many.bind fun rest => .pure rfl

theorem tableFactor? : nested.tableFactor?.MayStore TableExpr.verbatims := by
  have hunnested : nested.unnested.Stores TableExpr.verbatims := by
    apply h.closedExpr.bind
    intro array
    apply Stores.bind mayStore_aliasName?
    intro aliasName
    have hoffset : MayStore (some <$> aliasName?) (verbatims? Identifier.verbatims) :=
      Stores.map mayStore_aliasName? some fun _ => rfl
    apply (storesNothing_skipAll (by simp)).bind
    intro _
    exact StoresAfter.iteBind hoffset mayStore_none fun offset => .pure rfl
  apply (storesNothing_skipAll (by simp)).bind
  intro _
  refine StoresAfter.ite (hunnested.bind fun _ => .pure rfl) ?_
  apply Stores.bind h.parenQuery?
  intro query
  cases query with
  | some query => exact Stores.bind mayStore_aliasName? fun aliasName => .pure rfl
  | none =>
    apply Stores.bind mayStore_qualifiedName?
    intro name
    cases name with
    | some name => exact Stores.bind mayStore_aliasName? fun aliasName => .pure rfl
    | none => exact mayStore_none

omit h in
theorem joinKind? : Grammar.joinKind?.StoresNothing := by
  have hword : joinWord?.StoresNothing := by
    refine storesNothing_word "CROSS" _ <| storesNothing_word "INNER" _ <|
      storesNothing_word "LEFT" _ <| storesNothing_word "RIGHT" _ <| storesNothing_word "FULL" _ ?_
    exact (storesNothing_ask _).bind fun _ => StoresAfter.ite (.pure rfl) storesNothing_none
  refine storesNothing_word "," _ (hword.bind fun kind => ?_)
  cases kind with
  | none => exact storesNothing_none
  | some kind =>
    have hjoin : StoresNothing (do discard <| expect "JOIN"; return some kind) :=
      (storesNothing_expect "JOIN").bind fun _ => .pure rfl
    exact StoresAfter.ite ((storesNothing_skip "OUTER").discard.bind fun _ => hjoin) hjoin

theorem tableExpr? : nested.tableExpr?.MayStore TableExpr.verbatims := by
  have hcondition : nested.joinCondition?.MayStore JoinCondition.verbatims := by
    apply (storesNothing_skip "ON").bind
    intro _
    refine StoresAfter.ite (h.expr.bind fun _ => .pure rfl) ?_
    apply (storesNothing_skip "USING").bind
    intro _
    exact StoresAfter.ite (stores_identifier.parenthesized.bind fun _ => .pure rfl) mayStore_none
  have htail : nested.joinTail?.MayStore JoinTail.verbatims := by
    apply (joinKind?).bind
    intro kind
    cases kind with
    | none => exact mayStore_none
    | some kind =>
      apply (h.tableFactor?.require _).bind
      intro right
      exact StoresAfter.iteBind hcondition mayStore_none fun condition => .pure rfl
  apply Stores.bind h.tableFactor?
  intro first
  cases first with
  | none => exact mayStore_none
  | some first => exact storesAfter_attached htail JoinTail.verbatims_attach first

theorem select? : nested.select?.MayStore Select.verbatims := by
  have hshape : selectAs?.StoresNothing := by
    apply (storesNothing_skipAll (by simp)).bind
    intro _
    refine StoresAfter.ite (.pure rfl) ?_
    apply (storesNothing_skipAll (by simp)).bind
    intro _
    exact StoresAfter.ite (.pure rfl) storesNothing_none
  have hgroupBy : nested.groupBy.Stores (List.flatMap Expr.verbatims) :=
    (storesNothing_skipAll (by simp)).bind fun _ => StoresAfter.ite h.expr.commaSeparated stores_nil
  apply (storesNothing_skip "SELECT").bind
  intro _
  apply StoresAfter.ite _ mayStore_none
  apply (storesNothing_skip "DISTINCT").bind
  intro distinct
  apply hshape.bind
  intro shape
  apply h.selectItems.bind
  intro items
  have hsource : MayStore (some <$> require "a table" nested.tableExpr?) TableExpr.verbatims :=
    (h.tableExpr?.require _).map some fun _ => rfl
  apply (storesNothing_skip "FROM").bind
  intro _
  apply StoresAfter.iteBind hsource mayStore_none
  intro source
  apply Stores.bind (h.exprAfter? "WHERE")
  intro filter
  apply hgroupBy.bind
  intro groupBy
  apply Stores.bind (h.exprAfter? "HAVING")
  intro having
  apply Stores.bind (h.exprAfter? "QUALIFY")
  intro qualify
  exact .pure (by simp [verbatims?, Select.verbatims])

theorem queryBody? : nested.queryBody?.MayStore Query.verbatims := by
  have hoperand : nested.setOperand?.MayStore SetExpr.verbatims := by
    apply Stores.bind h.select?
    intro select
    cases select with
    | some select => exact .pure rfl
    | none =>
      apply Stores.bind h.parenQuery?
      intro query
      cases query <;> exact .pure rfl
  have hop : setOperator?.StoresNothing :=
    storesNothing_word "UNION" _ <| storesNothing_word "INTERSECT" _ <|
      storesNothing_word "EXCEPT" _ storesNothing_none
  have hquantifier : setQuantifier?.StoresNothing :=
    storesNothing_word "ALL" _ <| storesNothing_word "DISTINCT" _ storesNothing_none
  have htail : nested.setTail?.MayStore SetTail.verbatims := by
    apply hop.bind
    intro op
    cases op with
    | none => exact mayStore_none
    | some op => exact hquantifier.bind fun _ => (hoperand.require _).bind fun right => .pure rfl
  have hset : nested.setExpr?.MayStore SetExpr.verbatims := by
    apply Stores.bind hoperand
    intro first
    cases first with
    | none => exact mayStore_none
    | some first => exact storesAfter_attached htail SetTail.verbatims_attach first
  apply Stores.bind h.commonTables?
  intro common
  apply Stores.bind hset
  intro body
  cases body with
  | some body =>
    exact Stores.bind h.rowOrder? fun order => .pure (by simp [verbatims?, Query.verbatims])
  | none =>
    cases common with
    | some common => exact storesAfter_expected _
    | none => exact mayStore_none

end Queries

section Statements

omit h in
theorem createHead? (object : String) : (Grammar.createHead? object).StoresNothing := by
  have htemporary : temporary?.StoresNothing :=
    storesNothing_word "TEMP" _ <| storesNothing_word "TEMPORARY" _ storesNothing_none
  apply (storesNothing_skip "CREATE").bind
  intro _
  apply StoresAfter.ite _ storesNothing_none
  apply (storesNothing_skipAll (by simp)).bind
  intro orReplace
  apply htemporary.bind
  intro temporary
  exact (storesNothing_skip object).bind fun _ => .pure rfl

theorem declaration : nested.declaration.Stores Declaration.verbatims :=
  (mayStore_declarationWith? h.type?).require _

theorem options : nested.options.Stores (List.flatMap OptionItem.verbatims) := by
  have hitem : nested.optionItem.Stores OptionItem.verbatims := by
    apply stores_identifier.bind
    intro name
    exact (storesNothing_expect "=").bind fun _ => h.expr.bind fun value => .pure rfl
  exact (storesNothing_skip "OPTIONS").bind fun _ => StoresAfter.ite hitem.parenthesized stores_nil

theorem createFunction? : nested.createFunction?.MayStore Action.verbatims := by
  have hforeign : nested.foreignBody.Stores FunctionBody.verbatims := by
    apply stores_identifier.bind
    intro language
    apply (storesNothing_expect "AS").bind
    intro _
    apply (storesNothing_ask _).bind
    intro _
    apply StoresAfter.ite _ (storesAfter_expected _)
    apply stores_constant.bind
    intro code
    exact h.options.bind fun options => .pure rfl
  have hbody : nested.functionBody.Stores FunctionBody.verbatims := by
    apply (storesNothing_skip "LANGUAGE").bind
    intro _
    apply StoresAfter.ite hforeign
    exact (storesNothing_expect "AS").bind fun _ => h.expr.bind fun body => .pure rfl
  apply (createHead? _).bind
  intro head
  cases head with
  | none => exact mayStore_none
  | some head =>
    apply stores_qualifiedName.bind
    intro name
    apply h.declaration.parenthesized.bind
    intro params
    have hreturns : MayStore (some <$> nested.type) SqlType.verbatims := h.type.map some fun _ => rfl
    apply (storesNothing_skip "RETURNS").bind
    intro _
    apply StoresAfter.iteBind hreturns mayStore_none
    intro returns
    exact hbody.bind fun body => .pure rfl

theorem createTable? : nested.createTable?.MayStore Action.verbatims := by
  apply (createHead? _).bind
  intro head
  cases head with
  | none => exact mayStore_none
  | some head =>
    apply (storesNothing_skipAll (by simp)).bind
    intro ifNotExists
    apply stores_qualifiedName.bind
    intro name
    have hquery : MayStore (some <$> nested.query) Query.verbatims := h.query.map some fun _ => rfl
    apply (storesNothing_ask _).bind
    intro _
    apply StoresAfter.iteBind h.declaration.parenthesized stores_nil
    intro columns
    apply h.options.bind
    intro options
    apply (storesNothing_skip "AS").bind
    intro _
    exact StoresAfter.iteBind hquery mayStore_none fun query => .pure rfl

theorem createView? : nested.createView?.MayStore Action.verbatims := by
  apply (createHead? _).bind
  intro head
  rcases head with _ | ⟨orReplace, _ | word⟩
  · exact mayStore_none
  · apply (storesNothing_skipAll (by simp)).bind
    intro ifNotExists
    apply stores_qualifiedName.bind
    intro name
    apply h.options.bind
    intro options
    apply (storesNothing_expect "AS").bind
    intro _
    exact h.query.bind fun query => .pure rfl
  · exact mayStore_none

theorem insert? : nested.insert?.MayStore Action.verbatims := by
  have hcolumns : insertColumns.Stores (List.flatMap Identifier.verbatims) :=
    (storesNothing_ask _).bind fun _ => StoresAfter.ite stores_identifier.parenthesized stores_nil
  have hsource : nested.insertSource.Stores InsertSource.verbatims := by
    apply (storesNothing_skip "VALUES").bind
    intro _
    apply StoresAfter.ite
    · exact h.expr.parenthesized.commaSeparated.bind fun rows => .pure rfl
    · exact h.query.bind fun query => .pure rfl
  apply (storesNothing_skip "INSERT").bind
  intro _
  apply StoresAfter.ite _ mayStore_none
  apply (storesNothing_skip "INTO").discard.bind
  intro _
  apply stores_qualifiedName.bind
  intro table
  apply hcolumns.bind
  intro columns
  exact hsource.bind fun source => .pure rfl

theorem action? : nested.action?.MayStore Action.verbatims := by
  have hquery : MayStore (Option.map Action.query <$> nested.queryHere?) Action.verbatims :=
    Stores.map h.queryHere? _ fun query => by cases query <;> rfl
  apply mayStore_firstOf
  simp only [List.forall_mem_cons, List.not_mem_nil, IsEmpty.forall_iff, implies_true, and_true]
  exact ⟨h.createFunction?, h.createTable?, h.createView?, h.insert?, hquery⟩

theorem statement? : nested.statement?.MayStore Statement.verbatims := by
  apply Stores.bind h.action?
  intro action
  cases action with
  | none => exact mayStore_none
  | some action => exact storesNothing_comments.bind fun comments => .pure rfl

theorem scriptItem? : nested.scriptItem?.MayStore Statement.verbatims := by
  have hsemicolon : MayStore (do return if ← skip ";" then some () else none) fun _ => [] := by
    apply (storesNothing_skip ";").bind
    intro isThere
    cases isThere <;> exact .pure rfl
  have hsemicolons : StoresNothing (many do return if ← skip ";" then some () else none) := by
    have hnone : List.flatMap (fun _ : Unit => ([] : List String)) = fun _ => [] := by
      funext items
      simp
    simpa only [hnone] using hsemicolon.many
  apply hsemicolons.discard.bind
  intro _
  apply (storesNothing_ask _).bind
  intro _
  apply StoresAfter.ite mayStore_none
  apply (h.statement?.require _).bind
  intro statement
  apply (storesNothing_skip ";").bind
  intro _
  have hrest : StoresAfter ([] ++ statement.verbatims) (pure (some statement))
      (verbatims? Statement.verbatims) :=
    .pure rfl
  apply StoresAfter.ite _ hrest
  apply (storesNothing_ask _).bind
  intro _
  exact StoresAfter.ite (storesAfter_expected _) hrest

theorem script : nested.script.Stores Script.verbatims := by
  apply h.scriptItem?.many.bind
  intro statements
  exact storesNothing_comments.bind fun comments => .pure rfl

end Statements

end IsStoring

theorem isStoring_nestedAt (levels : Nat) : (nestedAt levels).IsStoring := by
  induction levels with
  | zero =>
    exact ⟨storesAfter_tooDeep, storesAfter_tooDeep, storesAfter_tooDeep, storesAfter_tooDeep,
      mayStore_typeAt? 0, stores_fieldsAt 0⟩
  | succ levels ih =>
    exact ⟨ih.or?.descend, (ih.not?.require _).descend, (ih.unary?.require _).descend,
      ih.queryBody?.attempt.descend, mayStore_typeAt? _, stores_fieldsAt _⟩

end Nested

end Grammar

end SqlLayout
