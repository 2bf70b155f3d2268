import SqlLayout.Proofs.Nesting.Expr
import SqlLayout.Proofs.Sound.Statement

/-!
# What Is Read Nests No Deeper than the Limit

Queries and statements stay within the levels left as well, and so, by induction on the levels, does
everything that is read. An interval adds nothing to its value, because the value is read on the level of
the interval itself, without a limit of its own.
-/

namespace SqlLayout

open Rule

namespace Grammar

namespace Nested.IsShallow

variable {nested : Nested} {levels : Nat} (h : nested.IsShallow levels)

include h

section Queries

theorem commonTables? :
    nested.commonTables?.Gives fun value => commonTablesNesting? {} value ≤ levels := by
  have htable : nested.commonTable?.Gives fun value =>
      ∀ table ∈ value, table.query.nesting {} + 1 ≤ levels := by
    apply isQuiet_identifier?.gives_bind
    intro name
    cases name with
    | none => exact .pure (by simp)
    | some name =>
      apply (isQuiet_expect "AS").discard.gives_bind
      intro _
      apply (isQuiet_expect "(").discard.gives_bind
      intro _
      apply h.closedQuery.bind
      intro query hquery
      apply Gives.pure
      rintro _ ⟨⟩
      exact hquery
  apply (isQuiet_skip "WITH").gives_bind
  intro _
  apply Gives.ite
  · intro _
    apply (isQuiet_skip "RECURSIVE").gives_bind
    intro isRecursive
    apply (htable.require _).commaSeparated.bind
    intro tables htables
    exact .pure (commonTablesNesting_le htables.2)
  · intro _
    exact .pure (Nat.zero_le levels)

theorem selectItem : nested.selectItem.Gives fun item => item.nesting {} ≤ levels := by
  have hreplacement : nested.replacement.Gives fun item =>
      item.expr.whole {} (item.expr.nesting {}) ≤ levels := by
    apply h.expr.bind
    intro expr hexpr
    apply (isQuiet_expect "AS").discard.gives_bind
    intro _
    apply isQuiet_identifier.gives_bind
    intro aliasName
    exact .pure hexpr
  have hwildcard : nested.wildcard?.Gives fun value => ∀ item ∈ value, item.nesting {} ≤ levels := by
    have hstar : star?.IsQuiet := by
      apply (isQuiet_skip "*").bind
      intro _
      apply (IsQuiet.pure _).ite
      apply isQuiet_qualifiedName?.bind
      intro name
      cases name with
      | none => exact .pure _
      | some name => exact (isQuiet_skipAll _).bind fun _ => .pure _
    apply hstar.gives_bind
    intro qualifier
    cases qualifier with
    | none => exact .pure (by simp)
    | some qualifier =>
      apply (IsSound.gives_listAfter "EXCEPT" isQuiet_identifier.gives).bind
      intro except _
      apply (IsSound.gives_listAfter "REPLACE" hreplacement).bind
      intro replace hreplace
      apply Gives.pure
      rintro _ ⟨⟩
      exact replacementsNesting_le hreplace
  apply Gives.require
  apply hwildcard.attempt.bind
  intro item hitem
  cases item with
  | some item => exact .pure hitem
  | none =>
    apply h.expr?.bind
    intro expr hexpr
    cases expr with
    | none => exact .pure (by simp)
    | some expr =>
      apply isQuiet_aliasName?.gives_bind
      intro aliasName
      apply Gives.pure
      rintro _ ⟨⟩
      exact hexpr expr rfl

theorem selectItems : nested.selectItems.Gives fun items => selectItemsNesting {} items ≤ levels := by
  have hrest : Gives (do
      if ← skip "," then
        if ← ask fun cursor => cursor.atEnd || cursor.seesAny [")", ";", "FROM"] then return none
        return some (← nested.selectItem)
      else return none) fun value => ∀ item ∈ value, item.nesting {} ≤ levels := by
    apply (isQuiet_skip ",").gives_bind
    intro _
    apply Gives.ite
    · intro _
      apply (isQuiet_ask fun _ => rfl).gives_bind
      intro isEnd
      apply Gives.ite fun _ => .pure (by simp)
      intro _
      apply h.selectItem.bind
      intro item hitem
      exact .pure (by simpa using hitem)
    · intro _
      exact .pure (by simp)
  apply h.selectItem.bind
  intro first hfirst
  apply hrest.many.bind
  intro rest hrest
  exact .pure (selectItemsNesting_le (List.forall_mem_cons.mpr ⟨hfirst, hrest⟩))

theorem tableFactor? :
    nested.tableFactor?.Gives fun value => ∀ table ∈ value, table.nesting {} ≤ levels := by
  have hunnested : nested.unnested.Gives fun table => table.nesting {} ≤ levels := by
    apply h.closedExpr.bind
    intro array harray
    apply isQuiet_aliasName?.gives_bind
    intro aliasName
    apply (isQuiet_skipAll _).gives_bind
    intro _
    apply Gives.ite
    · intro _
      rw [map_eq_bind, bind_assoc]
      apply isQuiet_aliasName?.gives_bind
      intro offset
      exact .pure harray
    · intro _
      exact .pure harray
  apply (isQuiet_skipAll _).gives_bind
  intro _
  apply Gives.ite
  · intro _
    apply hunnested.bind
    intro table htable
    exact .pure (by simpa using htable)
  intro _
  apply h.parenQuery?.bind
  intro query hquery
  cases query with
  | some query =>
    apply isQuiet_aliasName?.gives_bind
    intro aliasName
    apply Gives.pure
    rintro _ ⟨⟩
    exact hquery query rfl
  | none =>
    apply isQuiet_qualifiedName?.gives_bind
    intro name
    cases name with
    | none => exact .pure (by simp)
    | some name =>
      apply isQuiet_aliasName?.gives_bind
      intro aliasName
      apply Gives.pure
      rintro _ ⟨⟩
      exact Nat.zero_le levels

theorem tableExpr? : nested.tableExpr?.Gives fun value => ∀ table ∈ value, table.nesting {} ≤ levels := by
  have hcondition : nested.joinCondition?.Gives fun value => joinConditionNesting? {} value ≤ levels := by
    apply (isQuiet_skip "ON").gives_bind
    intro _
    apply Gives.ite
    · intro _
      apply h.expr.bind
      intro test htest
      exact .pure htest
    intro _
    apply (isQuiet_skip "USING").gives_bind
    intro _
    apply Gives.ite
    · intro _
      apply isQuiet_identifier.parenthesized.gives_bind
      intro names
      exact .pure (Nat.zero_le levels)
    · intro _
      exact .pure (Nat.zero_le levels)
  have htail : nested.joinTail?.Gives fun value => ∀ tail ∈ value,
      tail.right.nesting {} ≤ levels ∧ joinConditionNesting? {} tail.condition ≤ levels := by
    apply IsTame.isQuiet_joinKind?.gives_bind
    intro kind
    cases kind with
    | none => exact .pure (by simp)
    | some kind =>
      apply (h.tableFactor?.require _).bind
      intro right hright
      apply Gives.ite
      · intro _
        apply hcondition.bind
        intro condition hcondition
        apply Gives.pure
        rintro _ ⟨⟩
        exact ⟨hright, hcondition⟩
      · intro _
        apply Gives.pure
        rintro _ ⟨⟩
        exact ⟨hright, Nat.zero_le levels⟩
  apply h.tableFactor?.bind
  intro first hfirst
  cases first with
  | none => exact .pure (by simp)
  | some first =>
    apply htail.many.bind
    intro tails htails
    apply Gives.pure
    rintro _ ⟨⟩
    refine List.foldlRecOn tails _ (motive := fun whole : TableExpr => whole.nesting {} ≤ levels)
      (hfirst first rfl) ?_
    intro left hleft tail htail
    exact Nat.max_le.mpr ⟨hleft, Nat.max_le.mpr (htails tail htail)⟩

theorem select? : nested.select?.Gives fun value => ∀ select ∈ value, select.nesting {} ≤ levels := by
  have hgroupBy : nested.groupBy.Gives fun items => exprsNesting {} items ≤ levels := by
    apply (isQuiet_skipAll _).gives_bind
    intro _
    apply Gives.ite
    · intro _
      exact h.exprs
    · intro _
      exact .pure (Nat.zero_le levels)
  apply (isQuiet_skip "SELECT").gives_bind
  intro _
  apply Gives.ite
  · intro _
    apply (isQuiet_skip "DISTINCT").gives_bind
    intro distinct
    apply IsTame.isQuiet_selectAs?.gives_bind
    intro shape
    apply h.selectItems.bind
    intro items hitems
    have hrest (source : Option TableExpr) (hsource : tableExprNesting? {} source ≤ levels) : Gives (do
        let filter ← nested.exprAfter? "WHERE"
        let groupBy ← nested.groupBy
        let having ← nested.exprAfter? "HAVING"
        let qualify ← nested.exprAfter? "QUALIFY"
        return some ({ distinct, shape, items, source, filter, groupBy, having, qualify } : Select))
        fun value => ∀ select ∈ value, select.nesting {} ≤ levels := by
      apply (h.exprAfter? "WHERE").bind
      intro filter hfilter
      apply hgroupBy.bind
      intro groupBy hgroupBy
      apply (h.exprAfter? "HAVING").bind
      intro having hhaving
      apply (h.exprAfter? "QUALIFY").bind
      intro qualify hqualify
      apply Gives.pure
      rintro _ ⟨⟩
      exact Nat.max_le.mpr ⟨hitems, Nat.max_le.mpr ⟨hsource, Nat.max_le.mpr ⟨hfilter,
        Nat.max_le.mpr ⟨hgroupBy, Nat.max_le.mpr ⟨hhaving, hqualify⟩⟩⟩⟩⟩
    apply (isQuiet_skip "FROM").gives_bind
    intro _
    apply Gives.ite
    · intro _
      rw [map_eq_bind, bind_assoc]
      apply (h.tableExpr?.require _).bind
      intro table htable
      exact hrest (some table) htable
    · intro _
      exact hrest none (Nat.zero_le levels)
  · intro _
    exact .pure (by simp)

theorem setExpr? : nested.setExpr?.Gives fun value => ∀ body ∈ value, body.nesting {} ≤ levels := by
  have hoperand : nested.setOperand?.Gives fun value => ∀ body ∈ value, body.nesting {} ≤ levels := by
    apply h.select?.bind
    intro select hselect
    cases select with
    | some select =>
      apply Gives.pure
      rintro _ ⟨⟩
      exact hselect select rfl
    | none =>
      apply h.parenQuery?.bind
      intro query hquery
      apply Gives.pure
      intro body hbody
      obtain ⟨query, rfl, rfl⟩ := Option.map_eq_some_iff.mp hbody
      exact hquery query rfl
  have htail : nested.setTail?.Gives fun value => ∀ tail ∈ value, tail.right.nesting {} ≤ levels := by
    apply IsTame.isQuiet_setOperator?.gives_bind
    intro op
    cases op with
    | none => exact .pure (by simp)
    | some op =>
      apply IsTame.isQuiet_setQuantifier?.gives_bind
      intro quantifier
      apply (hoperand.require _).bind
      intro right hright
      apply Gives.pure
      rintro _ ⟨⟩
      exact hright
  apply hoperand.bind
  intro first hfirst
  cases first with
  | none => exact .pure (by simp)
  | some first =>
    apply htail.many.bind
    intro tails htails
    apply Gives.pure
    rintro _ ⟨⟩
    refine List.foldlRecOn tails _ (motive := fun whole : SetExpr => whole.nesting {} ≤ levels)
      (hfirst first rfl) ?_
    intro left hleft tail htail
    exact Nat.max_le.mpr ⟨hleft, htails tail htail⟩

theorem queryBody? : nested.queryBody?.Gives fun value => ∀ query ∈ value, query.nesting {} ≤ levels := by
  apply h.commonTables?.bind
  intro common hcommon
  apply h.setExpr?.bind
  intro body hbody
  cases body with
  | none => exact .ite (fun _ => gives_expected _) fun _ => .pure (by simp)
  | some body =>
    apply h.rowOrder?.bind
    intro order horder
    apply Gives.pure
    rintro _ ⟨⟩
    exact Nat.max_le.mpr ⟨hcommon, Nat.max_le.mpr ⟨hbody body rfl, horder⟩⟩

end Queries

section Statements

theorem declaration : nested.declaration.Gives fun declaration => declaration.type.nesting ≤ levels := by
  apply Gives.require
  apply isQuiet_identifier?.gives_bind
  intro name
  cases name with
  | none => exact .pure (by simp)
  | some name =>
    apply (h.type?.require _).bind
    intro type htype
    apply Gives.pure
    rintro _ ⟨⟩
    exact htype

theorem declarations :
    (parenthesized nested.declaration).Gives fun found => declarationsNesting found ≤ levels :=
  h.declaration.parenthesized.mono fun _ hfound => foldr_max_le hfound

theorem options : nested.options.Gives fun items => optionsNesting {} items ≤ levels := by
  have hitem : nested.optionItem.Gives fun item => item.value.whole {} (item.value.nesting {}) ≤ levels := by
    apply isQuiet_identifier.gives_bind
    intro name
    apply (isQuiet_expect "=").discard.gives_bind
    intro _
    apply h.expr.bind
    intro value hvalue
    exact .pure hvalue
  apply (isQuiet_skip "OPTIONS").gives_bind
  intro _
  apply Gives.ite
  · intro _
    exact hitem.parenthesized.mono fun items hitems => exprsNesting_le (List.forall_mem_map.mpr hitems)
  · intro _
    exact .pure (Nat.zero_le levels)

theorem functionBody : nested.functionBody.Gives fun body => FunctionBody.nesting {} body ≤ levels := by
  have hforeign : nested.foreignBody.Gives fun body => FunctionBody.nesting {} body ≤ levels := by
    apply isQuiet_identifier.gives_bind
    intro language
    apply (isQuiet_expect "AS").discard.gives_bind
    intro _
    apply isQuiet_kind?.gives_bind
    intro kind
    apply Gives.ite
    · intro _
      apply isQuiet_constant.gives_bind
      intro code
      apply h.options.bind
      intro options hoptions
      exact .pure hoptions
    · intro _
      exact gives_expected _
  apply (isQuiet_skip "LANGUAGE").gives_bind
  intro _
  apply Gives.ite fun _ => hforeign
  intro _
  apply (isQuiet_expect "AS").discard.gives_bind
  intro _
  apply h.expr.bind
  intro body hbody
  exact .pure hbody

theorem createFunction? :
    nested.createFunction?.Gives fun value => ∀ action ∈ value, Action.nesting {} action ≤ levels := by
  apply (IsTame.isQuiet_createHead? _).gives_bind
  intro head
  cases head with
  | none => exact .pure (by simp)
  | some head =>
    apply isQuiet_qualifiedName.gives_bind
    intro name
    apply h.declarations.bind
    intro params hparams
    have hrest (returns : Option SqlType) (hreturns : (returns.map SqlType.nesting).getD 0 ≤ levels) :
        Gives (do
          let body ← nested.functionBody
          return some (Action.createFunction
            { orReplace := head.1, temporary := head.2, name, params, returns, body }))
          fun value => ∀ action ∈ value, Action.nesting {} action ≤ levels := by
      apply h.functionBody.bind
      intro body hbody
      apply Gives.pure
      rintro _ ⟨⟩
      exact Nat.max_le.mpr ⟨hparams, Nat.max_le.mpr ⟨hreturns, hbody⟩⟩
    apply (isQuiet_skip "RETURNS").gives_bind
    intro _
    apply Gives.ite
    · intro _
      rw [map_eq_bind, bind_assoc]
      apply h.type.bind
      intro type htype
      exact hrest (some type) htype
    · intro _
      exact hrest none (Nat.zero_le levels)

theorem createTable? :
    nested.createTable?.Gives fun value => ∀ action ∈ value, Action.nesting {} action ≤ levels := by
  apply (IsTame.isQuiet_createHead? _).gives_bind
  intro head
  cases head with
  | none => exact .pure (by simp)
  | some head =>
    apply (isQuiet_skipAll _).gives_bind
    intro ifNotExists
    apply isQuiet_qualifiedName.gives_bind
    intro name
    have hrest (columns : List Declaration) (hcolumns : declarationsNesting columns ≤ levels) : Gives (do
        let options ← nested.options
        let query ← if ← skip "AS" then some <$> nested.query else pure none
        return some (Action.createTable
          { orReplace := head.1, temporary := head.2, ifNotExists, name, columns, options, query }))
        fun value => ∀ action ∈ value, Action.nesting {} action ≤ levels := by
      apply h.options.bind
      intro options hoptions
      apply (isQuiet_skip "AS").gives_bind
      intro _
      apply Gives.ite
      · intro _
        rw [map_eq_bind, bind_assoc]
        apply h.query.bind
        intro query hquery
        apply Gives.pure
        rintro _ ⟨⟩
        exact Nat.max_le.mpr ⟨hcolumns, Nat.max_le.mpr ⟨hoptions, hquery⟩⟩
      · intro _
        apply Gives.pure
        rintro _ ⟨⟩
        exact Nat.max_le.mpr ⟨hcolumns, Nat.max_le.mpr ⟨hoptions, Nat.zero_le levels⟩⟩
    apply (isQuiet_sees "(").gives_bind
    intro _
    apply Gives.ite
    · intro _
      exact h.declarations.bind hrest
    · intro _
      exact hrest [] (Nat.zero_le levels)

theorem createView? :
    nested.createView?.Gives fun value => ∀ action ∈ value, Action.nesting {} action ≤ levels := by
  apply (IsTame.isQuiet_createHead? _).gives_bind
  intro head
  rcases head with _ | ⟨orReplace, _ | word⟩
  · exact .pure (by simp)
  · apply (isQuiet_skipAll _).gives_bind
    intro ifNotExists
    apply isQuiet_qualifiedName.gives_bind
    intro name
    apply h.options.bind
    intro options hoptions
    apply (isQuiet_expect "AS").discard.gives_bind
    intro _
    apply h.query.bind
    intro query hquery
    apply Gives.pure
    rintro _ ⟨⟩
    exact Nat.max_le.mpr ⟨hoptions, hquery⟩
  · exact .pure (by simp)

theorem insert? :
    nested.insert?.Gives fun value => ∀ action ∈ value, Action.nesting {} action ≤ levels := by
  have hcolumns : insertColumns.IsQuiet :=
    (isQuiet_ask fun _ => rfl).bind fun _ => isQuiet_identifier.parenthesized.ite (.pure _)
  have hsource (table : QualifiedName) (columns : List Identifier) :
      nested.insertSource.Gives fun source =>
        Action.nesting {} (.insert { table, columns, source }) ≤ levels := by
    apply (isQuiet_skip "VALUES").gives_bind
    intro _
    apply Gives.ite
    · intro _
      apply h.expr.parenthesized.commaSeparated.bind
      intro rows hrows
      exact .pure (foldr_max_le fun row hrow => exprsNesting_le (hrows.2 row hrow))
    · intro _
      apply h.query.bind
      intro query hquery
      exact .pure hquery
  apply (isQuiet_skip "INSERT").gives_bind
  intro _
  apply Gives.ite
  · intro _
    apply (isQuiet_skip "INTO").discard.gives_bind
    intro _
    apply isQuiet_qualifiedName.gives_bind
    intro table
    apply hcolumns.gives_bind
    intro columns
    apply (hsource table columns).bind
    intro source hsource
    apply Gives.pure
    rintro _ ⟨⟩
    exact hsource
  · intro _
    exact .pure (by simp)

theorem action? :
    nested.action?.Gives fun value => ∀ action ∈ value, Action.nesting {} action ≤ levels := by
  have hquery : (Option.map Action.query <$> nested.queryHere?).Gives fun value =>
      ∀ action ∈ value, Action.nesting {} action ≤ levels := by
    apply h.queryHere?.map
    intro query hquery action haction
    obtain ⟨query, rfl, rfl⟩ := Option.map_eq_some_iff.mp haction
    exact hquery query rfl
  apply Gives.firstOf
  simp only [List.forall_mem_cons, List.not_mem_nil, IsEmpty.forall_iff, implies_true, and_true]
  exact ⟨h.createFunction?, h.createTable?, h.createView?, h.insert?, hquery⟩

theorem script : nested.script.Gives fun script => script.nesting {} ≤ levels := by
  have hstatement : nested.statement?.Gives fun value =>
      ∀ statement ∈ value, Action.nesting {} statement.action ≤ levels := by
    apply h.action?.bind
    intro action haction
    cases action with
    | none => exact .pure (by simp)
    | some action =>
      apply gives_comments.bind
      intro texts _
      apply Gives.pure
      rintro _ ⟨⟩
      exact haction action rfl
  have hitem : nested.scriptItem?.Gives fun value =>
      ∀ statement ∈ value, Action.nesting {} statement.action ≤ levels := by
    have hsemicolons : IsQuiet (do return if ← skip ";" then some () else none) :=
      (isQuiet_skip ";").bind fun _ => .pure _
    apply hsemicolons.many.discard.gives_bind
    intro _
    apply (isQuiet_ask fun _ => rfl).gives_bind
    intro isDone
    apply Gives.ite fun _ => .pure (by simp)
    intro _
    apply (hstatement.require _).bind
    intro statement hstatement
    apply (isQuiet_skip ";").gives_bind
    intro isClosed
    have hsome : Gives (pure (some statement)) fun value =>
        ∀ statement ∈ value, Action.nesting {} statement.action ≤ levels :=
      .pure (by simpa using hstatement)
    apply Gives.ite _ fun _ => hsome
    intro _
    apply (isQuiet_ask fun _ => rfl).gives_bind
    intro isDone
    exact .ite (fun _ => gives_expected _) fun _ => hsome
  apply hitem.many.bind
  intro statements hstatements
  apply gives_comments.bind
  intro texts _
  exact .pure (foldr_max_le hstatements)

end Statements

end Nested.IsShallow

end Grammar

end SqlLayout
