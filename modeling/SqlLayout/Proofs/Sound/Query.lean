import SqlLayout.Proofs.Grammar.Replay
import SqlLayout.Proofs.Sound.Expr

/-!
# Queries Are Sound

Selections, tables and set operations hold what is required of them, and joins and set operations have a
single table or operand on their right. With this the rules for one level more are sound if the rules
they may nest are, and so the rules for any number of levels.
-/

namespace SqlLayout.Grammar

open Rule

namespace Nested.IsSound

variable {nested : Nested} {cursor : Cursor} (h : nested.IsSound)

include h

section Items

theorem ensures_commonTables? :
    nested.commonTables?.Ensures cursor fun value after =>
      (∀ common ∈ value, common.tables ≠ [] ∧
        ∀ table ∈ common.tables, (Node.commonTable table).IsSound) ∧ (value = none → after = cursor) := by
  have htable : nested.commonTable?.Gives fun value =>
      ∀ table ∈ value, (Node.commonTable table).IsSound := by
    apply gives_identifier?.bind
    intro name hname
    cases name with
    | none => exact .pure (by simp)
    | some name =>
      apply (isQuiet_expect "AS").discard.gives_bind
      intro _
      apply (isQuiet_expect "(").discard.gives_bind
      intro _
      apply h.gives_closedQuery.bind
      intro query hquery
      apply Gives.pure
      rintro _ ⟨⟩
      have hlocal : (Node.commonTable { name, query }).IsLocallySound := hname name rfl
      exact Node.isSound_iff.mpr ⟨hlocal, by simpa [Node.children] using hquery⟩
  apply Ensures.skip
  · intro _
    apply (isQuiet_skip "RECURSIVE").gives _ |>.bind
    intro isRecursive _ _
    apply ((htable.require _).commaSeparated _).bind
    intro tables _ htables
    exact .pure ⟨by simpa using htables, by simp⟩
  · intro _
    exact .pure ⟨by simp, fun _ => rfl⟩

omit h in
theorem gives_listAfter {α : Type} {item : Rule α} {good : α → Prop} (keyword : String)
    (hitem : item.Gives good) : (listAfter keyword item).Gives fun items => ∀ item ∈ items, good item := by
  intro cursor
  apply (ensures_ask (·.seesAll [keyword, "("])).bind
  rintro _ _ ⟨rfl, rfl⟩
  apply Ensures.ite
  · intro _
    exact (isQuiet_bump.discard.gives_bind fun _ => hitem.parenthesized) cursor
  · intro _
    exact .pure (by simp)

theorem gives_wildcard? :
    nested.wildcard?.Gives fun value => ∀ item ∈ value, (Node.selectItem item).IsSound := by
  have hstar : star?.Gives fun value => ∀ qualifier ∈ value, ∀ name ∈ qualifier, name.IsSound := by
    apply (isQuiet_skip "*").gives_bind
    intro _
    apply Gives.ite
    · intro _
      exact .pure (by simp)
    · intro _
      apply gives_qualifiedName?.bind
      intro name hname
      cases name with
      | none => exact .pure (by simp)
      | some name =>
        apply (isQuiet_skipAll _).gives_bind
        intro isStar
        cases isStar with
        | true => exact .pure (by simpa using hname)
        | false => exact .pure (by simp)
  have hreplacement : nested.replacement.Gives fun item =>
      item.IsSound ∧ (Node.expr item.expr).IsSound := by
    apply h.gives_expr.bind
    intro expr hexpr
    apply (isQuiet_expect "AS").discard.gives_bind
    intro _
    apply gives_identifier.bind
    intro aliasName halias
    exact .pure ⟨⟨hexpr.level_le, halias⟩, hexpr.sound⟩
  apply hstar.bind
  intro qualifier hqualifier
  cases qualifier with
  | none => exact .pure (by simp)
  | some qualifier =>
    apply (gives_listAfter "EXCEPT" gives_identifier).bind
    intro except hexcept
    apply (gives_listAfter "REPLACE" hreplacement).bind
    intro replace hreplace
    apply Gives.pure
    rintro _ ⟨⟩
    have hlocal : (Node.selectItem (.wildcard qualifier except replace)).IsLocallySound :=
      ⟨hqualifier qualifier rfl, hexcept, fun item hitem => (hreplace item hitem).1⟩
    refine Node.isSound_iff.mpr ⟨hlocal, ?_⟩
    simp only [Node.children, Node.ofSelectItem, Node.replacements, List.forall_mem_map]
    exact fun item hitem => (hreplace item hitem).2

theorem gives_selectItem : nested.selectItem.Gives fun item => (Node.selectItem item).IsSound := by
  apply Gives.require
  apply h.gives_wildcard?.attempt.bind
  intro item hitem
  cases item with
  | some item => exact .pure hitem
  | none =>
    intro cursor
    apply (h.expr? cursor).bind
    intro expr middle hexpr
    cases expr with
    | none => exact .pure (by simp)
    | some expr =>
      have hexpr := hexpr expr rfl
      apply (gives_aliasName? _).bind
      intro aliasName after halias
      apply Ensures.pure
      rintro _ ⟨⟩
      have hlocal : (Node.selectItem (.expr expr aliasName)).IsLocallySound :=
        ⟨hexpr.level_le, halias⟩
      exact Node.isSound_iff.mpr ⟨hlocal, by simpa [Node.children, Node.ofSelectItem] using hexpr.sound⟩

theorem gives_selectItems :
    nested.selectItems.Gives fun items => items ≠ [] ∧ ∀ item ∈ items, (Node.selectItem item).IsSound := by
  have hrest : Gives (do
      if ← skip "," then
        if ← ask fun cursor => cursor.atEnd || cursor.seesAny [")", ";", "FROM"] then return none
        return some (← nested.selectItem)
      else return none) fun value => ∀ item ∈ value, (Node.selectItem item).IsSound := by
    apply (isQuiet_skip ",").gives_bind
    intro _
    apply Gives.ite
    · intro _
      apply (isQuiet_ask fun _ => rfl).gives_bind
      intro isEnd
      apply Gives.ite fun _ => .pure (by simp)
      intro _
      apply h.gives_selectItem.bind
      intro item hitem
      exact .pure (by simpa using hitem)
    · intro _
      exact .pure (by simp)
  apply h.gives_selectItem.bind
  intro first hfirst
  apply hrest.many.bind
  intro rest hrest
  exact .pure ⟨by simp, List.forall_mem_cons.mpr ⟨hfirst, hrest⟩⟩

end Items

section Tables

theorem gives_tableFactor? :
    nested.tableFactor?.Gives fun value =>
      ∀ table ∈ value, (Node.tableExpr table).IsSound ∧ table.isFactor = true := by
  have hunnested : nested.unnested.Gives fun table =>
      (Node.tableExpr table).IsSound ∧ table.isFactor = true := by
    apply h.gives_closedExpr.bind
    intro array harray
    apply gives_aliasName?.bind
    intro aliasName halias
    have hrest (offset : Option (Option Identifier))
        (hoffset : ∀ inner ∈ offset, ∀ name ∈ inner, name.IsSound) :
        Gives (pure (TableExpr.unnest array aliasName offset)) fun table =>
          (Node.tableExpr table).IsSound ∧ table.isFactor = true := by
      have hlocal : (Node.tableExpr (.unnest array aliasName offset)).IsLocallySound :=
        ⟨harray.level_le, halias, hoffset⟩
      refine .pure ⟨Node.isSound_iff.mpr ⟨hlocal, ?_⟩, rfl⟩
      simpa [Node.children, Node.ofTableExpr] using harray.sound
    apply (isQuiet_skipAll _).gives_bind
    intro _
    apply Gives.ite
    · intro _
      rw [map_eq_bind, bind_assoc]
      apply gives_aliasName?.bind
      intro offset hoffset
      exact hrest _ (by simpa using hoffset)
    · intro _
      exact hrest _ (by simp)
  apply (isQuiet_skipAll _).gives_bind
  intro _
  apply Gives.ite
  · intro _
    apply hunnested.bind
    intro table htable
    exact .pure (by simpa using htable)
  intro _
  apply h.gives_parenQuery?.bind
  intro query hquery
  cases query with
  | some query =>
    apply gives_aliasName?.bind
    intro aliasName halias
    apply Gives.pure
    rintro _ ⟨⟩
    have hlocal : (Node.tableExpr (.subquery query aliasName)).IsLocallySound := halias
    refine ⟨Node.isSound_iff.mpr ⟨hlocal, ?_⟩, rfl⟩
    simpa [Node.children, Node.ofTableExpr] using hquery
  | none =>
    apply gives_qualifiedName?.bind
    intro name hname
    cases name with
    | none => exact .pure (by simp)
    | some name =>
      apply gives_aliasName?.bind
      intro aliasName halias
      apply Gives.pure
      rintro _ ⟨⟩
      have hlocal : (Node.tableExpr (.table name aliasName)).IsLocallySound := ⟨hname name rfl, halias⟩
      exact ⟨Node.isSound_iff.mpr ⟨hlocal, by simp [Node.children, Node.ofTableExpr]⟩, rfl⟩

theorem gives_joinCondition? :
    nested.joinCondition?.Gives fun value =>
      (∀ condition ∈ value, condition.IsSound) ∧ ∀ child ∈ Node.ofJoinCondition value, child.IsSound := by
  apply (isQuiet_skip "ON").gives_bind
  intro _
  apply Gives.ite
  · intro _
    apply h.gives_expr.bind
    intro test htest
    refine .pure ⟨by simpa [JoinCondition.IsSound] using htest.level_le, ?_⟩
    simpa [Node.ofJoinCondition] using htest.sound
  intro _
  apply (isQuiet_skip "USING").gives_bind
  intro _
  apply Gives.ite
  · intro _
    apply gives_identifier.parenthesized.bind
    intro names hnames
    exact .pure ⟨by simpa [JoinCondition.IsSound] using hnames, by simp [Node.ofJoinCondition]⟩
  · intro _
    exact .pure ⟨by simp, by simp [Node.ofJoinCondition]⟩

theorem gives_joinTail? :
    nested.joinTail?.Gives fun value => ∀ tail ∈ value,
      ((Node.tableExpr tail.right).IsSound ∧ tail.right.isFactor = true) ∧
        (tail.condition.isSome → tail.kind.takesCondition = true) ∧
        (∀ condition ∈ tail.condition, condition.IsSound) ∧
        ∀ child ∈ Node.ofJoinCondition tail.condition, child.IsSound := by
  apply IsTame.isQuiet_joinKind?.gives_bind
  intro kind
  cases kind with
  | none => exact .pure (by simp)
  | some kind =>
    apply (h.gives_tableFactor?.require _).bind
    intro right hright
    apply Gives.ite
    · intro htakes
      apply h.gives_joinCondition?.bind
      intro condition hcondition
      apply Gives.pure
      rintro _ ⟨⟩
      exact ⟨hright, fun _ => htakes, hcondition⟩
    · intro _
      apply Gives.pure
      rintro _ ⟨⟩
      exact ⟨hright, by simp, by simp, by simp [Node.ofJoinCondition]⟩

/-- Joins associate to the left. -/
theorem gives_tableExpr? :
    nested.tableExpr?.Gives fun value => ∀ table ∈ value, (Node.tableExpr table).IsSound := by
  apply h.gives_tableFactor?.bind
  intro first hfirst
  cases first with
  | none => exact .pure (by simp)
  | some first =>
    apply h.gives_joinTail?.many.bind
    intro tails htails
    apply Gives.pure
    rintro _ ⟨⟩
    have hfold (table : TableExpr) (htable : (Node.tableExpr table).IsSound) :
        (Node.tableExpr (tails.foldl JoinTail.attach table)).IsSound := by
      induction tails generalizing table with
      | nil => exact htable
      | cons tail tails ih =>
        obtain ⟨⟨hright, hfactor⟩, htakes, hcondition, hchildren⟩ := htails tail List.mem_cons_self
        apply ih (fun other hother => htails other (List.mem_cons_of_mem tail hother))
        have hlocal : (Node.tableExpr (tail.attach table)).IsLocallySound := ⟨hfactor, htakes, hcondition⟩
        refine Node.isSound_iff.mpr ⟨hlocal, ?_⟩
        simp only [JoinTail.attach, Node.children, Node.ofTableExpr, List.forall_mem_append,
          List.forall_mem_cons, List.not_mem_nil, IsEmpty.forall_iff, implies_true, and_true]
        exact ⟨⟨htable, hright⟩, hchildren⟩
    exact hfold first (hfirst first rfl).1

end Tables

section Bodies

theorem ensures_select? :
    nested.select?.Ensures cursor fun value after =>
      (∀ select ∈ value, (Node.select select).IsSound) ∧ (value = none → after = cursor) := by
  have hgroupBy : nested.groupBy.Gives fun items => ∀ item ∈ items, item.IsOperand 1 := by
    apply (isQuiet_skipAll _).gives_bind
    intro _
    apply Gives.ite
    · intro _
      exact h.gives_expr.commaSeparated.mono fun _ hitems => hitems.2
    · intro _
      exact .pure (by simp)
  apply Ensures.skip
  · intro _
    apply (isQuiet_skip "DISTINCT").gives _ |>.bind
    intro distinct _ _
    apply IsTame.isQuiet_selectAs?.gives _ |>.bind
    intro shape _ _
    apply (h.gives_selectItems _).bind
    rintro items middle ⟨hne, hitems⟩
    have hrest (source : Option TableExpr) (middle : Cursor)
        (hsource : ∀ table ∈ source, (Node.tableExpr table).IsSound) : Ensures (do
          let filter ← nested.exprAfter? "WHERE"
          let groupBy ← nested.groupBy
          let having ← nested.exprAfter? "HAVING"
          let qualify ← nested.exprAfter? "QUALIFY"
          return some ({ distinct, shape, items, source, filter, groupBy, having, qualify } : Select))
          middle fun value after =>
            (∀ select ∈ value, (Node.select select).IsSound) ∧ (value = none → after = cursor) := by
      apply (h.gives_exprAfter? "WHERE" _).bind
      intro filter _ hfilter
      apply (hgroupBy _).bind
      intro groupBy _ hgroupBy
      apply (h.gives_exprAfter? "HAVING" _).bind
      intro having _ hhaving
      apply (h.gives_exprAfter? "QUALIFY" _).bind
      intro qualify _ hqualify
      refine .pure ⟨?_, by simp⟩
      rintro select ⟨⟩
      have hlocal : Select.IsLocallySound
          { distinct, shape, items, source, filter, groupBy, having, qualify } :=
        ⟨hne, fun expr hexpr => (hfilter expr hexpr).level_le,
          fun expr hexpr => (hgroupBy expr hexpr).level_le,
          fun expr hexpr => (hhaving expr hexpr).level_le,
          fun expr hexpr => (hqualify expr hexpr).level_le⟩
      refine Node.isSound_iff.mpr ⟨hlocal, ?_⟩
      simp only [Node.children, Node.ofSelect, List.forall_mem_append, List.forall_mem_map,
        Option.mem_toList]
      exact ⟨⟨⟨⟨⟨hitems, hsource⟩,
        Node.forall_optional fun expr hexpr => (hfilter expr hexpr).sound⟩,
        Node.forall_optional fun expr hexpr => (hhaving expr hexpr).sound⟩,
        Node.forall_optional fun expr hexpr => (hqualify expr hexpr).sound⟩,
        Node.forall_exprs fun expr hexpr => (hgroupBy expr hexpr).sound⟩
    apply Ensures.skip
    · intro _
      rw [map_eq_bind, bind_assoc]
      apply ((h.gives_tableExpr?.require _) _).bind
      intro table middle htable
      exact hrest _ middle (by simpa using htable)
    · intro _
      exact hrest _ middle (by simp)
  · intro _
    exact .pure ⟨by simp, fun _ => rfl⟩

/-- An operand of a set operation is a selection or starts with a parenthesis. -/
theorem ensures_setOperand? :
    nested.setOperand?.Ensures cursor fun value _ =>
      ∀ body ∈ value, (Node.setExpr body).IsSound ∧ body.isOperand = true ∧
        (body.startsWithSelect = false → cursor.sees "(" = true) := by
  apply h.ensures_select?.bind
  intro select middle hselect
  cases select with
  | some select =>
    apply Ensures.pure
    rintro _ ⟨⟩
    have hlocal : (Node.setExpr (.select select)).IsLocallySound := trivial
    refine ⟨Node.isSound_iff.mpr ⟨hlocal, ?_⟩, rfl, by simp [SetExpr.startsWithSelect]⟩
    simpa [Node.children, Node.ofSetExpr] using hselect.1
  | none =>
    obtain rfl := hselect.2 rfl
    have hparen : nested.parenQuery?.Ensures middle fun value _ =>
        ∀ query ∈ value, (Node.query query).IsSound ∧ middle.sees "(" = true := by
      apply (ensures_ask (·.sees "(")).bind
      rintro _ _ ⟨rfl, rfl⟩
      apply Ensures.ite
      · intro hsees
        have hrule := h.gives_enclosedQuery?
        apply ((hrule.attempt middle).once ((hrule middle).mono fun _ _ _ => trivial)).mono
        intro value _ hvalue query hquery
        exact ⟨hvalue query hquery, hsees⟩
      · intro _
        exact .pure (by simp)
    apply hparen.bind
    intro query after hquery
    cases query with
    | none => exact .pure (by simp)
    | some query =>
      obtain ⟨hquery, hsees⟩ := hquery query rfl
      apply Ensures.pure
      rintro _ ⟨⟩
      have hlocal : (Node.setExpr (.paren query)).IsLocallySound := trivial
      refine ⟨Node.isSound_iff.mpr ⟨hlocal, ?_⟩, rfl, fun _ => hsees⟩
      simpa [Node.children, Node.ofSetExpr] using hquery

/-- Set operations associate to the left. -/
theorem ensures_setExpr? :
    nested.setExpr?.Ensures cursor fun value _ =>
      ∀ body ∈ value, (Node.setExpr body).IsSound ∧
        (body.startsWithSelect = false → cursor.sees "(" = true) := by
  have htail : nested.setTail?.Gives fun value =>
      ∀ tail ∈ value, (Node.setExpr tail.right).IsSound ∧ tail.right.isOperand = true := by
    apply IsTame.isQuiet_setOperator?.gives_bind
    intro op
    cases op with
    | none => exact .pure (by simp)
    | some op =>
      apply IsTame.isQuiet_setQuantifier?.gives_bind
      intro quantifier
      have hoperand : nested.setOperand?.Gives fun value => ∀ body ∈ value,
          (Node.setExpr body).IsSound ∧ body.isOperand = true :=
        fun _ => h.ensures_setOperand?.mono fun _ _ hvalue body hbody =>
          ⟨(hvalue body hbody).1, (hvalue body hbody).2.1⟩
      apply (hoperand.require _).bind
      intro right hright
      exact .pure (by simpa using hright)
  apply h.ensures_setOperand?.bind
  intro first middle hfirst
  cases first with
  | none => exact .pure (by simp)
  | some first =>
    obtain ⟨hsound, -, hstarts⟩ := hfirst first rfl
    apply (htail.many middle).bind
    intro tails _ htails
    apply Ensures.pure
    rintro _ ⟨⟩
    have hfold (body : SetExpr) (hbody : (Node.setExpr body).IsSound) :
        (Node.setExpr (tails.foldl SetTail.attach body)).IsSound ∧
          (tails.foldl SetTail.attach body).startsWithSelect = body.startsWithSelect := by
      induction tails generalizing body with
      | nil => exact ⟨hbody, rfl⟩
      | cons tail tails ih =>
        obtain ⟨hright, hoperand⟩ := htails tail List.mem_cons_self
        apply ih (fun other hother => htails other (List.mem_cons_of_mem tail hother))
        have hlocal : (Node.setExpr (tail.attach body)).IsLocallySound := hoperand
        refine Node.isSound_iff.mpr ⟨hlocal, ?_⟩
        simpa [SetTail.attach, Node.children, Node.ofSetExpr] using And.intro hbody hright
    obtain ⟨hwhole, hsame⟩ := hfold first hsound
    rw [hsame]
    exact ⟨hwhole, hstarts⟩

theorem ensures_queryBody? :
    nested.queryBody?.Ensures cursor fun value _ =>
      ∀ query ∈ value, (Node.query query).IsSound ∧
        (query.startsWithWord = false → cursor.sees "(" = true) := by
  apply h.ensures_commonTables?.bind
  rintro common middle ⟨hcommon, hnone⟩
  apply h.ensures_setExpr?.bind
  intro body last hbody
  cases body with
  | none => exact .ite (fun _ => ensures_expected _) fun _ => .pure (by simp)
  | some body =>
    obtain ⟨hbody, hstarts⟩ := hbody body rfl
    apply h.ensures_rowOrder?.bind
    intro order after horder
    apply Ensures.pure
    rintro _ ⟨⟩
    have hlocal : Query.IsLocallySound { common, body, order } :=
      ⟨fun inner hinner => (hcommon inner hinner).1, fun inner hinner => (horder.1 inner hinner).1.1⟩
    have hchildren : ∀ child ∈ Node.ofCommonTables common, child.IsSound := by
      cases common with
      | none => simp [Node.ofCommonTables]
      | some common =>
        simp only [Node.ofCommonTables, List.forall_mem_map]
        exact (hcommon common rfl).2
    refine ⟨Node.isSound_iff.mpr ⟨hlocal, ?_⟩, ?_⟩
    · simp only [Node.children, List.forall_mem_append, List.forall_mem_singleton]
      exact ⟨⟨hchildren, hbody⟩, Node.forall_ofRowOrder fun inner hinner => (horder.1 inner hinner).1.2⟩
    · intro hword
      simp only [Query.startsWithWord, Bool.or_eq_false_iff, Option.isSome_eq_false_iff,
        Option.isNone_iff_eq_none] at hword
      rw [← hnone hword.1]
      exact hstarts hword.2

end Bodies

section Levels

omit h in
/-- Before a closing parenthesis, a query in parentheses is a whole query. -/
theorem queryBody?_of_parenQuery? {query : Query} {after : Cursor} (hparen : cursor.sees "(" = true)
    (hrun : nested.parenQuery? cursor = .ok (some query) after) (hclose : after.sees ")" = true) :
    nested.queryBody? cursor = .ok (some { common := none, body := .paren query, order := none }) after := by
  have hfree : ¬after.IsBlocked := by
    intro hblocked
    have hsees : after.sees ")" = false := hblocked.sees_eq_false (by decide)
    rw [hclose] at hsees
    cases hsees
  have hcommon : nested.commonTables?.Declines cursor :=
    bind_of_ok (skip_of_not (Cursor.sees_eq_false hparen (by decide)))
  have hselect : nested.select?.Declines cursor :=
    bind_of_ok (skip_of_not (Cursor.sees_eq_false hparen (by decide)))
  have hoperand : nested.setOperand? cursor = .ok (some (.paren query)) after := by
    unfold setOperand?
    rw [bind_of_ok hselect]
    exact bind_of_ok hrun
  have hset : nested.setExpr? cursor = .ok (some (.paren query)) after := by
    unfold setExpr?
    rw [bind_of_ok hoperand]
    exact bind_of_ok (setTail?_declines nested hfree).many
  unfold queryBody?
  rw [bind_of_ok hcommon, bind_of_ok hset]
  exact bind_of_ok (rowOrder?_declines nested hfree)

omit h in
theorem sees_of_parenQuery? {query : Query} {after : Cursor}
    (hrun : nested.parenQuery? cursor = .ok (some query) after) : cursor.sees "(" = true := by
  cases hsees : cursor.sees "(" with
  | true => rfl
  | false =>
    unfold parenQuery? at hrun
    rw [bind_of_ok (sees_apply _ _), hsees] at hrun
    cases hrun

end Levels

end Nested.IsSound

/-- How deep an expression stands says nothing about what is next there. -/
theorem isRead_ascend {level : Nat} {cursor after : Cursor} {expr : Expr}
    (h : expr.IsRead level { cursor with depth := cursor.depth + 1 } after) :
    expr.IsRead level cursor { after with depth := after.depth - 1 } :=
  ⟨h.toIsOperand, h.opening, h.window⟩

/-- The rules of every level are sound, by induction on the levels that are left. -/
theorem isSound_nestedAt (levels : Nat) : (nestedAt levels).IsSound := by
  induction levels with
  | zero =>
    exact {
      expr? := fun _ => ensures_tooDeep
      notOperand := fun _ => ensures_tooDeep
      signOperand := fun _ => ensures_tooDeep
      query? := fun _ => ensures_tooDeep
      subquery := by
        intro cursor query after _ hrun
        cases hrun
      type? := gives_typeAt? 0
      fields := gives_fieldsAt 0 }
  | succ levels ih =>
    exact {
      expr? := fun cursor => (ih.readsLevel_or? _).descend fun _ _ hvalue expr hexpr =>
        isRead_ascend (hvalue expr hexpr).toIsRead
      notOperand := fun cursor => by
        apply Ensures.descend
        · exact (ih.readsLevel_not? _).require fun expr _ hexpr => hexpr expr rfl
        · exact fun _ _ hexpr => isRead_ascend hexpr.toIsRead
      signOperand := fun cursor => by
        apply Ensures.descend
        · exact (ih.readsLevel_unary? _).require fun expr _ hexpr => hexpr expr rfl
        · exact fun _ _ hexpr => isRead_ascend hexpr.toIsRead
      query? := fun cursor => by
        have hattempt : (attempt (nestedAt levels).queryBody?).Ensures
            { cursor with depth := cursor.depth + 1 } fun value _ => ∀ query ∈ value,
              (Node.query query).IsSound ∧ (query.startsWithWord = false → cursor.sees "(" = true) :=
          ih.ensures_queryBody?.attempt (fun _ _ hquery => hquery) fun _ _ => by simp
        exact hattempt.descend fun _ _ hquery => hquery
      subquery := by
        intro cursor query after hclean hrun hclose
        unfold nestedAt at hrun ⊢
        dsimp only at hrun ⊢
        unfold Rule.descend at hrun ⊢
        split at hrun
        · cases hrun
        · rename_i hdepth
          rw [if_neg hdepth]
          split at hrun
          · rename_i value last hor
            cases hrun
            have hlevel := (ih.readsLevel_or? _ hclean.descend _ _ hor).2 _ rfl
            have hparen := hlevel.subquery query rfl
            have hsees := Nested.IsSound.sees_of_parenQuery? hparen
            have hbody := Nested.IsSound.queryBody?_of_parenQuery? hsees hparen hclose
            refine ⟨hsees, { common := none, body := .paren query, order := none }, ?_⟩
            rw [attempt_apply, hbody]
          · cases hrun
      type? := gives_typeAt? _
      fields := gives_fieldsAt _ }

end SqlLayout.Grammar
