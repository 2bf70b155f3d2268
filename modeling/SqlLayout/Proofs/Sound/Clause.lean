import SqlLayout.Grammar.Primary
import SqlLayout.Proofs.Sound.Type

/-!
# Clauses Are Sound

Sort keys, limits and windows hold expressions, so what is known of the rules that may be nested is
assumed here. An expression that was read also says where: it starts with what was next before it, and
if it could take a window, none is next after it.
-/

namespace SqlLayout

open Rule

/-- An expression that was read from one cursor to another. -/
structure Expr.IsRead (level : Nat) (cursor : Cursor) (expr : Expr) (after : Cursor) : Prop
    extends expr.IsOperand level where
  opening : ∀ word isCall, expr.opening? = some (word, isCall) → cursor.StartsWith word isCall
  window : expr.takesWindow = true → after.sees "OVER" = false

namespace Grammar

/-- What the rules that may be nested give. -/
structure Nested.IsSound (nested : Nested) : Prop where
  expr? : ∀ cursor, nested.expr?.Ensures cursor fun value after =>
    ∀ expr ∈ value, expr.IsRead 1 cursor after
  notOperand : ∀ cursor, nested.notOperand.Ensures cursor fun expr after => expr.IsRead 3 cursor after
  signOperand : ∀ cursor, nested.signOperand.Ensures cursor fun expr after =>
    expr.IsRead 11 cursor after
  query? : ∀ cursor, nested.query?.Ensures cursor fun value _ =>
    ∀ query ∈ value, (Node.query query).IsSound ∧
      (query.startsWithWord = false → cursor.sees "(" = true)
  /-- A subquery before a closing parenthesis could have been read as a query. -/
  subquery : ∀ cursor query after, cursor.IsClean →
    nested.expr? cursor = .ok (some (.subquery query)) after → after.sees ")" = true →
    cursor.sees "(" = true ∧ ∃ whole, nested.query? cursor = .ok (some whole) after
  type? : nested.type?.Gives fun value => ∀ type ∈ value, type.IsSound
  fields : nested.fields.Gives fieldsAreSound

/-- An aggregate with a window has modifiers that leave it to the aggregate. -/
theorem leavesWindow_of_ends {operand : Bool} {nulls : Option NullHandling} {order : Option RowOrder}
    {first second third : Cursor} (hoperand : operand = true → first.sees "OVER" = false)
    (hnulls : nulls = none → second = first)
    (horder : ∀ inner ∈ order, inner.takesWindow = true → third.sees "OVER" = false)
    (hnone : order = none → third = second) (hsees : third.sees "OVER" = true) :
    leavesWindow operand nulls order := by
  cases order with
  | some order =>
    cases htakes : order.takesWindow with
    | false => simp [leavesWindow, htakes]
    | true =>
      rw [horder order rfl htakes] at hsees
      cases hsees
  | none =>
    cases nulls with
    | some nulls => rfl
    | none =>
      rw [hnone rfl, hnulls rfl] at hsees
      cases operand with
      | false => rfl
      | true =>
        rw [hoperand rfl] at hsees
        cases hsees

namespace Nested.IsSound

variable {nested : Nested} {cursor : Cursor} (h : nested.IsSound)

include h

theorem ensures_expr : nested.expr.Ensures cursor fun expr after => expr.IsRead 1 cursor after :=
  (h.expr? cursor).require fun expr _ hexpr => hexpr expr rfl

theorem gives_expr : nested.expr.Gives fun expr => expr.IsOperand 1 :=
  fun _ => h.ensures_expr.mono fun _ _ hexpr => hexpr.toIsOperand

theorem gives_type : nested.type.Gives SqlType.IsSound :=
  h.type?.require _

theorem ensures_queryHere? :
    nested.queryHere?.Ensures cursor fun value _ =>
      ∀ query ∈ value, (Node.query query).IsSound ∧
        (query.startsWithWord = false → cursor.sees "(" = true) := by
  apply (ensures_ask (·.seesAny queryStarts)).bind
  rintro _ _ ⟨rfl, rfl⟩
  exact .ite (fun _ => h.query? cursor) fun _ => .pure (by simp)

theorem gives_queryHere? : nested.queryHere?.Gives fun value => ∀ query ∈ value, (Node.query query).IsSound :=
  fun _ => h.ensures_queryHere?.mono fun _ _ hvalue query hquery => (hvalue query hquery).1

theorem ensures_closedQuery :
    nested.closedQuery.Ensures cursor fun query _ =>
      (Node.query query).IsSound ∧ (query.startsWithWord = false → cursor.sees "(" = true) := by
  have hquery : nested.query.Ensures cursor fun query _ =>
      (Node.query query).IsSound ∧ (query.startsWithWord = false → cursor.sees "(" = true) :=
    h.ensures_queryHere?.require fun query _ hquery => hquery query rfl
  apply hquery.bind
  intro query _ hquery
  apply Ensures.expect
  intro _
  exact .pure hquery

theorem gives_closedQuery : nested.closedQuery.Gives fun query => (Node.query query).IsSound :=
  fun _ => h.ensures_closedQuery.mono fun _ _ hquery => hquery.1

theorem gives_enclosedQuery? :
    nested.enclosedQuery?.Gives fun value => ∀ query ∈ value, (Node.query query).IsSound := by
  apply isQuiet_bump.discard.gives_bind
  intro _
  apply h.gives_queryHere?.bind
  intro query hquery
  cases query with
  | none => exact .pure (by simp)
  | some query =>
    apply (isQuiet_skip ")").gives_bind
    intro isClosed
    cases isClosed with
    | false => exact .pure (by simp)
    | true => exact .pure (by simpa using hquery)

theorem gives_parenQuery? :
    nested.parenQuery?.Gives fun value => ∀ query ∈ value, (Node.query query).IsSound := by
  apply (isQuiet_sees "(").gives_bind
  intro _
  apply Gives.ite
  · intro _ cursor
    have hrule := h.gives_enclosedQuery?
    exact (hrule.attempt cursor).once ((hrule cursor).mono fun _ _ _ => trivial)
  · intro _
    exact .pure (by simp)

theorem gives_closedExpr : nested.closedExpr.Gives fun expr => expr.IsOperand 1 := by
  apply h.gives_expr.bind
  intro expr hexpr
  apply (isQuiet_expect ")").discard.gives_bind
  intro _
  exact .pure hexpr

/-- An expression after a keyword ends where the cursor stands. -/
theorem ensures_exprAfter? (keyword : String) :
    (nested.exprAfter? keyword).Ensures cursor fun value after =>
      (∀ expr ∈ value, expr.IsOperand 1 ∧ (expr.takesWindow = true → after.sees "OVER" = false)) ∧
        (value = none → after = cursor) := by
  apply Ensures.skip
  · intro _
    apply h.ensures_expr.bind
    intro expr after hexpr
    refine .pure ⟨?_, by simp⟩
    rintro _ ⟨⟩
    exact ⟨hexpr.toIsOperand, hexpr.window⟩
  · intro _
    exact .pure ⟨by simp, fun _ => rfl⟩

theorem gives_exprAfter? (keyword : String) :
    (nested.exprAfter? keyword).Gives fun value => ∀ expr ∈ value, expr.IsOperand 1 :=
  fun _ => (h.ensures_exprAfter? keyword).mono fun _ _ hvalue expr hexpr => (hvalue.1 expr hexpr).1

theorem ensures_sortKey? :
    nested.sortKey?.Ensures cursor fun value after =>
      ∀ key ∈ value, (key.IsSound ∧ (Node.expr key.expr).IsSound) ∧
        (key.takesWindow = true → after.sees "OVER" = false) := by
  apply (h.expr? cursor).bind
  intro expr after hexpr
  cases expr with
  | none => exact .pure (by simp)
  | some expr =>
    have hexpr := hexpr expr rfl
    apply ensures_direction?.bind
    intro direction middle hdirection
    apply ensures_nullsOrder?.bind
    intro nulls last hnulls
    apply Ensures.pure
    rintro key ⟨⟩
    refine ⟨⟨⟨hexpr.level_le⟩, hexpr.sound⟩, ?_⟩
    intro htakes
    simp only [SortKey.takesWindow, Bool.and_eq_true, Option.isNone_iff_eq_none] at htakes
    rw [hnulls htakes.1.2, hdirection htakes.1.1]
    exact hexpr.window htakes.2

theorem ensures_orderBy :
    nested.orderBy.Ensures cursor fun keys after =>
      (∀ key ∈ keys, key.IsSound ∧ (Node.expr key.expr).IsSound) ∧ (keys = [] → after = cursor) ∧
        (keys.getLast?.any SortKey.takesWindow = true → after.sees "OVER" = false) := by
  apply Ensures.skip
  · intro _
    apply Ensures.expect
    intro _
    have hkey (cursor : Cursor) : (require "a sort key" nested.sortKey?).Ensures cursor fun key after =>
        (key.IsSound ∧ (Node.expr key.expr).IsSound) ∧
          (key.takesWindow = true → after.sees "OVER" = false) :=
      h.ensures_sortKey?.require fun key _ hkey => hkey key rfl
    apply (Ensures.commaSeparated (fun cursor => (hkey cursor).mono fun _ _ hvalue => hvalue.1)
      fun cursor => (hkey cursor).mono fun _ _ hvalue => hvalue.2).mono
    rintro keys after ⟨hkeys, last, hlast, hwindow⟩
    refine ⟨hkeys, ?_, ?_⟩
    · rintro rfl
      cases hlast
    · rw [hlast]
      exact hwindow
  · intro _
    exact .pure ⟨by simp, fun _ => rfl, by simp⟩


theorem ensures_rowOrder? :
    nested.rowOrder?.Ensures cursor fun value after =>
      (∀ order ∈ value, (order.IsSound ∧ ∀ child ∈ Node.ofRowOrder (some order), child.IsSound) ∧
        (order.takesWindow = true → after.sees "OVER" = false)) ∧ (value = none → after = cursor) := by
  apply h.ensures_orderBy.bind
  intro keys middle hkeys
  obtain ⟨hkeys, hempty, hwindow⟩ := hkeys
  have hsorted : ∀ child ∈ Node.sortKeys keys, child.IsSound := by
    simp only [Node.sortKeys, List.forall_mem_map]
    exact fun key hkey => (hkeys key hkey).2
  apply (h.ensures_exprAfter? "LIMIT").bind
  intro limit after hlimit
  cases limit with
  | none =>
    obtain rfl := hlimit.2 rfl
    cases keys with
    | nil =>
      refine .pure ⟨by simp, fun _ => hempty rfl⟩
    | cons key keys =>
      refine .pure ⟨?_, by simp⟩
      rintro order ⟨⟩
      refine ⟨⟨⟨fun key hkey => (hkeys key hkey).1, by simp, by simp, .inl (by simp), by simp⟩, ?_⟩,
        hwindow⟩
      simpa [Node.ofRowOrder, Node.exprs] using hsorted
  | some limit =>
    obtain ⟨hlimit, hends⟩ := hlimit.1 limit rfl
    apply (h.ensures_exprAfter? "OFFSET").bind
    intro offset last hoffset
    refine .pure ⟨?_, by simp⟩
    rintro order ⟨⟩
    refine ⟨⟨⟨fun key hkey => (hkeys key hkey).1, by simpa using hlimit.level_le,
      fun offset hmem => (hoffset.1 offset hmem).1.level_le, .inr rfl, fun _ => rfl⟩, ?_⟩, ?_⟩
    · simp only [Node.ofRowOrder, Node.exprs, List.forall_mem_append, List.forall_mem_map,
        Option.mem_toList]
      refine ⟨⟨hsorted, ?_⟩, fun offset hmem => (hoffset.1 offset hmem).1.sound⟩
      rintro _ ⟨⟩
      exact hlimit.sound
    · intro htakes
      cases offset with
      | none =>
        rw [hoffset.2 rfl]
        exact hends htakes
      | some offset => exact (hoffset.1 offset rfl).2 htakes

theorem gives_partitionBy : nested.partitionBy.Gives fun items => ∀ item ∈ items, item.IsOperand 1 := by
  apply (isQuiet_skip "PARTITION").gives_bind
  intro _
  apply Gives.ite
  · intro _
    apply (isQuiet_expect "BY").discard.gives_bind
    intro _
    exact h.gives_expr.commaSeparated.mono fun _ hitems => hitems.2
  · intro _
    exact .pure (by simp)

theorem ensures_window? :
    nested.window?.Ensures cursor fun value after =>
      (∀ window ∈ value, (window.IsSound ∧ ∀ child ∈ Node.ofWindow (some window), child.IsSound) ∧
        cursor.sees "OVER" = true) ∧
        (value = none → after = cursor ∧ cursor.sees "OVER" = false) := by
  apply Ensures.skip
  · intro hsees
    apply Ensures.expect
    intro _
    apply (h.gives_partitionBy _).bind
    intro partition after hpartition
    apply h.ensures_orderBy.bind
    intro order middle horder
    apply (gives_frame? middle).bind
    intro frame last hframe
    apply Ensures.expect
    intro _
    refine .pure ⟨?_, by simp⟩
    rintro window ⟨⟩
    refine ⟨⟨⟨fun item hitem => (hpartition item hitem).level_le, fun key hkey => (horder.1 key hkey).1,
      hframe⟩, ?_⟩, hsees⟩
    simp only [Node.ofWindow, Node.exprs, Node.sortKeys, List.forall_mem_append, List.forall_mem_map]
    exact ⟨fun item hitem => (hpartition item hitem).sound, fun key hkey => (horder.1 key hkey).2⟩
  · intro hsees
    exact .pure ⟨by simp, fun _ => ⟨rfl, hsees⟩⟩

end Nested.IsSound

end Grammar

end SqlLayout
