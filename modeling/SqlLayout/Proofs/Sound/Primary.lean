import SqlLayout.Grammar.Primary
import SqlLayout.Proofs.Sound.Clause

/-!
# Primary Expressions Are Sound

The alternatives for a primary expression are tried in order, so that a name comes last, and a call is
never one of the forms with a syntax of their own. What may stand after some of them tells whether they
are complete: a name has no further segment, and an aggregate that may have a subscript has none left.
-/

namespace SqlLayout

open Rule

theorem Expr.isSound_of {expr : Expr} (hlocal : expr.IsLocallySound) (hlevel : expr.BindsByLevel)
    (hchildren : ∀ child ∈ Node.ofExpr expr, child.IsSound) : (Node.expr expr).IsSound :=
  Node.isSound_iff.mpr ⟨⟨hlocal, hlevel⟩, hchildren⟩

section Children

variable {motive : Node → Prop}

theorem Node.forall_exprs {items : List Expr} (h : ∀ item ∈ items, motive (.expr item)) :
    ∀ child ∈ exprs items, motive child :=
  List.forall_mem_map.mpr h

theorem Node.forall_optional {item : Option Expr} (h : ∀ inner ∈ item, motive (.expr inner)) :
    ∀ child ∈ exprs item.toList, motive child := by
  cases item with
  | none => simp [exprs]
  | some item => simpa [exprs] using h

theorem Node.forall_ofRowOrder {order : Option RowOrder}
    (h : ∀ inner ∈ order, ∀ child ∈ ofRowOrder (some inner), motive child) :
    ∀ child ∈ ofRowOrder order, motive child := by
  cases order with
  | none => simp [ofRowOrder]
  | some order => exact h order rfl

theorem Node.forall_ofWindow {window : Option Window}
    (h : ∀ inner ∈ window, ∀ child ∈ ofWindow (some inner), motive child) :
    ∀ child ∈ ofWindow window, motive child := by
  cases window with
  | none => simp [ofWindow]
  | some window => exact h window rfl

theorem Node.forall_ofAccessor {accessor : Option Accessor}
    (h : ∀ inner ∈ accessor, motive (.expr inner.position)) :
    ∀ child ∈ ofAccessor accessor, motive child := by
  cases accessor with
  | none => simp [ofAccessor]
  | some accessor => simpa [ofAccessor] using h

end Children

/-- Whether an expression is primary, starts with no name and is not one that depends on what is after
it. -/
def Expr.isPlain (expr : Expr) : Bool :=
  expr.isPrimary && expr.opening?.isNone && !expr.isSubquery && !expr.isName
    && !expr.isOpenStringAgg && !expr.isOpenArrayAgg

namespace Grammar

/-- What stands after a base is no more of it. -/
structure Nested.IsComplete (nested : Nested) (cursor : Cursor) (expr : Expr) (after : Cursor) :
    Prop where
  opening : ∀ word isCall, expr.opening? = some (word, isCall) → cursor.StartsWith word isCall
  subquery : ∀ query, expr = .subquery query → nested.parenQuery? cursor = .ok (some query) after
  name : expr.isName = true → dotSegment? after = .ok none after
  string : expr.isOpenStringAgg = true → after.sees "[" = false
  array : expr.isOpenArrayAgg = true → after.seesAll ["[", "OFFSET"] = false

/-- A primary expression before its window. -/
structure Nested.IsFound (nested : Nested) (cursor : Cursor) (expr : Expr) (after : Cursor) : Prop
    extends expr.IsOperand 12, nested.IsComplete cursor expr after where
  primary : expr.isPrimary = true

/-- A primary expression with a syntax of its own, which is no name. -/
structure Nested.IsOwnForm (nested : Nested) (cursor : Cursor) (expr : Expr) (after : Cursor) : Prop
    extends nested.IsFound cursor expr after where
  form : expr.isName = false

/-- A primary expression with its subscripts so far. -/
structure Nested.IsBase (nested : Nested) (cursor : Cursor) (expr : Expr) (after : Cursor) : Prop
    extends expr.IsRead 12 cursor after, nested.IsComplete cursor expr after

theorem Nested.IsOwnForm.of_isPlain {nested : Nested} {cursor after : Cursor} {expr : Expr}
    (h : expr.IsOperand 12) (hplain : expr.isPlain = true) : nested.IsOwnForm cursor expr after := by
  simp only [Expr.isPlain, Bool.and_eq_true, Option.isNone_iff_eq_none, Bool.not_eq_true'] at hplain
  obtain ⟨⟨⟨⟨⟨hprimary, hopening⟩, hsubquery⟩, hname⟩, hstring⟩, harray⟩ := hplain
  refine { h with
    primary := hprimary
    form := hname
    opening := by simp [hopening]
    subquery := ?_
    name := by simp [hname]
    string := by simp [hstring]
    array := by simp [harray] }
  rintro query rfl
  cases hsubquery

namespace Nested.IsSound

variable {nested : Nested} {cursor : Cursor} (h : nested.IsSound)

include h

section Aggregates

theorem gives_arrayHead? :
    nested.arrayHead?.Gives fun value => ∀ head ∈ value, ∀ type ∈ head, type.IsSound := by
  apply (isQuiet_skipAll _).gives_bind
  intro _
  apply Gives.ite
  · intro _
    apply h.gives_type.bind
    intro type htype
    apply (isQuiet_expect ">").discard.gives_bind
    intro _
    apply (isQuiet_expect "[").discard.gives_bind
    intro _
    exact .pure (by simpa using htype)
  intro _
  apply (isQuiet_skipAll _).gives_bind
  intro _
  apply Gives.ite fun _ => .pure (by simp)
  intro _
  apply (isQuiet_skip "[").gives_bind
  intro _
  exact .ite (fun _ => .pure (by simp)) fun _ => .pure (by simp)

theorem gives_array? :
    nested.array?.Gives fun value => ∀ expr ∈ value, expr.IsOperand 12 ∧ expr.isPlain = true := by
  have harray {type : Option SqlType} {items : List Expr} (htype : ∀ inner ∈ type, inner.IsSound)
      (hitems : ∀ item ∈ items, item.IsOperand 1) : (Expr.array type items).IsOperand 12 := by
    refine ⟨Expr.isSound_of ⟨htype, fun item hitem => (hitems item hitem).level_le⟩ trivial ?_,
      Nat.le_refl _⟩
    simpa [Node.ofExpr, Node.exprs] using fun item hitem => (hitems item hitem).sound
  apply h.gives_arrayHead?.bind
  intro head hhead
  cases head with
  | none => exact .pure (by simp)
  | some type =>
    apply (isQuiet_skip "]").gives_bind
    intro _
    apply Gives.ite
    · intro _
      apply Gives.pure
      rintro expr ⟨⟩
      exact ⟨harray (hhead type rfl) (by simp), rfl⟩
    · intro _
      apply h.gives_expr.commaSeparated.bind
      intro items hitems
      apply (isQuiet_expect "]").discard.gives_bind
      intro _
      apply Gives.pure
      rintro expr ⟨⟩
      exact ⟨harray (hhead type rfl) hitems.2, rfl⟩

theorem ensures_aggOffset? :
    nested.aggOffset?.Ensures cursor fun value after =>
      (∀ expr ∈ value, expr.IsOperand 1) ∧
        (value = none → after.seesAll ["[", "OFFSET"] = false) := by
  apply Ensures.skipAll (by simp)
  · intro _
    apply Ensures.expect
    intro _
    apply (h.gives_closedExpr _).bind
    intro position _ hposition
    apply Ensures.expect
    intro _
    exact .pure (by simpa using hposition)
  · intro hsees
    exact .pure ⟨by simp, fun _ => hsees⟩

theorem ensures_arrayAgg? :
    nested.arrayAgg?.Ensures cursor fun value after =>
      (∀ expr ∈ value, nested.IsOwnForm cursor expr after) ∧
        (value = none → cursor.seesAll ["ARRAY_AGG", "("] = false) := by
  apply Ensures.skipAll (by simp)
  · intro _
    apply (isQuiet_skip "DISTINCT").gives _ |>.bind
    intro distinct start _
    apply h.ensures_expr.bind
    intro operand first hoperand
    apply ensures_nullHandling?.bind
    intro nulls second hnulls
    apply h.ensures_rowOrder?.bind
    intro order third horder
    apply h.ensures_window?.bind
    intro window fourth hwindow
    apply Ensures.expect
    intro _
    apply h.ensures_aggOffset?.bind
    intro offset last hoffset
    refine .pure ⟨?_, by simp⟩
    rintro expr ⟨⟩
    have hleaves : window.isSome → leavesWindow operand.takesWindow nulls order := by
      intro hsome
      obtain ⟨inner, rfl⟩ := Option.isSome_iff_exists.mp hsome
      exact leavesWindow_of_ends hoperand.window hnulls (fun inner hinner => (horder.1 inner hinner).2)
        horder.2 (hwindow.1 inner rfl).2
    refine {
      level_le := Nat.le_refl _
      sound := ?_
      primary := rfl
      form := rfl
      opening := by simp [Expr.opening?]
      subquery := by simp
      name := by simp [Expr.isName]
      string := by simp [Expr.isOpenStringAgg]
      array := ?_ }
    · apply Expr.isSound_of
      · exact ⟨hoperand.level_le, fun inner hinner => (horder.1 inner hinner).1.1,
          fun inner hinner => (hwindow.1 inner hinner).1.1,
          fun inner hinner => (hoffset.1 inner hinner).level_le, hleaves⟩
      · trivial
      · simp only [Node.ofExpr, List.forall_mem_append, List.forall_mem_singleton]
        exact ⟨⟨⟨hoperand.sound, Node.forall_ofRowOrder fun inner hinner => (horder.1 inner hinner).1.2⟩,
          Node.forall_ofWindow fun inner hinner => (hwindow.1 inner hinner).1.2⟩,
          Node.forall_optional fun inner hinner => (hoffset.1 inner hinner).sound⟩
    · intro hopen
      exact hoffset.2 (by simpa [Expr.isOpenArrayAgg] using hopen)
  · intro hsees
    exact .pure ⟨by simp, fun _ => hsees⟩

theorem ensures_accessor? :
    nested.accessor?.Ensures cursor fun value after =>
      (∀ accessor ∈ value, accessor.IsSound ∧ (Node.expr accessor.position).IsSound) ∧
        (value = none → after.sees "[" = false) := by
  have hrest (accessor : Accessor) (cursor : Cursor)
      (haccessor : accessor.IsSound ∧ (Node.expr accessor.position).IsSound) :
      Ensures (do discard <| expect "]"; return some accessor) cursor fun value after =>
        (∀ accessor ∈ value, accessor.IsSound ∧ (Node.expr accessor.position).IsSound) ∧
          (value = none → after.sees "[" = false) := by
    apply Ensures.expect
    intro _
    exact .pure (by simpa using haccessor)
  apply Ensures.skip
  · intro _
    apply (ensures_ask (·.seesAt 1 "(")).bind
    rintro _ _ ⟨rfl, rfl⟩
    apply Ensures.ite
    · intro _
      apply (gives_segment? _).bind
      intro name _ hname
      apply Ensures.expect
      intro _
      apply (h.gives_closedExpr _).bind
      intro position after hposition
      exact hrest _ after ⟨⟨hname, hposition.level_le⟩, hposition.sound⟩
    · intro _
      apply (h.gives_expr _).bind
      intro position after hposition
      exact hrest _ after ⟨⟨by simp, hposition.level_le⟩, hposition.sound⟩
  · intro hsees
    exact .pure ⟨by simp, fun _ => hsees⟩

omit h in
theorem ensures_stringFunction? :
    stringFunction?.Ensures cursor fun value _ =>
      value = none → cursor.seesAll ["STRING_AGG", "("] = false ∧ cursor.seesAll ["SPLIT", "("] = false := by
  apply Ensures.skipAll (by simp)
  · intro _
    exact .pure (by simp)
  · intro hstring
    apply Ensures.skipAll (by simp)
    · intro _
      exact .pure (by simp)
    · intro hsplit
      exact .pure fun _ => ⟨hstring, hsplit⟩

theorem ensures_stringAgg? :
    nested.stringAgg?.Ensures cursor fun value after =>
      (∀ expr ∈ value, nested.IsOwnForm cursor expr after) ∧
        (value = none → cursor.seesAll ["STRING_AGG", "("] = false ∧
          cursor.seesAll ["SPLIT", "("] = false) := by
  apply (ensures_stringFunction?).bind
  intro function start hfunction
  cases function with
  | none => exact .pure ⟨by simp, fun _ => hfunction rfl⟩
  | some function =>
    apply (isQuiet_skip "DISTINCT").gives _ |>.bind
    intro distinct start _
    apply h.ensures_expr.bind
    intro operand first hoperand
    have hrest (delimiter : Option Constant) (first : Cursor)
        (hdelimiter : ∀ inner ∈ delimiter, inner.IsSound)
        (hends : (delimiter.isNone && operand.takesWindow) = true → first.sees "OVER" = false) :
        Ensures (do
          let nulls ← nullHandling?
          let order ← nested.rowOrder?
          let window ← nested.window?
          discard <| expect ")"
          let accessor ← nested.accessor?
          return some (.stringAgg function distinct operand delimiter nulls order window accessor))
          first fun value after => (∀ expr ∈ value, nested.IsOwnForm cursor expr after) ∧
            (value = none → cursor.seesAll ["STRING_AGG", "("] = false ∧
              cursor.seesAll ["SPLIT", "("] = false) := by
      apply ensures_nullHandling?.bind
      intro nulls second hnulls
      apply h.ensures_rowOrder?.bind
      intro order third horder
      apply h.ensures_window?.bind
      intro window fourth hwindow
      apply Ensures.expect
      intro _
      apply h.ensures_accessor?.bind
      intro accessor last haccessor
      refine .pure ⟨?_, by simp⟩
      rintro expr ⟨⟩
      have hleaves : window.isSome →
          leavesWindow (delimiter.isNone && operand.takesWindow) nulls order := by
        intro hsome
        obtain ⟨inner, rfl⟩ := Option.isSome_iff_exists.mp hsome
        exact leavesWindow_of_ends hends hnulls (fun inner hinner => (horder.1 inner hinner).2)
          horder.2 (hwindow.1 inner rfl).2
      refine {
        level_le := Nat.le_refl _
        sound := ?_
        primary := rfl
        form := rfl
        opening := by simp [Expr.opening?]
        subquery := by simp
        name := by simp [Expr.isName]
        string := ?_
        array := by simp [Expr.isOpenArrayAgg] }
      · apply Expr.isSound_of
        · exact ⟨hoperand.level_le, hdelimiter, fun inner hinner => (horder.1 inner hinner).1.1,
            fun inner hinner => (hwindow.1 inner hinner).1.1,
            fun inner hinner => (haccessor.1 inner hinner).1, hleaves⟩
        · trivial
        · simp only [Node.ofExpr, List.forall_mem_append, List.forall_mem_singleton]
          exact ⟨⟨⟨hoperand.sound, Node.forall_ofRowOrder fun inner hinner => (horder.1 inner hinner).1.2⟩,
            Node.forall_ofWindow fun inner hinner => (hwindow.1 inner hinner).1.2⟩,
            Node.forall_ofAccessor fun inner hinner => (haccessor.1 inner hinner).2⟩
      · intro hopen
        exact haccessor.2 (by simpa [Expr.isOpenStringAgg] using hopen)
    apply Ensures.skip
    · intro _
      rw [map_eq_bind, bind_assoc]
      apply (gives_constant _).bind
      intro delimiter first hdelimiter
      exact hrest _ _ (by simpa using hdelimiter) (by simp)
    · intro _
      exact hrest _ _ (by simp) (by simpa using hoperand.window)

end Aggregates

section Forms

theorem gives_arrayQuery? :
    nested.arrayQuery?.Gives fun value => ∀ expr ∈ value, expr.IsOperand 12 ∧ expr.isPlain = true := by
  apply (isQuiet_skipAll _).gives_bind
  intro _
  apply Gives.ite
  · intro _
    apply h.gives_closedQuery.bind
    intro query hquery
    apply Gives.pure
    rintro expr ⟨⟩
    refine ⟨⟨Expr.isSound_of trivial trivial ?_, Nat.le_refl _⟩, rfl⟩
    simpa [Node.ofExpr] using hquery
  · intro _
    exact .pure (by simp)

/-- A subquery in parentheses would have been a query in parentheses. -/
theorem enclosedQuery?_of_subquery {query : Query} {after : Cursor} (hclean : cursor.IsClean)
    (hparen : cursor.sees "(" = true)
    (hrun : nested.expr? (cursor.advance 1) = .ok (some (.subquery query)) after)
    (hclose : after.sees ")" = true) :
    ∃ whole last, nested.enclosedQuery? cursor = .ok (some whole) last := by
  have hpasses := cursor.passes_advance 1
  obtain ⟨hsees, whole, hquery⟩ :=
    h.subquery (cursor.advance 1) query after (hclean.of_passes hpasses) hrun hclose
  have hstart : (cursor.advance 1).seesAny queryStarts = true :=
    List.any_eq_true.mpr ⟨"(", by decide, hsees⟩
  have hhere : nested.queryHere? (cursor.advance 1) = .ok (some whole) after := by
    unfold queryHere?
    rw [bind_of_ok (ask_apply _ _), hstart, if_pos rfl, hquery]
  refine ⟨whole, after.advance 1, ?_⟩
  unfold enclosedQuery?
  rw [bind_of_ok (discard_bump_of_sees hparen), bind_of_ok hhere]
  exact (bind_of_ok (skip_of_sees hclose)).trans rfl

/-- What stands between parentheses is read as it is without kept outcomes. -/
theorem parenQuery?_of_enclosedQuery? {whole : Query} {last : Cursor} (hclean : cursor.IsClean)
    (hparen : cursor.sees "(" = true)
    (hrun : nested.enclosedQuery? cursor = .ok (some whole) last) :
    nested.parenQuery? cursor = .ok (some whole) last := by
  have hkept : cursor.outcome? = none := by
    rw [Cursor.outcome?, hclean.outcomes_eq]
    rfl
  unfold parenQuery?
  rw [bind_of_ok (sees_apply _ _), hparen, if_pos rfl, once_of_not_keeps hkept, attempt_apply, hrun]
  intro value after hvalue
  exact (hclean.of_passes (h.gives_enclosedQuery? cursor hclean value after hvalue).1).keeps_eq

/-- A query in parentheses that is not there leaves the cursor where it was. -/
theorem ensures_parenQuery? :
    nested.parenQuery?.Ensures cursor fun value after =>
      (∀ query ∈ value, (Node.query query).IsSound) ∧ (value = none → after = cursor) := by
  apply (ensures_ask (·.sees "(")).bind
  rintro _ _ ⟨rfl, rfl⟩
  apply Ensures.ite
  · intro _
    have hrule := h.gives_enclosedQuery?
    apply Ensures.once
    · apply (hrule cursor).attempt
      · intro query after hquery
        exact ⟨hquery, by simp⟩
      · intro _ _
        exact ⟨by simp, fun _ => rfl⟩
    · exact (hrule cursor).mono fun _ _ _ => trivial
  · intro _
    exact .pure ⟨by simp, fun _ => rfl⟩

theorem ensures_parenExpr :
    nested.parenExpr.Ensures cursor fun expr after => nested.IsOwnForm cursor expr after := by
  apply Ensures.clean
  intro hclean
  apply h.ensures_parenQuery?.recall.bind
  rintro query middle ⟨⟨hquery, hnone⟩, hrun⟩
  cases query with
  | some query =>
    refine .pure {
      level_le := Nat.le_refl _
      sound := Expr.isSound_of trivial trivial (by simpa [Node.ofExpr] using hquery)
      primary := rfl
      form := rfl
      opening := by simp [Expr.opening?]
      subquery := ?_
      name := by simp [Expr.isName]
      string := by simp [Expr.isOpenStringAgg]
      array := by simp [Expr.isOpenArrayAgg] }
    rintro _ ⟨⟩
    exact hrun
  | none =>
    obtain rfl := hnone rfl
    apply Ensures.expect
    intro hparen
    have hinner : nested.closedExpr.Ensures (middle.advance 1) fun expr _ =>
        expr.IsOperand 1 ∧ expr.isSubquery = false := by
      have hexpr : nested.expr.Ensures (middle.advance 1) fun expr after =>
          expr.IsOperand 1 ∧ nested.expr? (middle.advance 1) = .ok (some expr) after := by
        apply (h.expr? _).recall.require
        rintro expr after ⟨hexpr, hrun⟩
        exact ⟨(hexpr expr rfl).toIsOperand, hrun⟩
      apply hexpr.bind
      rintro expr after ⟨hexpr, hrest⟩
      apply Ensures.expect
      intro hclose
      refine .pure ⟨hexpr, ?_⟩
      cases hsub : expr.isSubquery with
      | false => rfl
      | true =>
        cases expr with
        | subquery query =>
          obtain ⟨whole, last, hwhole⟩ := h.enclosedQuery?_of_subquery hclean hparen hrest hclose
          have hmatch := h.parenQuery?_of_enclosedQuery? hclean hparen hwhole
          rw [hmatch] at hrun
          cases hrun
        | _ => cases hsub
    apply hinner.bind
    intro inner after hinner
    refine .pure (.of_isPlain ⟨?_, Nat.le_refl _⟩ rfl)
    apply Expr.isSound_of
    · exact ⟨hinner.1.level_le, hinner.2⟩
    · trivial
    · simpa [Node.ofExpr] using hinner.1.sound

theorem gives_castExpr (safe : Bool) :
    (nested.castExpr safe).Gives fun expr => expr.IsOperand 12 ∧ expr.isPlain = true := by
  apply (isQuiet_expect "(").discard.gives_bind
  intro _
  apply h.gives_expr.bind
  intro operand hoperand
  apply (isQuiet_expect "AS").discard.gives_bind
  intro _
  apply h.gives_type.bind
  intro type htype
  apply (isQuiet_expect ")").discard.gives_bind
  intro _
  refine .pure ⟨⟨Expr.isSound_of ⟨hoperand.level_le, htype⟩ trivial ?_, Nat.le_refl _⟩, rfl⟩
  simpa [Node.ofExpr] using hoperand.sound

theorem gives_extractExpr :
    nested.extractExpr.Gives fun expr => expr.IsOperand 12 ∧ expr.isPlain = true := by
  apply (isQuiet_expect "(").discard.gives_bind
  intro _
  apply h.gives_expr.bind
  intro part hpart
  apply (isQuiet_expect "FROM").discard.gives_bind
  intro _
  apply h.gives_expr.bind
  intro operand hoperand
  apply (isQuiet_skipAll _).gives_bind
  intro _
  have hrest (zone : Option Expr) (hzone : ∀ inner ∈ zone, inner.IsOperand 1) :
      Gives (do discard <| expect ")"; return Expr.extract part operand zone)
        fun expr => expr.IsOperand 12 ∧ expr.isPlain = true := by
    apply (isQuiet_expect ")").discard.gives_bind
    intro _
    refine .pure ⟨⟨Expr.isSound_of ⟨hpart.level_le, hoperand.level_le,
      fun inner hinner => (hzone inner hinner).level_le⟩ trivial ?_, Nat.le_refl _⟩, rfl⟩
    simp only [Node.ofExpr, List.forall_mem_append, List.forall_mem_cons, List.not_mem_nil,
      IsEmpty.forall_iff, implies_true, and_true]
    exact ⟨⟨hpart.sound, hoperand.sound⟩, Node.forall_optional fun inner hinner => (hzone inner hinner).sound⟩
  apply Gives.ite
  · intro _
    rw [map_eq_bind, bind_assoc]
    apply h.gives_expr.bind
    intro zone hzone
    exact hrest _ (by simpa using hzone)
  · intro _
    exact hrest _ (by simp)

theorem gives_branch? :
    nested.branch?.Gives fun value => ∀ branch ∈ value, branch.IsSound ∧
      (Node.expr branch.condition).IsSound ∧ (Node.expr branch.result).IsSound := by
  apply (isQuiet_skip "WHEN").gives_bind
  intro _
  apply Gives.ite
  · intro _
    apply h.gives_expr.bind
    intro condition hcondition
    apply (isQuiet_expect "THEN").discard.gives_bind
    intro _
    apply h.gives_expr.bind
    intro result hresult
    apply Gives.pure
    rintro branch ⟨⟩
    exact ⟨⟨hcondition.level_le, hresult.level_le⟩, hcondition.sound, hresult.sound⟩
  · intro _
    exact .pure (by simp)

theorem gives_caseExpr :
    nested.caseExpr.Gives fun expr => expr.IsOperand 12 ∧ expr.isPlain = true := by
  have hrest (operand : Option Expr) (hoperand : ∀ inner ∈ operand, inner.IsOperand 1) :
      Gives (do
        let branches ← many nested.branch?
        if branches.isEmpty then return ← Rule.expected "\x60WHEN\x60"
        let otherwise ← nested.exprAfter? "ELSE"
        discard <| expect "END"
        return Expr.case operand branches otherwise)
        fun expr => expr.IsOperand 12 ∧ expr.isPlain = true := by
    apply h.gives_branch?.many.bind
    intro branches hbranches
    apply Gives.ite fun _ => gives_expected _
    intro hsome
    apply (h.gives_exprAfter? "ELSE").bind
    intro otherwise hotherwise
    apply (isQuiet_expect "END").discard.gives_bind
    intro _
    refine .pure ⟨⟨Expr.isSound_of ⟨fun inner hinner => (hoperand inner hinner).level_le,
      by simpa using hsome, fun branch hbranch => (hbranches branch hbranch).1,
      fun inner hinner => (hotherwise inner hinner).level_le⟩ trivial ?_, Nat.le_refl _⟩, rfl⟩
    simp only [Node.ofExpr, List.forall_mem_append]
    refine ⟨⟨Node.forall_optional fun inner hinner => (hoperand inner hinner).sound, ?_⟩,
      Node.forall_optional fun inner hinner => (hotherwise inner hinner).sound⟩
    intro child hchild
    obtain ⟨branch, hbranch, hchild⟩ := List.mem_flatMap.mp hchild
    simp only [List.mem_cons, List.not_mem_nil, or_false] at hchild
    rcases hchild with rfl | rfl
    · exact (hbranches branch hbranch).2.1
    · exact (hbranches branch hbranch).2.2
  apply (isQuiet_sees "WHEN").gives_bind
  intro _
  apply Gives.ite
  · intro _
    exact hrest none (by simp)
  · intro _
    rw [map_eq_bind, bind_assoc]
    apply h.gives_expr.bind
    intro operand hoperand
    exact hrest _ (by simpa using hoperand)

theorem gives_structExpr :
    nested.structExpr.Gives fun expr => expr.IsOperand 12 ∧ expr.isPlain = true := by
  have hfields : nested.structFields?.Gives fun value => ∀ fields ∈ value, fieldsAreSound fields := by
    apply (isQuiet_skip "<>").gives_bind
    intro _
    apply Gives.ite fun _ => .pure (by simp [fieldsAreSound])
    intro _
    apply (isQuiet_skip "<").gives_bind
    intro _
    apply Gives.ite
    · intro _
      apply h.fields.bind
      intro fields hfields
      exact .pure (by simpa using hfields)
    · intro _
      exact .pure (by simp)
  have hitem : Gives (do return { expr := ← nested.expr, aliasName := ← aliasName? : StructItem })
      fun item => item.IsSound ∧ (Node.expr item.expr).IsSound := by
    apply h.gives_expr.bind
    intro expr hexpr
    apply gives_aliasName?.bind
    intro aliasName halias
    exact .pure ⟨⟨hexpr.level_le, halias⟩, hexpr.sound⟩
  apply hfields.bind
  intro fields hfields
  apply hitem.parenthesized.bind
  intro items hitems
  refine .pure ⟨⟨Expr.isSound_of ⟨hfields, fun item hitem => (hitems item hitem).1⟩ trivial ?_,
    Nat.le_refl _⟩, rfl⟩
  simp only [Node.ofExpr, Node.structItems, List.forall_mem_map]
  exact fun item hitem => (hitems item hitem).2

end Forms

end Nested.IsSound

end Grammar

end SqlLayout
