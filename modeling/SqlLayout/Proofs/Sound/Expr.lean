import SqlLayout.Proofs.Grammar.Pieces
import SqlLayout.Proofs.Sound.Primary

/-!
# Operators Are Sound

From the primary expressions up to `OR`, each level gives what binds as tightly as it asks. What a level
attaches to its first operand is preserved by one step of its loop: the level, how the expression starts,
and that no window is left after it.
-/

namespace SqlLayout

open Rule Token Token.Scan

theorem Expr.level_le (expr : Expr) : expr.level ≤ 12 := by
  cases expr with
  | binary op left right => exact op.level_le.trans (by decide)
  | unary op operand => exact op.level_le.trans (by decide)
  | _ => simp [Expr.level]

theorem Expr.isSound_binary {op : BinaryOp} {left right : Expr} (hleft : left.IsOperand op.level)
    (hright : right.IsOperand (op.level + 1)) : (Node.expr (.binary op left right)).IsSound := by
  have hlocal : (Expr.binary op left right).IsLocallySound := trivial
  apply Expr.isSound_of hlocal ⟨hleft.level_le, hright.level_le⟩
  simpa [Node.ofExpr] using ⟨hleft.sound, hright.sound⟩

theorem Expr.isSound_unary {op : UnaryOp} {operand : Expr} (h : operand.IsOperand op.level) :
    (Node.expr (.unary op operand)).IsSound := by
  have hlocal : (Expr.unary op operand).IsLocallySound := trivial
  apply Expr.isSound_of hlocal h.level_le
  simpa [Node.ofExpr] using h.sound

namespace Grammar

/-- An expression that a level reads; a query in parentheses is nothing more than that. -/
structure Nested.IsLevel (nested : Nested) (level : Nat) (cursor : Cursor) (expr : Expr)
    (after : Cursor) : Prop extends expr.IsRead level cursor after where
  subquery : ∀ query, expr = .subquery query → nested.parenQuery? cursor = .ok (some query) after

theorem Nested.IsLevel.lower {nested : Nested} {level lower : Nat} {cursor after : Cursor} {expr : Expr}
    (h : nested.IsLevel level cursor expr after) (hlower : lower ≤ level) :
    nested.IsLevel lower cursor expr after :=
  { h with level_le := Nat.le_trans hlower h.level_le }

/-- A rule for operands of a level. -/
def Nested.ReadsLevel (nested : Nested) (level : Nat) (rule : Rule (Option Expr)) : Prop :=
  ∀ cursor, rule.Ensures cursor fun value after =>
    ∀ expr ∈ value, nested.IsLevel level cursor expr after

variable {nested : Nested} {cursor : Cursor}

/-- Something put together after the operand on its left is no subquery, and starts as it does. -/
theorem Nested.IsLevel.attach {level lower : Nat} {middle after : Cursor} {left whole : Expr}
    (h : nested.IsLevel level cursor left middle) (hwhole : whole.IsOperand lower)
    (hopening : whole.opening? = left.opening?) (hsubquery : whole.isSubquery = false)
    (hwindow : whole.takesWindow = true → after.sees "OVER" = false) :
    nested.IsLevel lower cursor whole after where
  toIsOperand := hwhole
  opening := by
    rw [hopening]
    exact h.opening
  window := hwindow
  subquery := by
    rintro query rfl
    cases hsubquery

section Levels

theorem ensures_opOf? {ops : List (String × BinaryOp)} {level : Nat}
    (h : ∀ op ∈ ops, op.2.level = level) :
    (opOf? ops).Ensures cursor fun value after =>
      (∀ op ∈ value, op.level = level) ∧ (value = none → after = cursor) := by
  induction ops with
  | nil => exact .pure (by simp)
  | cons op ops ih =>
    apply Ensures.skip
    · intro _
      refine .pure ⟨?_, by simp⟩
      rintro _ ⟨⟩
      exact h op List.mem_cons_self
    · intro _
      exact ih fun other hother => h other (List.mem_cons_of_mem op hother)

theorem ensures_shiftOp? :
    shiftOp?.Ensures cursor fun value after =>
      (∀ op ∈ value, op.level = 8) ∧ (value = none → after = cursor) := by
  apply Ensures.skip
  · intro _
    refine .pure ⟨?_, by simp⟩
    rintro _ ⟨⟩
    rfl
  · intro _ _ value after hrun
    rw [bind_apply, takeJoined?] at hrun
    split at hrun
    · rename_i hsees
      split at hsees
      · cases hsees
        cases hrun
        exact ⟨.refl cursor, by simp⟩
      · cases hsees
        cases hrun
        refine ⟨cursor.passes_advance 2, ?_, by simp⟩
        rintro _ ⟨⟩
        rfl
    · rename_i hsees
      split at hsees <;> cases hsees

theorem ensures_sign? :
    sign?.Ensures cursor fun value after =>
      (∀ op ∈ value, op.level = 11) ∧ (value = none → after = cursor) := by
  apply Ensures.skip
  · intro _
    exact .pure ⟨by simp [UnaryOp.level], by simp⟩
  intro _
  apply Ensures.skip
  · intro _
    exact .pure ⟨by simp [UnaryOp.level], by simp⟩
  intro _
  apply Ensures.skip
  · intro _
    exact .pure ⟨by simp [UnaryOp.level], by simp⟩
  · intro _
    exact .pure ⟨by simp, fun _ => rfl⟩

/-- Operators of one level associate to the left. -/
theorem ensures_leftAssoc {operand? : Rule (Option Expr)} {op? : Rule (Option BinaryOp)} {level : Nat}
    (hoperand : nested.ReadsLevel (level + 1) operand?)
    (hop : ∀ cursor, op?.Ensures cursor fun value after =>
      (∀ op ∈ value, op.level = level) ∧ (value = none → after = cursor)) :
    nested.ReadsLevel level (leftAssoc operand? op?) := by
  intro cursor
  apply (hoperand cursor).bind
  intro first middle hfirst
  cases first with
  | none => exact .pure (by simp)
  | some first =>
    have hfirst := (hfirst first rfl).lower (Nat.le_succ level)
    have hrest : (many (operation? operand? op?)).Ensures middle fun rest last =>
        nested.IsLevel level cursor
          (rest.foldl (fun left piece => .binary piece.1 left piece.2) first) last := by
      apply Ensures.many _ _ hfirst
      intro value after hvalue
      apply (hop after).bind
      intro op next hop
      cases op with
      | none =>
        obtain rfl := hop.2 rfl
        exact .pure hvalue
      | some op =>
        have hlevel := hop.1 op rfl
        have hright : (require "an expression" operand?).Ensures next fun right last =>
            nested.IsLevel (level + 1) next right last :=
          (hoperand next).require fun right _ hright => hright right rfl
        apply hright.bind
        intro right last hright
        apply Ensures.pure
        have hsound : (Node.expr (.binary op value right)).IsSound := by
          apply Expr.isSound_binary
          · rw [hlevel]
            exact hvalue.toIsOperand
          · rw [hlevel]
            exact hright.toIsOperand
        exact hvalue.attach ⟨hsound, hlevel.ge⟩ rfl rfl hright.window
    apply hrest.bind
    intro rest last hrest
    apply Ensures.pure
    rintro _ ⟨⟩
    exact hrest

end Levels

theorem Nested.IsFound.isBase {after : Cursor} {expr : Expr} (h : nested.IsFound cursor expr after)
    (hwindow : after.sees "OVER" = false) : nested.IsBase cursor expr after :=
  { h with window := fun _ => hwindow }

namespace Nested.IsSound

variable (h : nested.IsSound)

include h

section Forms

theorem ensures_special? {unary? : Rule (Option Expr)} (hunary : nested.ReadsLevel 11 unary?) :
    (nested.special? unary?).Ensures cursor fun value after =>
      (∀ expr ∈ value, nested.IsOwnForm cursor expr after) ∧
        (value = none → cursor.seesAt 1 "(" = true → cursor.sees "SAFE_CAST" = false) := by
  have hplain {rule : Rule Expr} (start : Cursor)
      (hrule : rule.Gives fun expr => expr.IsOperand 12 ∧ expr.isPlain = true) :
      Ensures (do return some (← rule)) start fun value after =>
        (∀ expr ∈ value, nested.IsOwnForm cursor expr after) ∧
          (value = none → cursor.seesAt 1 "(" = true → cursor.sees "SAFE_CAST" = false) := by
    apply (hrule start).bind
    intro expr after hexpr
    refine .pure ⟨?_, by simp⟩
    rintro _ ⟨⟩
    exact .of_isPlain hexpr.1 hexpr.2
  apply (ensures_ask (·.sees "(")).bind
  rintro _ _ ⟨rfl, rfl⟩
  apply Ensures.ite
  · intro _
    apply h.ensures_parenExpr.bind
    intro expr after hexpr
    refine .pure ⟨?_, by simp⟩
    rintro _ ⟨⟩
    exact hexpr
  intro _
  apply Ensures.skip fun _ => hplain _ h.gives_caseExpr
  intro _
  apply Ensures.skip fun _ => hplain _ h.gives_structExpr
  intro _
  apply Ensures.skip
  · intro _
    have hcount : (require "an expression" unary?).Gives fun expr => expr.IsOperand 11 :=
      fun cursor => (hunary cursor).require fun expr _ hexpr => (hexpr expr rfl).toIsOperand
    apply (hcount _).bind
    intro count middle hcount
    apply (gives_identifier _).bind
    intro unit after hunit
    refine .pure ⟨?_, by simp⟩
    rintro _ ⟨⟩
    refine .of_isPlain ⟨Expr.isSound_of hunit hcount.level_le ?_, Nat.le_refl _⟩ rfl
    simpa [Node.ofExpr] using hcount.sound
  intro _
  apply (ensures_ask (·.seesAt 1 "(")).bind
  rintro _ _ ⟨rfl, rfl⟩
  apply Ensures.ite
  · intro _
    apply Ensures.skip fun _ => hplain _ (h.gives_castExpr false)
    intro _
    apply Ensures.skip fun _ => hplain _ (h.gives_castExpr true)
    intro hsafe
    apply Ensures.skip fun _ => hplain _ h.gives_extractExpr
    intro _
    apply Ensures.skip
    · intro _
      apply Ensures.expect
      intro _
      apply (h.gives_closedQuery _).bind
      intro query after hquery
      refine .pure ⟨?_, by simp⟩
      rintro _ ⟨⟩
      refine .of_isPlain ⟨Expr.isSound_of trivial trivial ?_, Nat.le_refl _⟩ rfl
      simpa [Node.ofExpr] using hquery
    · intro _
      exact .pure ⟨by simp, fun _ _ => hsafe⟩
  · intro hcall
    exact .pure ⟨by simp, fun _ hsees => absurd hsees hcall⟩

end Forms

section Calls

/-- A name where it was read. A reserved word is one only before a parenthesis. -/
inductive IsNameAt (cursor : Cursor) (name : QualifiedName) (after : Cursor) : Prop
  | name (h : name.IsSound) (hends : dotSegment? after = .ok none after)
    (hsingle : name.rest = [] → after = cursor.advance 1)
    (hstarts : name.first.isQuotedToken = false → cursor.StartsWith name.first.raw false)
  | callable (h : IsWord name.first.raw.toList) (hcallable : Keyword.isCallable name.first.raw)
    (hrest : name.rest = []) (hafter : after = cursor.advance 1) (hcall : after.sees "(" = true)
    (hstarts : cursor.StartsWith name.first.raw false)

/-- None of the names with a syntax of their own is next with a parenthesis after it. -/
def SeesNoSpecial (cursor : Cursor) : Prop :=
  ∀ special ∈ QualifiedName.specialFunctions, cursor.seesAt 1 "(" = true → cursor.sees special = false

omit h in
theorem ensures_nameExpr? :
    nameExpr?.Ensures cursor fun value after =>
      ∀ expr ∈ value, ∃ name, expr = .name name ∧ IsNameAt cursor name after := by
  have hqualified : (Option.map Expr.name <$> qualifiedName?).Ensures cursor fun value after =>
      ∀ expr ∈ value, ∃ name, expr = .name name ∧ IsNameAt cursor name after := by
    apply ensures_qualifiedName?.map
    intro name after hname expr hexpr
    obtain ⟨name, rfl, rfl⟩ := Option.map_eq_some_iff.mp hexpr
    obtain ⟨hsound, hends, hsingle, hstarts⟩ := hname name rfl
    exact ⟨name, rfl, .name hsound hends hsingle hstarts⟩
  intro hclean value after hrun
  unfold nameExpr? at hrun
  cases htoken : cursor.token? 0 with
  | none =>
    simp only [htoken] at hrun
    cases hrun
    exact ⟨.refl cursor, by simp⟩
  | some token =>
    simp only [htoken] at hrun
    split at hrun
    · rename_i hword
      simp only [Bool.and_eq_true, decide_eq_true_eq] at hword
      obtain ⟨⟨hkind, hcallable⟩, hcall⟩ := hword
      cases hrun
      refine ⟨cursor.passes_advance 1, ?_⟩
      rintro _ ⟨⟩
      have hname := Token.isWord_of_isGenuine (hclean.isGenuine htoken) hkind
      exact ⟨_, rfl, .callable hname hcallable rfl rfl hcall ⟨token, htoken, hkind, rfl, by simp⟩⟩
    · exact hqualified hclean value after hrun

theorem gives_callRest (function : QualifiedName) :
    (nested.callRest function).Gives fun expr => ∃ distinct args nulls,
      expr = .call function distinct args nulls ∧ (args = [] → distinct = false ∧ nulls = none) ∧
        ∀ arg ∈ args, (Node.expr arg).IsSound := by
  have hargument : nested.argument.Gives fun arg => (Node.expr arg).IsSound := by
    apply (isQuiet_skip "*").gives_bind
    intro _
    apply Gives.ite
    · intro _
      have hlocal : Expr.star.IsLocallySound := trivial
      exact .pure (Expr.isSound_of hlocal trivial (by simp [Node.ofExpr]))
    · intro _
      exact h.gives_expr.mono fun _ hexpr => hexpr.sound
  have hrest (distinct : Bool) : Gives (do
      let args ← commaSeparated nested.argument
      let nulls ← nullHandling?
      discard <| expect ")"
      return Expr.call function distinct args nulls) fun expr => ∃ distinct args nulls,
        expr = .call function distinct args nulls ∧ (args = [] → distinct = false ∧ nulls = none) ∧
          ∀ arg ∈ args, (Node.expr arg).IsSound := by
    apply hargument.commaSeparated.bind
    intro args hargs
    apply isQuiet_nullHandling?.gives_bind
    intro nulls
    apply (isQuiet_expect ")").discard.gives_bind
    intro _
    exact .pure ⟨distinct, args, nulls, rfl, fun hnil => absurd hnil hargs.1, hargs.2⟩
  apply (isQuiet_skip "DISTINCT").gives_bind
  intro distinct
  cases distinct with
  | true => exact hrest true
  | false =>
    apply (isQuiet_skip ")").gives_bind
    intro isClosed
    exact .ite (fun _ => .pure ⟨false, [], none, rfl, by simp, by simp⟩) fun _ => hrest false

omit h in
/-- A name that is read as one and not as one of the special functions. -/
theorem sameWord_of_seesNoSpecial {name : String} (hspecial : SeesNoSpecial cursor)
    (hstarts : cursor.StartsWith name false) (hcall : cursor.seesAt 1 "(" = true) :
    ∀ special ∈ QualifiedName.specialFunctions, Text.sameWord name special = false := by
  have hpatterns : ∀ special ∈ QualifiedName.specialFunctions, Cursor.isWordPattern special = true := by
    decide
  intro special hmem
  have hsees := hspecial special hmem hcall
  obtain ⟨token, htoken, hkind, rfl, -⟩ := hstarts
  simpa [Cursor.sees, Cursor.seesAt, htoken, Cursor.fits, hpatterns special hmem, hkind] using hsees

omit h in
theorem isFunction_of_call {name : QualifiedName} {after : Cursor} (hname : IsNameAt cursor name after)
    (hspecial : SeesNoSpecial cursor) (hcall : after.sees "(" = true) : name.IsFunction := by
  cases hname with
  | name hsound hends hsingle hstarts =>
    apply QualifiedName.IsFunction.name hsound
    intro hisSingle hplain
    obtain rfl := hsingle (List.isEmpty_iff.mp hisSingle)
    exact sameWord_of_seesNoSpecial hspecial (hstarts hplain) hcall
  | callable hword hcallable hrest => exact .callable hword hcallable hrest

omit h in
/-- The name of a typed literal is no special function. -/
theorem isFunction_of_isTyped {name : QualifiedName} (hsound : name.IsSound)
    (htyped : name.isTyped = true) : name.IsFunction := by
  have hapart : ∀ typed ∈ typedLiterals, ∀ special ∈ QualifiedName.specialFunctions,
      Text.sameWord typed special = false := by
    decide
  simp only [QualifiedName.isTyped, Bool.and_eq_true, List.any_eq_true] at htyped
  obtain ⟨-, typed, hmem, hsame⟩ := htyped
  apply QualifiedName.IsFunction.name hsound
  intro _ _ special hspecial
  have hfalse := hapart typed hmem special hspecial
  unfold Text.sameWord at *
  rw [beq_iff_eq] at hsame
  rw [hsame]
  exact hfalse

/-- What a name turns out to be: a call, a typed literal or a name. -/
theorem ensures_afterName {name : QualifiedName} {middle : Cursor} (hname : IsNameAt cursor name middle)
    (hspecial : SeesNoSpecial cursor) :
    (nested.afterName name).Ensures middle fun expr after => nested.IsFound cursor expr after := by
  have hcalls {function : QualifiedName} {distinct : Bool} {args : List Expr}
      {nulls : Option NullHandling} {after : Cursor} (hfunction : function.IsFunction)
      (hempty : args = [] → distinct = false ∧ nulls = none)
      (hargs : ∀ arg ∈ args, (Node.expr arg).IsSound)
      (hopening : function.first.isQuotedToken = false →
        cursor.StartsWith function.first.raw (function.isSingle && !function.isTyped)) :
      nested.IsFound cursor (.call function distinct args nulls) after := {
    level_le := Nat.le_refl _
    sound := Expr.isSound_of ⟨hfunction, hempty⟩ trivial (Node.forall_exprs hargs)
    primary := rfl
    opening := by
      intro word isCall hword
      simp only [Expr.opening?] at hword
      split at hword
      · cases hword
      · rename_i hplain
        cases hword
        exact hopening (by simpa using hplain)
    subquery := by simp
    name := by simp [Expr.isName]
    string := by simp [Expr.isOpenStringAgg]
    array := by simp [Expr.isOpenArrayAgg] }
  have hstarts : name.first.isQuotedToken = false → cursor.StartsWith name.first.raw false := by
    cases hname with
    | name hsound hends hsingle hstarts => exact hstarts
    | callable hword hcallable hrest hafter hcall hstarts => exact fun _ => hstarts
  apply Ensures.skip
  · intro hcall
    have hfunction := isFunction_of_call hname hspecial hcall
    apply (h.gives_callRest name _).mono
    rintro _ after ⟨distinct, args, nulls, rfl, hempty, hargs⟩
    apply hcalls hfunction hempty hargs
    intro hplain
    obtain ⟨token, htoken, hkind, htext, -⟩ := hstarts hplain
    refine ⟨token, htoken, hkind, htext, fun hsingle => ?_⟩
    simp only [Bool.and_eq_true, QualifiedName.isSingle, List.isEmpty_iff] at hsingle
    have hafter : middle = cursor.advance 1 := by
      cases hname with
      | name hsound hends hsingle' hstarts => exact hsingle' hsingle.1
      | callable hword hcallable hrest hafter hcall hstarts => exact hafter
    rw [hafter] at hcall
    exact hcall
  · intro hcall
    cases hname with
    | callable hword hcallable hrest hafter hcall' hstarts =>
      rw [hcall] at hcall'
      cases hcall'
    | name hsound hends hsingle hstarts =>
      have hkind : kind?.Ensures middle fun kind after => kind = middle.kind? 0 ∧ middle = after :=
        .ask ⟨rfl, rfl⟩
      have htype : (name.isSingle && typedLiterals.any (Text.sameWord name.first.raw)) = name.isTyped :=
        rfl
      apply hkind.bind
      rintro kind _ ⟨rfl, rfl⟩
      apply Ensures.ite
      · intro htyped
        simp only [Bool.and_eq_true, decide_eq_true_eq] at htyped
        obtain ⟨hisTyped, hstring⟩ := htyped
        rw [← Bool.and_eq_true, htype] at hisTyped
        apply (gives_constant _).bind
        intro constant after hconstant
        apply Ensures.pure
        apply hcalls (isFunction_of_isTyped hsound hisTyped) (by simp)
        · simp only [List.forall_mem_singleton]
          exact Expr.isSound_of hconstant trivial (by simp [Node.ofExpr])
        · rw [hisTyped]
          simpa using hstarts
      · intro _
        exact .pure {
          level_le := Nat.le_refl _
          sound := Expr.isSound_of hsound trivial (by simp [Node.ofExpr])
          primary := rfl
          opening := by
            intro word isCall hword
            simp only [Expr.opening?] at hword
            split at hword
            · cases hword
            · rename_i hplain
              cases hword
              exact hstarts (by simpa using hplain)
          subquery := by simp
          name := fun _ => hends
          string := by simp [Expr.isOpenStringAgg]
          array := by simp [Expr.isOpenArrayAgg] }

end Calls

section Operands

variable {unary? : Rule (Option Expr)}

/-- A primary expression as it is found: a form of its own, or a name. -/
theorem ensures_found (hunary : nested.ReadsLevel 11 unary?) :
    (firstOf
      [Option.map Expr.constant <$> constant?, nested.array?, nested.arrayAgg?, nested.stringAgg?,
        nested.arrayQuery?, nested.special? unary?, nameExpr?]).Ensures cursor fun value after =>
      ∀ expr ∈ value, nested.IsOwnForm cursor expr after ∨
        ∃ name, expr = .name name ∧ IsNameAt cursor name after ∧ SeesNoSpecial cursor := by
  apply Ensures.clean
  intro hclean
  have hform {rule : Rule (Option Expr)}
      (hrule : rule.Ensures cursor fun value after => ∀ expr ∈ value, nested.IsOwnForm cursor expr after) :
      rule.Ensures cursor fun value after => ∀ found ∈ value, ∀ expr ∈ some found,
        nested.IsOwnForm cursor expr after ∨
          ∃ name, expr = .name name ∧ IsNameAt cursor name after ∧ SeesNoSpecial cursor := by
    apply hrule.mono
    rintro value after hvalue found hfound _ ⟨⟩
    exact .inl (hvalue found hfound)
  have hplain {rule : Rule (Option Expr)}
      (hrule : rule.Gives fun value => ∀ expr ∈ value, expr.IsOperand 12 ∧ expr.isPlain = true) :
      rule.Ensures cursor fun value after => ∀ expr ∈ value, nested.IsOwnForm cursor expr after :=
    (hrule cursor).mono fun _ _ hvalue expr hexpr => .of_isPlain (hvalue expr hexpr).1 (hvalue expr hexpr).2
  have hconstant : (Option.map Expr.constant <$> constant?).Gives fun value =>
      ∀ expr ∈ value, expr.IsOperand 12 ∧ expr.isPlain = true := by
    apply gives_constant?.map
    intro value hvalue expr hexpr
    obtain ⟨constant, rfl, rfl⟩ := Option.map_eq_some_iff.mp hexpr
    have hsound : (Node.expr (.constant constant)).IsSound :=
      Expr.isSound_of (hvalue constant rfl) trivial (by simp [Node.ofExpr])
    exact ⟨⟨hsound, Nat.le_refl _⟩, rfl⟩
  apply Ensures.firstOf_cons (hform (hplain hconstant))
  intro _
  apply Ensures.firstOf_cons (hform (hplain h.gives_array?))
  intro _
  have hagg := @ensures_arrayAgg? nested cursor h
  apply Ensures.firstOf_cons (hform (hagg.mono fun _ _ hvalue => hvalue.1))
  rintro ⟨after, harray⟩
  have harray := (hagg hclean none after harray).2.2 rfl
  have hagg := @ensures_stringAgg? nested cursor h
  apply Ensures.firstOf_cons (hform (hagg.mono fun _ _ hvalue => hvalue.1))
  rintro ⟨after, hstring⟩
  have hstring := (hagg hclean none after hstring).2.2 rfl
  apply Ensures.firstOf_cons (hform (hplain h.gives_arrayQuery?))
  intro _
  have hspecial := @ensures_special? nested cursor h _ hunary
  apply Ensures.firstOf_cons (hform (hspecial.mono fun _ _ hvalue => hvalue.1))
  rintro ⟨after, hsafe⟩
  have hsafe := (hspecial hclean none after hsafe).2.2 rfl
  have hnone : SeesNoSpecial cursor := by
    intro special hmem hcall
    have hsplit {pattern : String} (hsees : cursor.seesAll [pattern, "("] = false) :
        cursor.sees pattern = false := by
      simpa [Cursor.seesAll, Cursor.seesAllAt, hcall, Cursor.sees] using hsees
    simp only [QualifiedName.specialFunctions, List.mem_cons, List.not_mem_nil, or_false] at hmem
    rcases hmem with rfl | rfl | rfl | rfl
    · exact hsplit harray
    · exact hsplit hstring.1
    · exact hsplit hstring.2
    · exact hsafe hcall
  apply Ensures.firstOf_cons
  · apply (ensures_nameExpr?).mono
    rintro value after hvalue found hfound _ ⟨⟩
    obtain ⟨name, rfl, hname⟩ := hvalue found hfound
    exact .inr ⟨name, rfl, hname, hnone⟩
  · intro _
    exact ensures_firstOf_nil (by simp)

/-- A window makes an expression of its own out of what stands before it. -/
theorem ensures_primary? (hunary : nested.ReadsLevel 11 unary?) :
    (nested.primary? unary?).Ensures cursor fun value after =>
      ∀ expr ∈ value, nested.IsBase cursor expr after := by
  have hwindow (expr : Expr) (middle : Cursor) (hexpr : nested.IsFound cursor expr middle) :
      (nested.windowed? expr).Ensures middle fun value after =>
        ∀ expr ∈ value, nested.IsBase cursor expr after := by
    apply h.ensures_window?.bind
    intro window after hwindow
    cases window with
    | none =>
      obtain ⟨rfl, hnone⟩ := hwindow.2 rfl
      apply Ensures.pure
      rintro _ ⟨⟩
      exact hexpr.isBase hnone
    | some window =>
      obtain ⟨⟨hsound, hchildren⟩, -⟩ := hwindow.1 window rfl
      have hlocal : (Expr.over expr window).IsLocallySound := ⟨hexpr.primary, hsound⟩
      apply Ensures.pure
      rintro _ ⟨⟩
      exact {
        level_le := Nat.le_refl _
        sound := by
          apply Expr.isSound_of hlocal trivial
          exact List.forall_mem_cons.mpr ⟨hexpr.sound, hchildren⟩
        opening := hexpr.opening
        window := by simp [Expr.takesWindow]
        subquery := by simp
        name := by simp [Expr.isName]
        string := by simp [Expr.isOpenStringAgg]
        array := by simp [Expr.isOpenArrayAgg] }
  apply (h.ensures_found hunary).bind
  intro found middle hfound
  cases found with
  | none => exact .pure (by simp)
  | some found =>
    rcases hfound found rfl with hform | ⟨name, rfl, hname, hspecial⟩
    · have hname := hform.form
      cases found with
      | name path => cases hname
      | _ => exact hwindow _ middle hform.toIsFound
    · exact (h.ensures_afterName hname hspecial).bind hwindow

omit h in
theorem ensures_indexKind? :
    indexKind?.Ensures cursor fun value after =>
      (∀ kind ∈ value, after = cursor.advance 1 ∧ ∃ word, cursor.StartsWith word false ∧
        IndexKind.ofWord? word = some kind) ∧
      (value = none → after = cursor ∧ ∀ word, cursor.StartsWith word true →
        IndexKind.ofWord? word = none) := by
  intro _ value after hrun
  unfold indexKind? at hrun
  cases htoken : cursor.token? 0 with
  | none =>
    simp only [htoken] at hrun
    cases hrun
    refine ⟨.refl cursor, by simp, fun _ => ⟨rfl, ?_⟩⟩
    rintro word ⟨token, hsome, -⟩
    rw [htoken] at hsome
    cases hsome
  | some token =>
    simp only [htoken] at hrun
    have hword (word : String) (hstarts : cursor.StartsWith word true) :
        token.kind = .word ∧ token.text = word ∧ cursor.seesAt 1 "(" = true := by
      obtain ⟨other, hother, hkind, htext, hcall⟩ := hstarts
      rw [htoken] at hother
      cases hother
      exact ⟨hkind, htext, hcall rfl⟩
    split at hrun
    · rename_i hcall
      simp only [Bool.and_eq_true, decide_eq_true_eq] at hcall
      split at hrun
      · rename_i kind hkind
        cases hrun
        refine ⟨cursor.passes_advance 1, ?_, by simp⟩
        rintro _ ⟨⟩
        exact ⟨rfl, token.text, ⟨token, htoken, hcall.1, rfl, by simp⟩, hkind⟩
      · rename_i hnone
        cases hrun
        refine ⟨.refl cursor, by simp, fun _ => ⟨rfl, ?_⟩⟩
        intro word hstarts
        obtain ⟨-, rfl, -⟩ := hword word hstarts
        exact hnone
    · rename_i hcall
      cases hrun
      refine ⟨.refl cursor, by simp, fun _ => ⟨rfl, ?_⟩⟩
      intro word hstarts
      obtain ⟨hkind, -, hparen⟩ := hword word hstarts
      exact absurd (by simp [hkind, hparen]) hcall

omit h in
theorem sameWord_of_startsWith {word pattern : String} {isCall : Bool}
    (hpattern : Cursor.isWordPattern pattern = true) (hstarts : cursor.StartsWith word isCall) :
    Text.sameWord word pattern = cursor.sees pattern := by
  obtain ⟨token, htoken, hkind, rfl, -⟩ := hstarts
  simp [Cursor.sees, Cursor.seesAt, htoken, Cursor.fits, hpattern, hkind]

/-- A subscript of a base that could have one. -/
theorem ensures_subscript {base : Expr} {start : Cursor} (hbase : nested.IsBase start base cursor)
    (hbracket : cursor.sees "[" = true) :
    nested.subscript.Ensures (cursor.advance 1) fun piece _ =>
      ∃ kind position, piece = .index kind position ∧ IsSubscript base kind position ∧
        (Node.expr position).IsSound := by
  have hstring : base.isOpenStringAgg = false := by
    cases hopen : base.isOpenStringAgg with
    | false => rfl
    | true =>
      have hnone := hbase.string hopen
      rw [hbracket] at hnone
      cases hnone
  have hoffset (hopen : base.isOpenArrayAgg = true) : (cursor.advance 1).sees "OFFSET" = false := by
    have hall := hbase.array hopen
    rw [Cursor.seesAll, Cursor.seesAllAt, ← Cursor.sees, hbracket, Bool.true_and,
      Cursor.seesAllAt, Cursor.seesAllAt, Bool.and_true] at hall
    exact hall
  apply (ensures_indexKind?).bind
  intro kind middle hkind
  cases kind with
  | some kind =>
    obtain ⟨rfl, word, hstarts, hword⟩ := hkind.1 kind rfl
    apply Ensures.expect
    intro _
    apply (h.gives_closedExpr _).bind
    intro position _ hposition
    apply Ensures.expect
    intro _
    refine .pure ⟨some kind, position, rfl, ⟨hposition.level_le, by simp, hstring, ?_⟩, hposition.sound⟩
    intro hopen
    refine ⟨?_, by simp⟩
    rintro ⟨⟩
    have hpattern : Cursor.isWordPattern "OFFSET" = true := by decide
    have hsame := sameWord_of_startsWith hpattern hstarts
    rw [hoffset hopen] at hsame
    have hfound := List.find?_some hword
    rw [Text.sameWord_comm] at hfound
    exact absurd hfound (by simpa [IndexKind.text] using hsame)
  | none =>
    obtain ⟨rfl, hnone⟩ := hkind.2 rfl
    apply h.ensures_expr.bind
    intro position _ hposition
    apply Ensures.expect
    intro _
    refine .pure ⟨none, position, rfl, ⟨hposition.level_le, fun _ word hopening => ?_, hstring, ?_⟩,
      hposition.sound⟩
    · exact hnone word (hposition.opening word true hopening)
    · intro hopen
      refine ⟨by simp, fun _ word isCall hopening => ?_⟩
      rw [sameWord_of_startsWith (by decide) (hposition.opening word isCall hopening)]
      exact hoffset hopen

/-- What is attached to a base leaves it a base. -/
theorem ensures_postfix? {base : Expr} {start : Cursor} (hbase : nested.IsBase start base cursor) :
    nested.postfix?.Ensures cursor (Attached (nested.IsBase start) Postfix.attach base) := by
  have hlevel : base.level = 12 := Nat.le_antisymm base.level_le hbase.level_le
  apply Ensures.skip
  · intro hbracket
    apply (h.ensures_subscript hbase hbracket).bind
    rintro _ after ⟨kind, position, rfl, hsubscript, hposition⟩
    have hlocal : (Expr.index base kind position).IsLocallySound := hsubscript
    exact .pure {
      level_le := Nat.le_refl _
      sound := by
        apply Expr.isSound_of hlocal hlevel
        simpa [Node.ofExpr] using And.intro hbase.sound hposition
      opening := hbase.opening
      window := by simp [Postfix.attach, Expr.takesWindow]
      subquery := by simp [Postfix.attach]
      name := by simp [Postfix.attach, Expr.isName]
      string := by simp [Postfix.attach, Expr.isOpenStringAgg]
      array := by simp [Postfix.attach, Expr.isOpenArrayAgg] }
  · intro _
    apply ensures_dotSegment?.recall.bind
    rintro label after ⟨hlabel, hrun⟩
    cases label with
    | none =>
      obtain rfl := hlabel.2 rfl
      exact .pure hbase
    | some label =>
      have hname : base.isName = false := by
        cases hisName : base.isName with
        | false => rfl
        | true =>
          rw [hbase.name hisName] at hrun
          cases hrun
      have hlocal : (Expr.field base label).IsLocallySound := ⟨hname, (hlabel.1 label rfl).1⟩
      exact .pure {
        level_le := Nat.le_refl _
        sound := by
          apply Expr.isSound_of hlocal hlevel
          simpa [Node.ofExpr] using hbase.sound
        opening := hbase.opening
        window := by simp [Postfix.attach, Expr.takesWindow]
        subquery := by simp [Postfix.attach]
        name := by simp [Postfix.attach, Expr.isName]
        string := by simp [Postfix.attach, Expr.isOpenStringAgg]
        array := by simp [Postfix.attach, Expr.isOpenArrayAgg] }

theorem readsLevel_operand? (hunary : nested.ReadsLevel 11 unary?) :
    nested.ReadsLevel 12 (nested.operand? unary?) := by
  intro cursor
  apply (h.ensures_primary? hunary).bind
  intro base middle hbase
  cases base with
  | none => exact .pure (by simp)
  | some base =>
    have hrest : (many nested.postfix?).Ensures middle fun pieces after =>
        nested.IsBase cursor (pieces.foldl Postfix.attach base) after := by
      apply Ensures.many _ _ (hbase base rfl)
      intro base middle hbase
      exact h.ensures_postfix? hbase
    apply hrest.bind
    intro pieces after hwhole
    apply Ensures.pure
    rintro _ ⟨⟩
    exact { hwhole with }

theorem readsLevel_unary? : nested.ReadsLevel 11 nested.unary? := by
  have hsteps (steps : Nat) : nested.ReadsLevel 11 (nested.unaryUpTo? steps) := by
    induction steps with
    | zero => exact fun _ => .pure (by simp)
    | succ steps ih =>
      intro cursor
      apply (ensures_sign?).bind
      intro op middle hop
      cases op with
      | none =>
        obtain rfl := hop.2 rfl
        apply (h.readsLevel_operand? ih _).mono
        intro value after hvalue expr hexpr
        exact (hvalue expr hexpr).lower (by decide)
      | some op =>
        have hlevel := hop.1 op rfl
        apply (h.signOperand middle).bind
        intro operand after hoperand
        apply Ensures.pure
        rintro _ ⟨⟩
        have hsound : (Node.expr (.unary op operand)).IsSound := by
          apply Expr.isSound_unary
          rw [hlevel]
          exact hoperand.toIsOperand
        exact {
          level_le := hlevel.ge
          sound := hsound
          opening := by simp [Expr.opening?]
          window := hoperand.window
          subquery := by simp }
  intro cursor hclean value after hrun
  exact hsteps (cursor.remaining + 1) cursor hclean value after hrun

end Operands

section Levels

theorem readsLevel_product? : nested.ReadsLevel 10 nested.product? :=
  ensures_leftAssoc h.readsLevel_unary? fun _ => ensures_opOf? (by decide)

theorem readsLevel_sum? : nested.ReadsLevel 9 nested.sum? :=
  ensures_leftAssoc h.readsLevel_product? fun _ => ensures_opOf? (by decide)

theorem readsLevel_shift? : nested.ReadsLevel 8 nested.shift? :=
  ensures_leftAssoc h.readsLevel_sum? fun _ => ensures_shiftOp?

theorem readsLevel_bitAnd? : nested.ReadsLevel 7 nested.bitAnd? :=
  ensures_leftAssoc h.readsLevel_shift? fun _ => ensures_opOf? (by decide)

theorem readsLevel_bitXor? : nested.ReadsLevel 6 nested.bitXor? :=
  ensures_leftAssoc h.readsLevel_bitAnd? fun _ => ensures_opOf? (by decide)

theorem readsLevel_bitOr? : nested.ReadsLevel 5 nested.bitOr? :=
  ensures_leftAssoc h.readsLevel_bitXor? fun _ => ensures_opOf? (by decide)

/-- What follows `IN` is read as the one of its kinds that it starts as. -/
theorem gives_memberTarget :
    nested.memberTarget.Gives fun target =>
      target.IsSound ∧ ∀ child ∈ Node.ofMemberTarget target, child.IsSound := by
  intro cursor
  apply Ensures.skipAll (by simp)
  · intro _
    apply (h.gives_closedExpr _).bind
    intro array _ harray
    exact .pure ⟨harray.level_le, by simpa [Node.ofMemberTarget] using harray.sound⟩
  intro _
  have hask := @ensures_ask _ cursor fun cursor =>
    cursor.sees "(" && (cursor.seesAt 1 "SELECT" || cursor.seesAt 1 "WITH")
  apply hask.bind
  rintro _ _ ⟨rfl, rfl⟩
  apply Ensures.expect
  intro _
  apply Ensures.ite
  · intro hquery
    apply h.ensures_closedQuery.bind
    rintro query _ ⟨hsound, hstarts⟩
    refine .pure ⟨?_, by simpa [Node.ofMemberTarget] using hsound⟩
    -- A query that starts with no word starts with a parenthesis, but there is a word.
    cases hword : query.startsWithWord with
    | true => exact hword
    | false =>
      have hparen : cursor.seesAt 1 "(" = true := hstarts hword
      have hselect : cursor.seesAt 1 "SELECT" = false := Cursor.seesAt_eq_false hparen (by decide)
      have hwith : cursor.seesAt 1 "WITH" = false := Cursor.seesAt_eq_false hparen (by decide)
      simp [hselect, hwith] at hquery
  · intro _
    apply (h.gives_expr.commaSeparated _).bind
    rintro items _ ⟨hne, hitems⟩
    apply Ensures.expect
    intro _
    refine .pure ⟨⟨hne, fun item hitem => (hitems item hitem).level_le⟩, ?_⟩
    exact Node.forall_exprs fun item hitem => (hitems item hitem).sound

omit h in
theorem ensures_negated :
    negated.Ensures cursor fun isNegated after =>
      (isNegated = true → after.seesAny ["LIKE", "IN", "BETWEEN"] = true) ∧
        (isNegated = false → after = cursor) := by
  have hask := @ensures_ask _ cursor fun cursor =>
    cursor.sees "NOT" && ["LIKE", "IN", "BETWEEN"].any (cursor.seesAt 1)
  apply hask.bind
  rintro isNegated _ ⟨rfl, rfl⟩
  apply Ensures.ite
  · intro hnegated
    simp only [Bool.and_eq_true] at hnegated
    intro _ value after hrun
    rw [bind_of_ok (discard_bump_of_sees hnegated.1)] at hrun
    cases hrun
    refine ⟨cursor.passes_advance 1, fun _ => hnegated.2, ?_⟩
    simp [hnegated.1, hnegated.2]
  · intro hnegated
    exact .pure ⟨fun hyes => absurd hyes hnegated, fun _ => rfl⟩

/-- A comparison is attached to what stands before it. -/
theorem ensures_comparison? {left : Expr} {start : Cursor} (hleft : nested.IsLevel 4 start left cursor) :
    nested.comparison?.Ensures cursor (Attached (nested.IsLevel 4 start) Comparison.attach left) := by
  have hoperand (cursor : Cursor) : (require "an expression" nested.bitOr?).Ensures cursor
      fun right after => nested.IsLevel 5 cursor right after :=
    (h.readsLevel_bitOr? cursor).require fun right _ hright => hright right rfl
  have hbinary (op : BinaryOp) (hop : op.level = 4) (cursor : Cursor) :
      Ensures (do return some (Comparison.binary op (← require "an expression" nested.bitOr?))) cursor
        (Attached (nested.IsLevel 4 start) Comparison.attach left) := by
    apply (hoperand cursor).bind
    intro right after hright
    apply Ensures.pure
    have hsound : (Node.expr (.binary op left right)).IsSound := by
      apply Expr.isSound_binary <;> rw [hop]
      · exact hleft.toIsOperand
      · exact hright.toIsOperand
    exact hleft.attach ⟨hsound, hop.ge⟩ rfl rfl hright.window
  have hops : (opOf? [("=", BinaryOp.eq), ("!=", .notEq), ("<>", .ltGt), ("<=", .ltEq), (">=", .gtEq),
      ("<", .lt), (">", .gt)]).Ensures cursor fun value after =>
        (∀ op ∈ value, op.level = 4) ∧ (value = none → after = cursor) :=
    ensures_opOf? (by decide)
  apply hops.bind
  intro op middle hop
  cases op with
  | some op => exact hbinary op (hop.1 op rfl) middle
  | none =>
    obtain rfl := hop.2 rfl
    apply Ensures.skip
    · intro _
      apply (isQuiet_skip "NOT").gives _ |>.bind
      intro negated last _
      apply isQuiet_isTest.gives _ |>.bind
      intro value after _
      apply Ensures.pure
      have hlocal : (Expr.isValue left negated value).IsLocallySound := trivial
      have hsound : (Node.expr (.isValue left negated value)).IsSound := by
        apply Expr.isSound_of hlocal hleft.level_le
        simpa [Node.ofExpr] using hleft.sound
      exact hleft.attach ⟨hsound, Nat.le_refl _⟩ rfl rfl (by simp [Comparison.attach, Expr.takesWindow])
    intro _
    apply (ensures_negated).bind
    rintro negated middle ⟨hnegated, hplain⟩
    apply Ensures.skip
    · intro _
      apply hbinary
      cases negated <;> rfl
    intro hlike
    apply Ensures.skip
    · intro _
      apply (h.gives_memberTarget _).bind
      rintro target after ⟨htarget, hchildren⟩
      apply Ensures.pure
      have hlocal : (Expr.member left negated target).IsLocallySound := htarget
      have hsound : (Node.expr (.member left negated target)).IsSound :=
        Expr.isSound_of hlocal hleft.level_le (List.forall_mem_cons.mpr ⟨hleft.sound, hchildren⟩)
      exact hleft.attach ⟨hsound, Nat.le_refl _⟩ rfl rfl (by simp [Comparison.attach, Expr.takesWindow])
    intro hin
    apply Ensures.skip
    · intro _
      apply (hoperand _).bind
      intro low last hlow
      apply Ensures.expect
      intro _
      apply (hoperand _).bind
      intro high after hhigh
      apply Ensures.pure
      have hlocal : (Expr.between left negated low high).IsLocallySound := trivial
      have hsound : (Node.expr (.between left negated low high)).IsSound := by
        apply Expr.isSound_of hlocal ⟨hleft.level_le, hlow.level_le, hhigh.level_le⟩
        simpa [Node.ofExpr] using And.intro hleft.sound (And.intro hlow.sound hhigh.sound)
      exact hleft.attach ⟨hsound, Nat.le_refl _⟩ rfl rfl hhigh.window
    · intro hbetween
      apply Ensures.pure
      -- A negation is only taken before one of the three words.
      cases negated with
      | true =>
        unfold Cursor.sees at hlike hin hbetween
        simp [Cursor.seesAny, Cursor.seesAnyAt, hlike, hin, hbetween] at hnegated
      | false =>
        rw [hplain rfl]
        exact hleft

theorem readsLevel_not? : nested.ReadsLevel 3 nested.not? := by
  intro cursor
  apply Ensures.skip
  · intro _
    apply (h.notOperand _).bind
    intro operand after hoperand
    apply Ensures.pure
    rintro _ ⟨⟩
    have hsound : (Node.expr (.unary .not operand)).IsSound :=
      Expr.isSound_unary hoperand.toIsOperand
    exact {
      level_le := Nat.le_refl _
      sound := hsound
      opening := by simp [Expr.opening?]
      window := hoperand.window
      subquery := by simp }
  · intro _
    apply (h.readsLevel_bitOr? cursor).bind
    intro left middle hleft
    cases left with
    | none => exact .pure (by simp)
    | some left =>
      have hrest : (many nested.comparison?).Ensures middle fun pieces after =>
          nested.IsLevel 4 cursor (pieces.foldl Comparison.attach left) after := by
        apply Ensures.many _ _ ((hleft left rfl).lower (by decide))
        intro left middle hleft
        exact h.ensures_comparison? hleft
      apply hrest.bind
      intro pieces after hwhole
      apply Ensures.pure
      rintro _ ⟨⟩
      exact hwhole.lower (by decide)

theorem readsLevel_and? : nested.ReadsLevel 2 nested.and? :=
  ensures_leftAssoc h.readsLevel_not? fun _ => ensures_opOf? (by decide)

theorem readsLevel_or? : nested.ReadsLevel 1 nested.or? :=
  ensures_leftAssoc h.readsLevel_and? fun _ => ensures_opOf? (by decide)

end Levels

end Nested.IsSound

end Grammar

end SqlLayout
