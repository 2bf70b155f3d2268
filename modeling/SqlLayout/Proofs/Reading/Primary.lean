import SqlLayout.Proofs.Layout.Words
import SqlLayout.Proofs.Reading.Levels
import SqlLayout.Proofs.Syntax.Operation

/-!
# Numbers, Names and Parentheses Are Read Back

A parenthesis is first tried as that of a query. In an operation it is none: what stands after the last
of the parentheses that an expression starts with is no word that starts a query, and there are no more
of them than levels left.
-/

namespace SqlLayout

open Rule

namespace Cursor

variable {cursor after : Cursor} {spelling : Spelling} {levels level : Nat}

theorem spells_enclosed :
    cursor.Spells (Spelling.enclosed spelling) after ↔
      cursor.HasNext { kind := .parenOpen, text := "(" } ∧
        ∃ last, (cursor.advance 1).Spells spelling last ∧
          last.HasNext { kind := .parenClose, text := ")" } ∧ after = last.advance 1 := by
  unfold Spelling.enclosed
  rw [spells_append]
  constructor
  · rintro ⟨last, ⟨hopen, hspells⟩, hclose, hafter⟩
    exact ⟨hopen, last, hspells, hclose, hafter⟩
  · rintro ⟨hopen, last, hspells, hclose, hafter⟩
    exact ⟨last, ⟨hopen, hspells⟩, hclose, hafter⟩

theorem ends_of_parenClose (h : cursor.sees ")" = true) : cursor.Ends 1 :=
  ends_of_sees h (by decide) fun _ => seesJoined_of_not (sees_eq_false h (by decide))

theorem Ends.deeper (h : cursor.Ends level) : Ends { cursor with depth := cursor.depth + 1 } level :=
  ⟨h.sees, h.joined, h.kind?⟩

theorem IsReady.depth_lt (h : cursor.IsReady (levels + 1)) : cursor.depth < maxDepth := by
  have hdepth := h.depth_le
  omega

end Cursor

namespace Expr.IsArranged

variable {cursor after : Cursor} {levels : Nat} {expr : Expr}

/-- A plain name is one word. -/
theorem exists_word {raw : String} (h : Token.Scan.IsWord raw.toList)
    (hspells : cursor.Spells (Expr.name { first := { raw } }).spelling after) :
    (∃ token, cursor.token? 0 = some token ∧ token.kind = .word ∧ token.text = raw) ∧
      after = cursor.advance 1 := by
  obtain ⟨hnext, hafter⟩ := hspells
  obtain ⟨token, htoken, hkind, htext⟩ := hnext.token?
  have hword : (Identifier.glyph { raw }).kind = .word := Identifier.kind_of_isWord h
  exact ⟨⟨token, htoken, hkind.trans hword, htext⟩, hafter⟩

theorem opens_of_isLeading (h : expr.IsArranged levels) (hleading : expr.isLeading)
    (hspells : cursor.Spells expr.spelling after) :
    cursor.Opens expr.level ∧ after.remaining < cursor.remaining := by
  cases h.operation with
  | number h =>
    obtain ⟨token, htoken, hkind, -⟩ := hspells.1.token?
    exact ⟨⟨token, htoken, .inl hkind⟩, Cursor.Spells.remaining_lt hspells⟩
  | name hword hreserved =>
    obtain ⟨⟨token, htoken, hkind, rfl⟩, -⟩ := exists_word hword hspells
    exact ⟨⟨token, htoken, .inr (.inl ⟨hkind, hreserved⟩)⟩, Cursor.Spells.remaining_lt hspells⟩
  | paren h =>
    obtain ⟨token, htoken, hkind, htext⟩ := (Cursor.spells_enclosed.mp hspells).1.token?
    have hfits : Cursor.fits "(" token = true := by
      simp only [Cursor.fits, hkind, htext]
      decide
    refine ⟨⟨token, htoken, .inr (.inr ⟨("(", 12), by decide, Nat.le_refl 12, hfits⟩)⟩, ?_⟩
    exact Cursor.Spells.remaining_lt hspells
  | unary op h =>
    obtain ⟨middle, hspellsOp, hspellsOperand⟩ := Grammar.spells_unary.mp hspells
    have hsees : cursor.sees op.text = true := by
      cases op <;> exact hspellsOp.1.sees_of (by decide)
    obtain ⟨token, htoken, hfits⟩ := Cursor.token_of_seesAt hsees
    refine ⟨⟨token, htoken, .inr (.inr ⟨(op.text, op.level), ?_, Nat.le_refl _, hfits⟩)⟩, ?_⟩
    · cases op <;> decide
    · have hless : middle.remaining < cursor.remaining := by
        cases op <;> exact Cursor.Spells.remaining_lt hspellsOp
      exact Nat.lt_of_le_of_lt hspellsOperand.remaining_le hless
  | _ => cases hleading

theorem opens (h : expr.IsArranged levels) (hspells : cursor.Spells expr.spelling after) :
    cursor.Opens expr.level ∧ after.remaining < cursor.remaining := by
  obtain ⟨first, rest, hfirst, hleading, hlevel, hspelling⟩ := h.exists_leading
  rw [hspelling] at hspells
  obtain ⟨middle, hspellsFirst, hspellsRest⟩ := Cursor.spells_append.mp hspells
  obtain ⟨hopens, hless⟩ := hfirst.opens_of_isLeading hleading hspellsFirst
  exact ⟨hopens.mono hlevel, Nat.lt_of_le_of_lt hspellsRest.remaining_le hless⟩

/-- Where a parenthesis is next, an expression in parentheses is. -/
theorem exists_paren (h : expr.IsArranged levels) (hspells : cursor.Spells expr.spelling after)
    (hsees : cursor.sees "(" = true) :
    ∃ inner middle, (Expr.paren inner).IsArranged levels ∧
      cursor.Spells (Expr.paren inner).spelling middle := by
  obtain ⟨first, rest, hfirst, hleading, -, hspelling⟩ := h.exists_leading
  rw [hspelling] at hspells
  obtain ⟨middle, hspellsFirst, -⟩ := Cursor.spells_append.mp hspells
  have hfits {token : Token} (htoken : cursor.token? 0 = some token) : Cursor.fits "(" token = true := by
    simpa only [Cursor.sees, Cursor.seesAt, htoken] using hsees
  cases hfirst.operation with
  | paren => exact ⟨_, middle, hfirst, hspellsFirst⟩
  | number =>
    obtain ⟨token, htoken, hkind, -⟩ := hspellsFirst.1.token?
    have hnumber : token.kind = .number := hkind
    exact absurd (Cursor.kind_of_fits (hfits htoken)) (by rw [hnumber]; decide)
  | name hword =>
    obtain ⟨⟨token, htoken, hkind, -⟩, -⟩ := exists_word hword hspellsFirst
    have hno : Cursor.fits "(" token = false := by
      simp [Cursor.fits, hkind, Cursor.isWordPattern, Token.Kind.isSymbol]
    rw [hfits htoken] at hno
    cases hno
  | unary op =>
    obtain ⟨last, hspellsOp, -⟩ := Grammar.spells_unary.mp hspellsFirst
    have hsign : cursor.sees op.text = true := by
      cases op <;> exact hspellsOp.1.sees_of (by decide)
    have hno : cursor.sees "(" = false := Cursor.sees_eq_false hsign (by cases op <;> decide)
    rw [hsees] at hno
    cases hno
  | _ => cases hleading

theorem hasOperands (levels : Nat) : Grammar.HasOperands (IsArranged levels) where
  binary := fun _ _ _ => binary
  between := fun _ _ _ _ => between
  isValue := fun _ _ _ => isValue
  member := fun _ _ _ => subject
  opens := fun _ _ _ => opens

end Expr.IsArranged

namespace Grammar

variable {cursor after : Cursor} {levels : Nat} {nested : Nested} {expr inner : Expr}

section Parentheses

theorem queryBody?_declines (hsees : cursor.sees "(" = true) (hparen : nested.parenQuery?.Declines cursor) :
    nested.queryBody?.Declines cursor := by
  have hcommon : nested.commonTables?.Declines cursor :=
    (bind_of_ok (skip_of_not (Cursor.sees_eq_false hsees (by decide)))).trans rfl
  have hselect : nested.select?.Declines cursor :=
    (bind_of_ok (skip_of_not (Cursor.sees_eq_false hsees (by decide)))).trans rfl
  have hoperand : nested.setOperand?.Declines cursor := by
    refine (bind_of_ok hselect).trans ?_
    exact (bind_of_ok hparen).trans rfl
  have hbody : nested.setExpr?.Declines cursor := (bind_of_ok hoperand).trans rfl
  refine (bind_of_ok hcommon).trans ?_
  exact (bind_of_ok hbody).trans rfl

/-- The parenthesis of an expression starts no query. The induction is on the levels left: a
parenthesis directly inside is tried one level deeper. -/
theorem parenQuery?_declines (h : (Expr.paren inner).IsArranged levels) (hready : cursor.IsReady levels)
    (hspells : cursor.Spells (Expr.paren inner).spelling after) :
    (nestedAt levels).parenQuery?.Declines cursor := by
  induction levels generalizing inner cursor after with
  | zero =>
    obtain ⟨inside, hlevels, -⟩ := h.paren
    cases hlevels
  | succ levels ih =>
    obtain ⟨inside, hlevels, hinner⟩ := h.paren
    cases hlevels
    obtain ⟨hopen, last, hspellsInner, -⟩ := Cursor.spells_enclosed.mp hspells
    have hsees : cursor.sees "(" = true := hopen.sees_of (by decide)
    have hquery : (nestedAt (levels + 1)).queryHere?.Declines (cursor.advance 1) := by
      unfold Declines Nested.queryHere?
      rw [bind_of_ok (ask_apply _ _)]
      cases hparen : (cursor.advance 1).sees "(" with
      | true =>
        obtain ⟨other, middle, hother, hspellsOther⟩ := hinner.exists_paren hspellsInner hparen
        have hdeclines := ih hother (hready.advance 1).deeper hspellsOther.deeper
        have hdeeper : Cursor.sees { cursor.advance 1 with depth := cursor.depth + 1 } "(" = true := hparen
        have hbody := (queryBody?_declines hdeeper hdeclines).attempt
        have hstart : (cursor.advance 1).seesAny queryStarts = true :=
          List.any_eq_true.mpr ⟨"(", by decide, hparen⟩
        rw [hstart]
        exact descend_of_ok (hready.advance 1).depth_lt hbody
      | false =>
        have hopens := (hinner.opens hspellsInner).1.mono (Nat.zero_le _)
        have hstart : (cursor.advance 1).seesAny queryStarts = false := by
          apply List.any_eq_false.mpr
          intro word hword
          simp only [queryStarts, List.mem_cons, List.not_mem_nil, or_false] at hword
          rcases hword with rfl | rfl | rfl
          · exact Bool.not_eq_true _ ▸ hopens.sees_eq_false (by decide) (by decide)
          · exact Bool.not_eq_true _ ▸ hopens.sees_eq_false (by decide) (by decide)
          · exact Bool.not_eq_true _ ▸ hparen
        rw [hstart]
        rfl
    have henclosed : (nestedAt (levels + 1)).enclosedQuery? cursor = .ok none (cursor.advance 1) := by
      refine (bind_of_ok (discard_bump_of_sees hsees)).trans ?_
      exact (bind_of_ok hquery).trans rfl
    have hkept : cursor.outcome? = none := by
      rw [Cursor.outcome?, hready.clean.outcomes_eq]
      rfl
    unfold Declines Nested.parenQuery?
    rw [bind_of_ok (sees_apply _ _), hsees, if_pos rfl, once_of_not_keeps hkept, attempt_apply, henclosed]
    · rfl
    · intro value after hrun
      rw [henclosed] at hrun
      cases hrun
      exact hready.clean.keeps_eq

end Parentheses

section Primaries

/-- The alternatives of a primary expression. -/
def primaries (nested : Nested) (unary? : Rule (Option Expr)) : List (Rule (Option Expr)) :=
  [Option.map Expr.constant <$> constant?, nested.array?, nested.arrayAgg?, nested.stringAgg?,
    nested.arrayQuery?, nested.special? unary?, Nested.nameExpr?]

/-- What an alternative gives is all there is, if nothing can be attached to it. -/
theorem operand?_of_firstOf {unary? : Rule (Option Expr)} {found : Expr} {middle : Cursor}
    (hfound : firstOf (primaries nested unary?) cursor = .ok (some found) middle)
    (hrest : found.isName = false ∧ middle = after ∧ found = expr ∨
      ∃ name, found = .name name ∧ nested.afterName name middle = .ok expr after)
    (hends : after.Ends 12) : nested.operand? unary? cursor = .ok (some expr) after := by
  have hsees (pattern : String) (hmem : (pattern, 12) ∈ Cursor.attachments) : after.sees pattern = false :=
    hends.sees (pattern, 12) hmem (Nat.le_refl 12)
  have hwindow : nested.window?.Declines after := window?_declines (hsees "OVER" (by decide))
  have hpostfix : nested.postfix?.Declines after :=
    postfix?_declines (hsees "[" (by decide)) (hsees "." (by decide))
  have hprimary : nested.primary? unary? cursor = .ok (some expr) after := by
    refine (bind_of_ok hfound).trans ?_
    rcases hrest with ⟨hname, rfl, rfl⟩ | ⟨name, rfl, hafter⟩
    · cases found with
      | name => cases hname
      | _ => exact (bind_of_ok hwindow).trans rfl
    · refine (bind_of_ok hafter).trans ?_
      exact (bind_of_ok hwindow).trans rfl
  unfold Nested.operand?
  rw [bind_of_ok hprimary]
  exact (bind_of_ok hpostfix.many).trans rfl

theorem operand?_of_number {text : String} (unary? : Rule (Option Expr))
    (hspells : cursor.Spells (Expr.constant { kind := .number, text }).spelling after)
    (hends : after.Ends 12) :
    nested.operand? unary? cursor = .ok (some (.constant { kind := .number, text })) after := by
  obtain ⟨hnext, rfl⟩ := hspells
  have hkind : Rule.kind? cursor = .ok (some .number) cursor := by
    rw [Rule.kind?, ask_apply, hnext.kind?]
    rfl
  have hbump : bump cursor = .ok (some text) (cursor.advance 1) := by
    rw [bump, hnext.text?]
    rfl
  have hconstant : constant? cursor = .ok (some { kind := .number, text }) (cursor.advance 1) := by
    refine (bind_of_ok hkind).trans ?_
    exact (bind_of_ok hbump).trans rfl
  exact operand?_of_firstOf (firstOf_of_ok (map_of_ok hconstant)) (.inl ⟨rfl, rfl, rfl⟩) hends

/-- A word that is not reserved is next, and nothing goes on with it. -/
structure IsAtName (cursor : Cursor) (raw : String) : Prop where
  token? : ∃ token, cursor.token? 0 = some token ∧ token.kind = .word ∧ token.text = raw
  reserved : Keyword.isReserved raw = false
  ends : (cursor.advance 1).Ends 12

namespace IsAtName

variable {raw : String} (h : IsAtName cursor raw)

include h

theorem sees_eq_false {pattern : String}
    (hpattern : Cursor.isWordPattern pattern = false ∨ Keyword.isReserved pattern = true) :
    cursor.sees pattern = false := by
  obtain ⟨token, htoken, hkind, rfl⟩ := h.token?
  have hopens : cursor.Opens 13 := ⟨token, htoken, .inr (.inl ⟨hkind, h.reserved⟩)⟩
  have hopeners : ∀ opener ∈ Cursor.openers, ¬13 ≤ opener.2 := by decide
  exact hopens.sees_eq_false hpattern fun opener hmem hlevel => absurd hlevel (hopeners opener hmem)

theorem seesAt_parenOpen : cursor.seesAt 1 "(" = false :=
  h.ends.sees ("(", 12) (by decide) (Nat.le_refl 12)

/-- No word makes a call here, whether it is reserved or not. -/
theorem skipAll_call (pattern : String) : skipAll [pattern, "("] cursor = .ok false cursor := by
  apply skipAll_of_not_seesAll
  simp [Cursor.seesAll, Cursor.seesAllAt, h.seesAt_parenOpen]

/-- None of the alternatives before that of names takes the word. -/
theorem firstOf_primaries (unary? : Rule (Option Expr)) :
    firstOf (primaries nested unary?) cursor = firstOf [Nested.nameExpr?] cursor := by
  obtain ⟨token, htoken, hkind, -⟩ := h.token?
  have hword : cursor.kind? 0 = some .word := by
    rw [Cursor.kind?, htoken, Option.map_some, hkind]
  have hconstants : ∀ word ∈ ["TRUE", "FALSE", "NULL"], Keyword.isReserved word = true := by decide
  have hspecials : ∀ word ∈ ["CASE", "STRUCT", "INTERVAL"], Keyword.isReserved word = true := by decide
  have hconstant : constant?.Declines cursor :=
    constant?_declines hword (.inl rfl) fun word hmem => h.sees_eq_false (.inr (hconstants word hmem))
  have harray : cursor.sees "ARRAY" = false := h.sees_eq_false (by decide)
  have hspecial : (nested.special? unary?).Declines cursor := by
    apply special?_declines unary? (h.sees_eq_false (by decide))
    · exact fun word hmem => h.sees_eq_false (.inr (hspecials word hmem))
    · exact fun hcall => absurd hcall (by simp [h.seesAt_parenOpen])
  unfold primaries
  rw [(hconstant.map _).firstOf_cons, (array?_declines harray (h.sees_eq_false (by decide))).firstOf_cons,
    (arrayAgg?_declines (h.skipAll_call "ARRAY_AGG")).firstOf_cons,
    (stringAgg?_declines (h.skipAll_call "STRING_AGG") (h.skipAll_call "SPLIT")).firstOf_cons,
    (arrayQuery?_declines harray).firstOf_cons, hspecial.firstOf_cons]

theorem nameExpr?_reads :
    Nested.nameExpr? cursor = .ok (some (.name { first := { raw } })) (cursor.advance 1) := by
  obtain ⟨token, htoken, hkind, rfl⟩ := h.token?
  have hidentifier : identifier? cursor = .ok (some { raw := token.text }) (cursor.advance 1) := by
    simp [identifier?, htoken, hkind, h.reserved]
  have hqualified : qualifiedName? cursor =
      .ok (some { first := { raw := token.text } }) (cursor.advance 1) := by
    refine (bind_of_ok hidentifier).trans ?_
    have hdot : (cursor.advance 1).sees "." = false := h.ends.sees (".", 12) (by decide) (Nat.le_refl 12)
    exact (bind_of_ok (dotSegment?_declines hdot).many).trans rfl
  unfold Nested.nameExpr?
  simp only [htoken, h.seesAt_parenOpen, Bool.and_false]
  exact map_of_ok hqualified

theorem afterName_reads (name : QualifiedName) :
    nested.afterName name (cursor.advance 1) = .ok (.name name) (cursor.advance 1) := by
  have hopen : (cursor.advance 1).sees "(" = false := h.seesAt_parenOpen
  have hask : Rule.kind? (cursor.advance 1) = .ok ((cursor.advance 1).kind? 0) (cursor.advance 1) := rfl
  refine (bind_of_ok (skip_of_not hopen)).trans ?_
  refine (bind_of_ok hask).trans ?_
  simp only [h.ends.kind?, decide_false, Bool.and_false]
  rfl

/-- A plain name is taken by the last of the alternatives. -/
theorem operand?_reads (unary? : Rule (Option Expr)) :
    nested.operand? unary? cursor = .ok (some (.name { first := { raw } })) (cursor.advance 1) := by
  have hfound : firstOf (primaries nested unary?) cursor =
      .ok (some (.name { first := { raw } })) (cursor.advance 1) := by
    rw [h.firstOf_primaries unary?]
    exact firstOf_of_ok h.nameExpr?_reads
  exact operand?_of_firstOf hfound (.inr ⟨_, rfl, h.afterName_reads _⟩) h.ends

end IsAtName

/-- What is in parentheses is read one level deeper. -/
theorem operand?_of_paren (unary? : Rule (Option Expr)) (h : (Expr.paren inner).IsArranged levels)
    (hready : cursor.IsReady levels) (hspells : cursor.Spells (Expr.paren inner).spelling after)
    (hinner : ∀ last, (cursor.advance 1).Spells inner.spelling last → last.Ends 1 →
      (nestedAt levels).expr (cursor.advance 1) = .ok inner last)
    (hends : after.Ends 12) :
    (nestedAt levels).operand? unary? cursor = .ok (some (.paren inner)) after := by
  obtain ⟨hopen, last, hspellsInner, hclose, rfl⟩ := Cursor.spells_enclosed.mp hspells
  have hsees : cursor.sees "(" = true := hopen.sees_of (by decide)
  have hstart : cursor.seesAny queryStarts = true := List.any_eq_true.mpr ⟨"(", by decide, hsees⟩
  have hseesClose : last.sees ")" = true := hclose.sees_of (by decide)
  have hclosed : (nestedAt levels).closedExpr (cursor.advance 1) = .ok inner (last.advance 1) := by
    refine (bind_of_ok (hinner last hspellsInner (Cursor.ends_of_parenClose hseesClose))).trans ?_
    exact (bind_of_ok (discard_expect_of_sees hseesClose)).trans rfl
  have hparen : (nestedAt levels).parenExpr cursor = .ok (.paren inner) (last.advance 1) := by
    refine (bind_of_ok (parenQuery?_declines h hready hspells)).trans ?_
    refine (bind_of_ok (discard_expect_of_sees hsees)).trans ?_
    exact (bind_of_ok hclosed).trans rfl
  have hspecial : (nestedAt levels).special? unary? cursor = .ok (some (.paren inner)) (last.advance 1) := by
    refine (bind_of_ok (sees_apply _ _)).trans ?_
    rw [hsees]
    exact (bind_of_ok hparen).trans rfl
  have hfound : firstOf (primaries (nestedAt levels) unary?) cursor =
      .ok (some (.paren inner)) (last.advance 1) := by
    rw [primaries, Nested.firstOf_primaries_of_start hstart]
    exact firstOf_of_ok hspecial
  exact operand?_of_firstOf hfound (.inl ⟨rfl, rfl, rfl⟩) hends

end Primaries

end Grammar

end SqlLayout
