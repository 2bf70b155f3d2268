import SqlLayout.Grammar.Expr
import SqlLayout.Proofs.Cursor.Step

/-!
# What a Rule Declines

A rule that starts with a token of its own declines wherever that token is not next. Why it is not next
is for the caller to say: another token may be, or the word that is next is not reserved, or an expression
ends there.
-/

namespace SqlLayout.Grammar

open Rule

variable {cursor : Cursor}

section Operators

theorem opOf?_declines {ops : List (String × BinaryOp)}
    (h : ∀ op ∈ ops, cursor.sees op.1 = false) : (opOf? ops).Declines cursor := by
  induction ops with
  | nil => rfl
  | cons op ops ih =>
    unfold Declines opOf?
    rw [bind_of_ok (skip_of_not (h op List.mem_cons_self))]
    exact ih fun other hother => h other (List.mem_cons_of_mem op hother)

theorem shiftOp?_declines (hleft : cursor.sees "<<" = false)
    (hright : cursor.seesJoined [">", ">"] = false) : shiftOp?.Declines cursor := by
  have htake : takeJoined? [">", ">"] cursor = .ok none cursor := by
    rw [takeJoined?, hright]
    rfl
  unfold Declines shiftOp?
  refine (bind_of_ok (skip_of_not hleft)).trans ?_
  exact bind_of_ok htake

/-- What a comparison can start with, without the patterns of operators. -/
def comparisonWords : List String :=
  ["IS", "NOT", "LIKE", "IN", "BETWEEN"]

def comparisonOps : List (String × BinaryOp) :=
  [("=", .eq), ("!=", .notEq), ("<>", .ltGt), ("<=", .ltEq), (">=", .gtEq), ("<", .lt), (">", .gt)]

theorem comparison?_declines {nested : Nested} (hops : ∀ op ∈ comparisonOps, cursor.sees op.1 = false)
    (hwords : ∀ word ∈ comparisonWords, cursor.sees word = false) :
    nested.comparison?.Declines cursor := by
  have hskip {word : String} (hword : word ∈ comparisonWords) :
      skip word cursor = .ok false cursor :=
    skip_of_not (hwords word hword)
  have hop : (opOf? comparisonOps).Declines cursor := opOf?_declines hops
  have hnegated : Nested.negated cursor = .ok false cursor := by
    unfold Nested.negated
    rw [bind_of_ok (ask_apply _ _), hwords "NOT" (by decide)]
    rfl
  unfold Declines Nested.comparison?
  refine (bind_of_ok hop).trans ?_
  refine (bind_of_ok (hskip (by decide))).trans ?_
  refine (bind_of_ok hnegated).trans ?_
  refine (bind_of_ok (hskip (by decide))).trans ?_
  refine (bind_of_ok (hskip (by decide))).trans ?_
  exact bind_of_ok (hskip (by decide))

theorem sign?_declines (h : ∀ sign ∈ ["-", "+", "~"], cursor.sees sign = false) :
    sign?.Declines cursor := by
  refine (bind_of_ok (skip_of_not (h "-" (by decide)))).trans ?_
  refine (bind_of_ok (skip_of_not (h "+" (by decide)))).trans ?_
  exact bind_of_ok (skip_of_not (h "~" (by decide)))

end Operators

section Suffixes

variable {nested : Nested}

theorem dotSegment?_declines (h : cursor.sees "." = false) : dotSegment?.Declines cursor := by
  apply Declines.attempt
  exact bind_of_ok (skip_of_not h)

theorem window?_declines (h : cursor.sees "OVER" = false) : nested.window?.Declines cursor :=
  bind_of_ok (skip_of_not h)

theorem postfix?_declines (hopen : cursor.sees "[" = false) (hdot : cursor.sees "." = false) :
    nested.postfix?.Declines cursor := by
  unfold Declines Nested.postfix?
  refine (bind_of_ok (skip_of_not hopen)).trans ?_
  exact bind_of_ok (dotSegment?_declines hdot)

end Suffixes

section Primaries

variable {nested : Nested}

/-- A word or a symbol that is none of the words for constants. -/
theorem constant?_declines {kind : Token.Kind} (hkind : cursor.kind? 0 = some kind)
    (hclass : kind = .word ∨ kind.isSymbol = true)
    (hwords : ∀ word ∈ ["TRUE", "FALSE", "NULL"], cursor.sees word = false) :
    constant?.Declines cursor := by
  have htake {word : String} (hword : word ∈ ["TRUE", "FALSE", "NULL"]) :
      take? word cursor = .ok none cursor :=
    take?_of_not (hwords word hword)
  have htruth : takeAny? ["TRUE", "FALSE"] cursor = .ok none cursor := by
    refine (bind_of_ok (htake (by decide))).trans ?_
    exact bind_of_ok (htake (by decide))
  have hask : Rule.kind? cursor = .ok (some kind) cursor := by
    rw [Rule.kind?, ask_apply, hkind]
  refine (bind_of_ok hask).trans ?_
  rcases hclass with rfl | hsymbol
  · refine (bind_of_ok htruth).trans ?_
    exact bind_of_ok (skip_of_not (hwords "NULL" (by decide)))
  · cases kind <;> first | exact absurd hsymbol (by decide) | rfl

theorem array?_declines (hword : cursor.sees "ARRAY" = false) (hopen : cursor.sees "[" = false) :
    nested.array?.Declines cursor := by
  have hhead : nested.arrayHead?.Declines cursor := by
    refine (bind_of_ok (skipAll_of_not hword)).trans ?_
    refine (bind_of_ok (skipAll_of_not hword)).trans ?_
    exact bind_of_ok (skip_of_not hopen)
  exact bind_of_ok hhead

theorem arrayAgg?_declines (h : skipAll ["ARRAY_AGG", "("] cursor = .ok false cursor) :
    nested.arrayAgg?.Declines cursor :=
  bind_of_ok h

theorem stringAgg?_declines (h : skipAll ["STRING_AGG", "("] cursor = .ok false cursor)
    (hsplit : skipAll ["SPLIT", "("] cursor = .ok false cursor) : nested.stringAgg?.Declines cursor := by
  have hfunction : Nested.stringFunction?.Declines cursor := by
    refine (bind_of_ok h).trans ?_
    exact bind_of_ok hsplit
  exact bind_of_ok hfunction

theorem arrayQuery?_declines (h : cursor.sees "ARRAY" = false) : nested.arrayQuery?.Declines cursor :=
  bind_of_ok (skipAll_of_not h)

theorem special?_declines (unary? : Rule (Option Expr)) (hparen : cursor.sees "(" = false)
    (hwords : ∀ word ∈ ["CASE", "STRUCT", "INTERVAL"], cursor.sees word = false)
    (hcall : cursor.seesAt 1 "(" = true →
      ∀ word ∈ ["CAST", "SAFE_CAST", "EXTRACT", "EXISTS"], cursor.sees word = false) :
    (nested.special? unary?).Declines cursor := by
  have hopen : Rule.sees "(" cursor = .ok false cursor := by
    rw [sees_apply, hparen]
  refine (bind_of_ok hopen).trans ?_
  refine (bind_of_ok (skip_of_not (hwords "CASE" (by decide)))).trans ?_
  refine (bind_of_ok (skip_of_not (hwords "STRUCT" (by decide)))).trans ?_
  refine (bind_of_ok (skip_of_not (hwords "INTERVAL" (by decide)))).trans ?_
  refine (bind_of_ok (ask_apply _ _)).trans ?_
  cases hnext : cursor.seesAt 1 "(" with
  | false => rfl
  | true =>
    refine (bind_of_ok (skip_of_not (hcall hnext "CAST" (by decide)))).trans ?_
    refine (bind_of_ok (skip_of_not (hcall hnext "SAFE_CAST" (by decide)))).trans ?_
    refine (bind_of_ok (skip_of_not (hcall hnext "EXTRACT" (by decide)))).trans ?_
    exact bind_of_ok (skip_of_not (hcall hnext "EXISTS" (by decide)))

/-- No expression starts with a star. -/
theorem primary?_declines_of_star (hstar : cursor.sees "*" = true) (unary? : Rule (Option Expr)) :
    (nested.primary? unary?).Declines cursor := by
  have hnot {pattern : String} (hpattern : Cursor.excludes "*" pattern = true) :
      cursor.sees pattern = false :=
    Cursor.sees_eq_false hstar hpattern
  have hnone {patterns : List String} (hpatterns : ∀ pattern ∈ patterns, Cursor.excludes "*" pattern = true) :
      ∀ pattern ∈ patterns, cursor.sees pattern = false :=
    fun pattern hpattern => hnot (hpatterns pattern hpattern)
  have hcall {word : String} (hword : Cursor.excludes "*" word = true) :
      skipAll [word, "("] cursor = .ok false cursor :=
    skipAll_of_not (hnot hword)
  obtain ⟨token, htoken, hfits⟩ := Cursor.token_of_seesAt hstar
  have hsymbol : token.kind.isSymbol = true := (Bool.and_eq_true_iff.mp hfits).1
  have hword : token.kind ≠ .word ∧ token.kind ≠ .quotedIdent := by
    cases hkind : token.kind <;> rw [hkind] at hsymbol <;> first | decide | cases hsymbol
  have hkind : cursor.kind? 0 = some token.kind := by
    rw [Cursor.kind?, htoken]
    rfl
  have hconstant : constant?.Declines cursor := constant?_declines hkind (.inr hsymbol) (hnone (by decide))
  have hspecial : (nested.special? unary?).Declines cursor :=
    special?_declines unary? (hnot (by decide)) (hnone (by decide)) fun _ => hnone (by decide)
  have hname : Nested.nameExpr?.Declines cursor := by
    have hidentifier : identifier?.Declines cursor := by
      simp [Declines, identifier?, htoken, hword]
    have hqualified : qualifiedName?.Declines cursor := bind_of_ok hidentifier
    simp only [Declines, Nested.nameExpr?, htoken, hword, decide_false, Bool.false_and]
    exact hqualified.map Expr.name
  have hfound : (Rule.firstOf [Option.map Expr.constant <$> constant?, nested.array?, nested.arrayAgg?,
      nested.stringAgg?, nested.arrayQuery?, nested.special? unary?, Nested.nameExpr?]).Declines cursor := by
    unfold Declines
    rw [(hconstant.map _).firstOf_cons, (array?_declines (hnot (by decide)) (hnot (by decide))).firstOf_cons,
      (arrayAgg?_declines (hcall (by decide))).firstOf_cons,
      (stringAgg?_declines (hcall (by decide)) (hcall (by decide))).firstOf_cons,
      (arrayQuery?_declines (hnot (by decide))).firstOf_cons, hspecial.firstOf_cons, hname.firstOf_cons]
    rfl
  exact bind_of_ok hfound

theorem unary?_declines_of_star (hstar : cursor.sees "*" = true) : nested.unary?.Declines cursor := by
  have hsigns : ∀ sign ∈ ["-", "+", "~"], Cursor.excludes "*" sign = true := by decide
  refine (bind_of_ok (sign?_declines fun sign hsign => ?_)).trans ?_
  · exact Cursor.sees_eq_false hstar (hsigns sign hsign)
  · exact bind_of_ok (primary?_declines_of_star hstar _)

end Primaries

end SqlLayout.Grammar
