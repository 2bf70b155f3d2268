import SqlLayout.Proofs.Cursor.Advancing
import SqlLayout.Proofs.Cursor.Restoring
import SqlLayout.Proofs.Grammar.Closed

/-!
# Rules as Alternatives

The rules of the grammar can be tried one after the other and over and over: one that finds something takes
a token at least and stays within the tokens, one that finds nothing leaves the cursor to the next, and no
outcome changes the depth. That a rule goes on is a closed property. That it restores the cursor is told by
its first steps, since every rule either tries alternatives or finds something once it has taken a token.
-/

namespace SqlLayout

namespace Grammar

open Rule

section Levels

theorem restores_sign? : sign?.Restores :=
  .skip "-" (finds_some _) <| .skip "+" (finds_some _) <| .skip "~" (finds_some _) restores_none

theorem restores_identifier? : identifier?.Restores := by
  rw [IsClosed.identifier?_eq]
  exact restores_takeIf _

theorem restores_qualifiedName? : qualifiedName?.Restores :=
  restores_identifier?.found (fun _ => finds_bind fun _ => finds_some _) restores_none

theorem restores_leftAssoc {operand? : Rule (Option Expr)} (h : operand?.Restores)
    (op? : Rule (Option BinaryOp)) : (leftAssoc operand? op?).Restores :=
  h.found (fun _ => finds_bind fun _ => finds_some _) restores_none

theorem restores_typeWith? (element : Rule SqlType) (fields : Rule (List Field)) :
    (typeWith? element fields).Restores := by
  have hname : (takeKind? .word).Restores := by
    rw [IsClosed.takeKind?_eq]
    exact restores_takeIf _
  refine .skipAll _ (finds_some _) ?_
  refine .skipAll _ (finds_bind fun _ => finds_bind fun _ => finds_some _) ?_
  refine .skipAll _ (finds_some _) ?_
  refine .skipAll _ (finds_bind fun _ => finds_some _) ?_
  exact hname.found (fun _ => finds_bind fun _ => finds_some _) restores_none

theorem restores_typeAt? (levels : Nat) : (typeAt? levels).Restores :=
  restores_typeWith? _ _

namespace Nested

variable (nested : Nested)

theorem restores_primary? (unary? : Rule (Option Expr)) : (nested.primary? unary?).Restores := by
  refine (restores_firstOf _).found (fun found => ?_) restores_none
  have hwindow (expr : Expr) : (nested.windowed? expr).Finds := by
    apply finds_bind
    rintro (_ | window)
    · exact finds_some _
    · exact finds_some _
  cases found with
  | _ => exact finds_bind hwindow

theorem restores_unaryUpTo? (steps : Nat) : (nested.unaryUpTo? steps).Restores := by
  induction steps with
  | zero => exact restores_none
  | succ steps ih =>
    refine restores_sign?.found (fun _ => finds_bind fun _ => finds_some _) ?_
    exact (nested.restores_primary? _).found (fun _ => finds_bind fun _ => finds_some _) restores_none

theorem restores_unary? : nested.unary?.Restores :=
  fun cursor => nested.restores_unaryUpTo? (cursor.remaining + 1) cursor

theorem restores_bitOr? : nested.bitOr?.Restores := by
  have hsum : nested.sum?.Restores := restores_leftAssoc (restores_leftAssoc nested.restores_unary? _) _
  exact restores_leftAssoc (restores_leftAssoc (restores_leftAssoc (restores_leftAssoc hsum _) _) _) _

theorem restores_or? : nested.or?.Restores := by
  have hcompared : nested.compared?.Restores :=
    nested.restores_bitOr?.found (fun _ => finds_bind fun _ => finds_some _) restores_none
  have hnot : nested.not?.Restores := .skip "NOT" (finds_bind fun _ => finds_some _) hcompared
  exact restores_leftAssoc (restores_leftAssoc hnot _) _

theorem restores_parenQuery? : nested.parenQuery?.Restores :=
  restores_ask fun _ => .ite (restores_once _) restores_none

theorem restores_setExpr? : nested.setExpr?.Restores := by
  have hselect : nested.select?.Restores := by
    refine .skip "SELECT" (finds_bind fun distinct => finds_bind fun shape => finds_bind fun items => ?_)
      restores_none
    have hrest (source : Option TableExpr) : Finds (do
        let filter ← nested.exprAfter? "WHERE"
        let groupBy ← nested.groupBy
        let having ← nested.exprAfter? "HAVING"
        let qualify ← nested.exprAfter? "QUALIFY"
        return some ({ distinct, shape, items, source, filter, groupBy, having, qualify } : Select)) :=
      finds_bind fun _ => finds_bind fun _ => finds_bind fun _ => finds_bind fun _ => finds_some _
    apply finds_bind
    rintro (_ | _)
    · exact finds_bind hrest
    · exact finds_bind hrest
  have hoperand : nested.setOperand?.Restores := by
    refine hselect.found (fun _ => finds_some _) ?_
    exact nested.restores_parenQuery?.found (fun _ => finds_some _) restores_none
  exact hoperand.found (fun _ => finds_bind fun _ => finds_some _) restores_none

theorem restores_tableExpr? : nested.tableExpr?.Restores := by
  have hfactor : nested.tableFactor?.Restores := by
    refine .skipAll _ (finds_bind fun _ => finds_some _) ?_
    refine nested.restores_parenQuery?.found (fun _ => finds_bind fun _ => finds_some _) ?_
    exact restores_qualifiedName?.found (fun _ => finds_bind fun _ => finds_some _) restores_none
  exact hfactor.found (fun _ => finds_bind fun _ => finds_some _) restores_none

theorem restores_statement? : nested.statement?.Restores :=
  (restores_firstOf _).found (fun _ => finds_bind fun _ => finds_some _) restores_none

theorem restores_selectItem? (h : nested.expr?.Restores) : nested.selectItem?.Restores := by
  refine (restores_attempt _).found (fun _ => finds_some _) ?_
  exact h.found (fun _ => finds_bind fun _ => finds_some _) restores_none

theorem restores_expr?_nestedAt (levels : Nat) : (nestedAt levels).expr?.Restores := by
  cases levels with
  | zero => exact restores_tooDeep
  | succ levels => exact (restores_or? _).descend

theorem restores_queryHere?_nestedAt (levels : Nat) : (nestedAt levels).queryHere?.Restores := by
  have hquery : (nestedAt levels).query?.Restores := by
    cases levels with
    | zero => exact restores_tooDeep
    | succ levels => exact (restores_attempt _).descend
  exact restores_ask fun _ => .ite hquery restores_none

theorem restores_type?_nestedAt (levels : Nat) : (nestedAt levels).type?.Restores := by
  cases levels with
  | zero => exact restores_typeAt? 0
  | succ levels => exact restores_typeAt? _

end Nested

end Levels

end Grammar

namespace Rule

variable {α : Type}

/-- What a list of alternatives and a repetition rely on at a cursor. -/
structure IsAlternativeAt (rule : Rule (Option α)) (cursor : Cursor) : Prop where
  found : ∀ value after, rule cursor = .ok (some value) after →
    cursor.pos < after.pos ∧ after.pos ≤ cursor.tokens.size
  notFound : ∀ after, rule cursor = .ok none after →
    after.pos = cursor.pos ∧ after.drained = cursor.drained
  after_ok : ∀ value after, rule cursor = .ok value after → after.depth = cursor.depth ∧ after.Remembers
  after_error : ∀ failure after, rule cursor = .error failure after →
    after.depth = cursor.depth ∧ after.Remembers

theorem isAlternativeAt_of_restores {rule : Rule (Option α)} (hadvances : rule.Advances ifFound)
    (hrestores : rule.Restores) {cursor : Cursor} (h : cursor.Remembers) : rule.IsAlternativeAt cursor where
  found value after hrun := by
    obtain ⟨hgoes, hfound⟩ := hadvances.of_ok h hrun
    have hlt := hfound rfl
    exact ⟨hlt, hgoes.pos_le_size hlt⟩
  notFound after hrun := by
    have hmark := hrestores cursor after hrun
    exact ⟨congrArg Mark.pos hmark, congrArg Mark.drained hmark⟩
  after_ok value after hrun := by
    have hgoes := (hadvances.of_ok h hrun).1
    exact ⟨hgoes.depth_eq, hgoes.remembers⟩
  after_error failure after hrun := by
    have hgoes := hadvances.of_error h hrun
    exact ⟨hgoes.depth_eq, hgoes.remembers⟩

end Rule

namespace Grammar

open Rule

theorem satisfies_advances (levels : Nat) :
    (nestedAt levels).Satisfies fun takes rule => rule.Advances takes :=
  Nested.satisfies_nestedAt isClosed_advances levels

theorem advances_comments : comments.Advances never := by
  intro cursor hcursor
  exact ⟨⟨hcursor, rfl, rfl, Nat.le_refl _, Nat.le_max_left _ _⟩, False.elim⟩

theorem advances_statement? (levels : Nat) : (nestedAt levels).statement?.Advances ifFound := by
  have hP := isClosed_advances
  have haction := (satisfies_advances levels).action? hP
  exact hP.found haction (fun _ => hP.both advances_comments fun _ => hP.give _) hP.nothing

variable {cursor : Cursor}

/-- A rule read with the levels that are left is an alternative if it is one for any number of them. -/
theorem isAlternativeAt_atDepth {α : Type} {rule : Nested → Rule (Option α)}
    (hadvances : ∀ levels, (rule (nestedAt levels)).Advances ifFound)
    (hrestores : ∀ levels, (rule (nestedAt levels)).Restores) (h : cursor.Remembers) :
    (atDepth rule).IsAlternativeAt cursor := by
  have hrule := isAlternativeAt_of_restores (hadvances (Cursor.maxDepth - cursor.depth)) (hrestores _) h
  exact ⟨hrule.found, hrule.notFound, hrule.after_ok, hrule.after_error⟩

/-- A rule that finds something goes on by one token at least and not past the end, one that finds nothing
leaves the cursor where it was and all comments in place, and the depth is the same after all outcomes,
failures included. What is kept stays fit to be replayed. -/
theorem isAlternativeAt_of_remembers (h : cursor.Remembers) :
    expr?.IsAlternativeAt cursor ∧ query?.IsAlternativeAt cursor ∧
      (atDepth Nested.setExpr?).IsAlternativeAt cursor ∧
      (atDepth Nested.selectItem?).IsAlternativeAt cursor ∧
      (atDepth Nested.tableExpr?).IsAlternativeAt cursor ∧ type?.IsAlternativeAt cursor ∧
      qualifiedName?.IsAlternativeAt cursor ∧ (atDepth Nested.statement?).IsAlternativeAt cursor ∧
      (atDepth Nested.parenQuery?).IsAlternativeAt cursor := by
  have hP := isClosed_advances
  have hlevels := satisfies_advances
  have hexpr := Nested.restores_expr?_nestedAt
  refine ⟨?_, ?_, ?_, ?_, ?_, ?_, ?_, ?_, ?_⟩
  · exact isAlternativeAt_atDepth (fun levels => (hlevels levels).expr?) hexpr h
  · exact isAlternativeAt_atDepth (fun levels => (hlevels levels).queryHere? hP)
      Nested.restores_queryHere?_nestedAt h
  · exact isAlternativeAt_atDepth (fun levels => (hlevels levels).setExpr? hP)
      (fun _ => Nested.restores_setExpr? _) h
  · exact isAlternativeAt_atDepth (fun levels => (hlevels levels).selectItem? hP)
      (fun levels => Nested.restores_selectItem? _ (hexpr levels)) h
  · exact isAlternativeAt_atDepth (fun levels => (hlevels levels).tableExpr? hP)
      (fun _ => Nested.restores_tableExpr? _) h
  · exact isAlternativeAt_atDepth (fun levels => (hlevels levels).type?) Nested.restores_type?_nestedAt h
  · exact isAlternativeAt_of_restores hP.qualifiedName? restores_qualifiedName? h
  · exact isAlternativeAt_atDepth advances_statement? (fun _ => Nested.restores_statement? _) h
  · exact isAlternativeAt_atDepth (fun levels => (hlevels levels).parenQuery? hP)
      (fun _ => Nested.restores_parenQuery? _) h

/-- A kept query that is replayed. -/
theorem isAlternativeAt_of_kept :
    ∃ (cursor : Cursor) (query : Query) (after : Cursor), cursor.Remembers ∧
      atDepth Nested.parenQuery? cursor = .ok (some query) after ∧
      cursor.pos < after.pos ∧ after.pos ≤ cursor.tokens.size := by
  let stream : TokenStream :=
    { tokens := [⟨.parenOpen, "(", 0⟩, ⟨.word, "SELECT", 1⟩, ⟨.star, "*", 8⟩, ⟨.parenClose, ")", 9⟩] }
  let select : Select :=
    { distinct := false, shape := none, items := [.wildcard none [] []], source := none, filter := none,
      groupBy := [], having := none, qualify := none }
  let query : Query := { common := none, body := .select select, order := none }
  let cursor := (Cursor.ofStream 10 stream).keep 0 (some (query, { pos := 4, drained := 0 }))
  have hcursor : cursor.Remembers := by
    apply (Cursor.remembers_ofStream 10 stream).keep
    rintro kept ⟨⟩
    exact ⟨by decide, by decide⟩
  have hrun : atDepth Nested.parenQuery? cursor = .ok (some query) (cursor.advance 4) := rfl
  obtain ⟨-, -, -, -, -, -, -, -, hparen⟩ := isAlternativeAt_of_remembers hcursor
  exact ⟨cursor, query, cursor.advance 4, hcursor, hrun, hparen.found _ _ hrun⟩

end Grammar

end SqlLayout
