import SqlLayout.Proofs.Layout.Legible
import SqlLayout.Proofs.Reading.Primary
import SqlLayout.Proofs.Sound.Statement
import SqlLayout.Proofs.Token.Lexing

/-!
# Operations Are Read Back

Every layout of an operation that binds as it should and nests no deeper than expressions may is read
as that operation. The induction is on the levels left: what stands in parentheses, in a list or after a
sign is read with one level less.
-/

namespace SqlLayout

open Rule

namespace Grammar

variable {cursor after : Cursor} {levels : Nat} {nested : Nested} {expr : Expr}

section Lists

theorem ends_of_comma (h : cursor.sees "," = true) : cursor.Ends 1 :=
  Cursor.ends_of_sees h (by decide) fun _ => Cursor.seesJoined_of_not (Cursor.sees_eq_false h (by decide))

/-- Where an item on its own is spelled, it is read. -/
def ReadsItem (nested : Nested) (levels : Nat) (item : Expr) : Prop :=
  ∀ cursor after : Cursor, cursor.IsReady levels → cursor.Spells item.spelling after → after.Ends 1 →
    nested.expr cursor = .ok item after

/-- A list after `IN` is read as one, since its first item does not start like a query. -/
theorem memberTarget_of_spells {first : Expr} {rest : List Expr}
    (hitems : ∀ item ∈ first :: rest, ReadsItem nested levels item)
    (hfirst : ∀ cursor after : Cursor, cursor.Spells first.spelling after → cursor.Opens 0)
    (hready : cursor.IsReady levels)
    (hspells : cursor.Spells (MemberTarget.list (first :: rest)).spelling after) :
    nested.memberTarget cursor = .ok (.list (first :: rest)) after := by
  have hspelling : (MemberTarget.list (first :: rest)).spelling =
      Atom.parenOpen :: (Spelling.commas ((first :: rest).map Expr.spelling) ++ [Atom.parenClose]) := by
    rw [← exprSpellings_eq]
    rfl
  rw [hspelling] at hspells
  obtain ⟨hopen, hspells⟩ := hspells
  obtain ⟨last, hspellsItems, hclose, rfl⟩ := Cursor.spells_append.mp hspells
  have hsees : cursor.sees "(" = true := hopen.sees_of (by decide)
  have hseesClose : last.sees ")" = true := hclose.sees_of (by decide)
  have hopens : (cursor.advance 1).Opens 0 := by
    obtain ⟨tail, htail⟩ := commas_cons first.spelling (rest.map Expr.spelling)
    rw [List.map_cons, htail] at hspellsItems
    obtain ⟨middle, hspellsFirst, -⟩ := Cursor.spells_append.mp hspellsItems
    exact hfirst _ middle hspellsFirst
  have hselect : (cursor.advance 1).sees "SELECT" = false := hopens.sees_eq_false (by decide) (by decide)
  have hwith : (cursor.advance 1).sees "WITH" = false := hopens.sees_eq_false (by decide) (by decide)
  have hlist := commaSeparated_of_spells hitems (fun _ => ends_of_comma) (hready.advance 1) hspellsItems
    (Cursor.ends_of_parenClose hseesClose) (Cursor.sees_eq_false hseesClose (by decide))
  have hquery : (cursor.sees "(" && (cursor.seesAt 1 "SELECT" || cursor.seesAt 1 "WITH")) = false := by
    have hselect : cursor.seesAt 1 "SELECT" = false := hselect
    have hwith : cursor.seesAt 1 "WITH" = false := hwith
    simp [hselect, hwith]
  refine (bind_of_ok (skipAll_of_not (Cursor.sees_eq_false hsees (by decide)))).trans ?_
  refine (bind_of_ok (ask_apply _ _)).trans ?_
  refine (bind_of_ok (discard_expect_of_sees hsees)).trans ?_
  rw [hquery]
  refine (bind_of_ok hlist).trans ?_
  exact (bind_of_ok (discard_expect_of_sees hseesClose)).trans rfl

end Lists

section Descent

/-- With a level more, what stands on its own is read if it is arranged within the levels inside. -/
theorem readsItem_of_inner (h : ReadsOperands (nestedAt levels) levels (Expr.IsArranged levels))
    (hexpr : expr.IsArranged levels) : ReadsItem (nestedAt (levels + 1)) (levels + 1) expr := by
  intro cursor after hready hspells hends
  have hrun := readsBack_or (Expr.IsArranged.hasOperands levels) h expr hexpr hexpr.operation.one_le_level
    { cursor with depth := cursor.depth + 1 } { after with depth := after.depth + 1 } hready.deeper
    hspells.deeper hends.deeper
  exact require_of_ok (descend_of_ok hready.depth_lt hrun) _

theorem readsOperands_of_inner
    (h : ∀ inside, levels = inside + 1 → ReadsOperands (nestedAt inside) inside (Expr.IsArranged inside)) :
    ReadsOperands (nestedAt levels) levels (Expr.IsArranged levels) where
  notOperand := by
    intro operand hgood cursor after hready hspells hends
    obtain ⟨inside, rfl, hoperand, hlevel⟩ := hgood.unary
    have hrun := readsBack_negation (Expr.IsArranged.hasOperands inside) (h inside rfl) operand hoperand
      hlevel { cursor with depth := cursor.depth + 1 } { after with depth := after.depth + 1 }
      hready.deeper hspells.deeper hends.deeper
    exact descend_of_ok hready.depth_lt (require_of_ok hrun _)
  signOperand := by
    intro op operand hop hgood cursor after hready hspells hends
    obtain ⟨inside, rfl, hoperand, hlevel⟩ := hgood.unary
    have heleven : 11 ≤ operand.level := by
      cases op with
      | not => exact absurd rfl hop
      | _ => exact hlevel
    have hrun := readsBack_unary (Expr.IsArranged.hasOperands inside) (h inside rfl) operand hoperand
      heleven { cursor with depth := cursor.depth + 1 } { after with depth := after.depth + 1 }
      hready.deeper hspells.deeper hends.deeper
    exact descend_of_ok hready.depth_lt (require_of_ok hrun _)
  operand? := by
    intro unary? expr hgood hlevel cursor after hready hspells hends
    cases hgood.operation with
    | number => exact operand?_of_number unary? hspells hends
    | name hword hreserved =>
      obtain ⟨htoken, rfl⟩ := Expr.IsArranged.exists_word hword hspells
      exact IsAtName.operand?_reads ⟨htoken, hreserved, hends⟩ unary?
    | paren =>
      obtain ⟨inside, rfl, hinner⟩ := hgood.paren
      apply operand?_of_paren unary? hgood hready hspells _ hends
      intro last hspellsInner hendsInner
      exact readsItem_of_inner (h inside rfl) hinner _ last (hready.advance 1) hspellsInner hendsInner
    | unary op => cases op <;> simp [Expr.level, UnaryOp.level] at hlevel
    | binary op => cases op <;> simp [Expr.level, BinaryOp.level] at hlevel
    | _ => simp [Expr.level] at hlevel
  targets := by
    intro operand isNegated target hgood cursor after hready hspells
    obtain ⟨inside, first, rest, rfl, rfl, hitems⟩ := hgood.items
    apply memberTarget_of_spells _ _ hready hspells
    · exact fun item hmem => readsItem_of_inner (h inside rfl) (hitems item hmem)
    · intro other last hspellsFirst
      exact ((hitems first List.mem_cons_self).opens hspellsFirst).1.mono (Nat.zero_le _)

/-- What operators are put on is read back with any number of levels. -/
theorem readsOperands_nestedAt (levels : Nat) :
    ReadsOperands (nestedAt levels) levels (Expr.IsArranged levels) := by
  induction levels with
  | zero => exact readsOperands_of_inner fun inside hlevels => absurd hlevels (by simp)
  | succ levels ih =>
    apply readsOperands_of_inner
    rintro inside ⟨⟩
    exact ih

end Descent

end Grammar

/-- The tokens of a text are those of what it is a layout of, up to the end. -/
theorem Cursor.exists_spells {source : String} {spelling : Spelling} (hphrase : spelling.IsPhrase)
    (hexpands : Expands spelling source.toList) :
    ∃ cursor after, Cursor.ofSource source = .ok cursor ∧ cursor.depth = 0 ∧
      cursor.forgetful.IsReady maxDepth ∧ cursor.forgetful.Spells spelling after ∧
      after.tokens.size = after.pos := by
  have hstream := ofSource_eq_sort hphrase.legible hexpands
  let cursor := Cursor.ofStream source.utf8ByteSize (TokenStream.sort 0 (Token.lex source))
  have hsource : Cursor.ofSource source = .ok cursor := by
    rw [Cursor.ofSource, hstream]
    rfl
  have hshows := sort_tokens (realizes_lex hphrase.legible hexpands) hphrase.legible 0
  have hspells : cursor.forgetful.Spells spelling _ :=
    Cursor.spells_of_shows hphrase.plain hshows (by simp [cursor, Cursor.ofStream, Cursor.forgetful])
  refine ⟨cursor, _, hsource, rfl, ⟨Grammar.isClean_ofStream hstream, Nat.le_of_eq (Nat.zero_add _)⟩,
    hspells, ?_⟩
  simp [cursor, Cursor.ofStream, Cursor.forgetful, Cursor.advance]

namespace Expr

variable {expr : Expr}

/-- Every layout of an operation is read as the operation. -/
theorem ofSource_render (h : expr.IsOperation) (hbinds : expr.BindsThroughout)
    (hnesting : expr.wholeNesting ≤ Cursor.maxDepth) (style : Style) :
    Expr.ofSource (expr.render style) = .ok expr := by
  have hphrase : expr.spelling.IsPhrase := (Node.isLegible (.expr expr) (h.isSound hbinds)).phrase
  obtain ⟨cursor, after, hsource, hdepth, hready, hspells, hend⟩ :=
    Cursor.exists_spells hphrase (expr.expands_render style)
  have htoken : after.token? 0 = none := by simp [Cursor.token?, hend]
  have hatEnd : after.atEnd = true := by simp [Cursor.atEnd, hend]
  obtain ⟨inside, hlevels, harranged⟩ := IsArranged.of_wholeNesting h hbinds hnesting
  have hrun : Grammar.atDepth Grammar.Nested.expr cursor.forgetful = .ok expr after := by
    have hdepth : cursor.forgetful.depth = 0 := hdepth
    unfold Grammar.atDepth
    rw [hdepth, Nat.sub_zero, hlevels]
    rw [hlevels] at hready
    exact Grammar.readsItem_of_inner (Grammar.readsOperands_nestedAt inside) harranged cursor.forgetful
      after hready hspells (Cursor.ends_of_token? htoken 1)
  have hwhole : Grammar.wholeExpr cursor.forgetful = .ok expr after := by
    unfold Grammar.wholeExpr
    rw [bind_of_ok hrun, bind_of_ok (ask_apply _ _), hatEnd]
    rfl
  rw [Expr.ofSource_afresh, Grammar.runAfreshOn, hsource]
  simp only [bind, Except.bind, hwhole, pure, Except.pure]

/-- Operators are read by their levels and in no other way: whatever is read binds by level throughout,
and whatever operation does so is what each of its layouts is read as, if it is not nested too deeply. -/
theorem reads_by_level :
    (∀ source expr, Expr.ofSource source = .ok expr → expr.BindsThroughout) ∧
      ∀ expr : Expr, expr.IsOperation → expr.BindsThroughout → expr.wholeNesting ≤ Cursor.maxDepth →
        ∀ style, Expr.ofSource (expr.render style) = .ok expr := by
  constructor
  · intro source expr hread inner hinner
    exact ((isOperand_of_ofSource hread).sound _ hinner).2
  · exact fun expr h hbinds hnesting style => ofSource_render h hbinds hnesting style

/-- The operation `-(a) < 2 IS NOT NULL`. -/
def signedTest : Expr :=
  .isValue (.binary .lt (.unary .minus (.paren (.name { first := { raw := "a" } })))
    (.constant { kind := .number, text := "2" })) true .null

theorem reads_by_level_signedTest :
    (∃ expr, Expr.ofSource "NOT a = 1 OR b IN (1, -(2))" = .ok expr ∧ expr.BindsThroughout) ∧
      signedTest.IsOperation ∧ signedTest.BindsThroughout ∧ signedTest.wholeNesting ≤ Cursor.maxDepth ∧
        Expr.ofSource (signedTest.render {}) = .ok signedTest := by
  have hread : (Expr.ofSource "NOT a = 1 OR b IN (1, -(2))").isOk := by decide +kernel
  obtain ⟨expr, hexpr⟩ := exists_of_isOk hread
  have hname : (Expr.name { first := { raw := "a" } }).IsOperation :=
    .name ⟨'a', [], by decide, by decide, by simp⟩ (by decide)
  have hnumber : (Expr.constant { kind := .number, text := "2" }).IsOperation :=
    .number ⟨by decide +kernel, by decide⟩
  have hoperation : signedTest.IsOperation :=
    .isValue true .null (.binary .lt (.unary .minus (.paren hname)) hnumber)
  have hbinds : signedTest.BindsThroughout := by
    intro inner hinner
    simp only [signedTest, Node.all_eq, Node.children, Node.ofExpr, List.flatMap_cons, List.flatMap_nil,
      List.append_nil, List.mem_cons, List.mem_append, List.not_mem_nil, Node.expr.injEq, or_false,
      or_assoc] at hinner
    rcases hinner with rfl | rfl | rfl | rfl | rfl | rfl <;>
      simp [BindsByLevel, level, BinaryOp.level, UnaryOp.level]
  have hnesting : signedTest.wholeNesting ≤ Cursor.maxDepth := by decide
  exact ⟨⟨expr, hexpr, reads_by_level.1 _ expr hexpr⟩, hoperation, hbinds, hnesting,
    reads_by_level.2 signedTest hoperation hbinds hnesting {}⟩

end Expr

end SqlLayout
