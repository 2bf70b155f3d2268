import SqlLayout.Proofs.Reading.Operators

/-!
# Levels Are Read Back

Given that what operators are put on is read back, so are the operators of every level, from the signs
down to `OR`.
-/

namespace SqlLayout.Grammar

open Rule

variable {cursor middle after : Cursor} {levels : Nat} {good : Expr → Prop} {nested : Nested}
  {isNegated : Bool}

section Operators

/-- The levels on which each operator is a token of its own and there is nothing but operators. -/
def opLevels : List (List (String × BinaryOp) × Nat) :=
  [([("OR", .or)], 1), ([("AND", .and)], 2), ([("|", .bitOr)], 5), ([("^", .bitXor)], 6),
   ([("&", .bitAnd)], 7), ([("+", .plus), ("-", .minus)], 9),
   ([("*", .multiply), ("/", .divide), ("||", .concat)], 10)]

theorem areOpsOf_of_mem : ∀ entry ∈ opLevels, AreOpsOf entry.1 entry.2 := by
  simp only [opLevels, List.forall_mem_cons, List.not_mem_nil, IsEmpty.forall_iff, implies_true, and_true]
  refine ⟨?_, ?_, ?_, ?_, ?_, ?_, ?_⟩ <;>
    exact ⟨by intro op; cases op <;> decide, by decide, by decide⟩

/-- On the levels of binary operators alone there is nothing else. -/
theorem exists_binary {expr : Expr} {level : Nat} (h : expr.level = level)
    (hlevel : level = 8 ∨ level ∈ opLevels.map Prod.snd) :
    ∃ op left right, expr = .binary op left right := by
  have hlevel : level ∈ [8, 1, 2, 5, 6, 7, 9, 10] := List.mem_cons.mpr hlevel
  subst h
  cases expr with
  | binary op left right => exact ⟨op, left, right, rfl⟩
  | unary op operand => cases op <;> exact absurd hlevel (by simp [Expr.level, UnaryOp.level])
  | _ => exact absurd hlevel (by simp [Expr.level])

/-- A shift to the right is read where its two tokens touch. -/
theorem shiftOp?_of_spells {op : BinaryOp} (hlevel : op.level = 8)
    (h : cursor.Spells op.spelling middle) : shiftOp? cursor = .ok (some op) middle := by
  cases op with
  | shiftLeft =>
    obtain ⟨hnext, rfl⟩ := h
    exact (bind_of_ok (hnext.skip (by decide))).trans rfl
  | shiftRight =>
    obtain ⟨⟨token, htoken, hkind, htext, htied⟩, hnext, rfl⟩ := h
    have hsees : cursor.sees ">" = true := by
      simp only [Cursor.sees, Cursor.seesAt, htoken, Cursor.fits, hkind, htext]
      decide
    obtain ⟨next, hafter, -⟩ := hnext.token?
    have hafter : cursor.token? 1 = some next := hafter
    have htouch : token.stop = next.start := htied rfl next hafter
    have hsecond : cursor.seesAt 1 ">" = true := hnext.sees_of (by decide)
    have hjoined : cursor.seesJoined [">", ">"] = true := by
      unfold Cursor.sees at hsees
      simp [Cursor.seesJoined, Cursor.seesAll, Cursor.seesAllAt, Cursor.touching, hsees, hsecond,
        htoken, hafter, htouch, List.range_succ]
    have htake : ∃ text, takeJoined? [">", ">"] cursor = .ok (some text) (cursor.advance 2) := by
      unfold takeJoined?
      rw [hjoined]
      exact ⟨_, rfl⟩
    obtain ⟨text, htake⟩ := htake
    refine (bind_of_ok (skip_of_not (Cursor.sees_eq_false hsees (by decide)))).trans ?_
    exact (bind_of_ok htake).trans rfl
  | _ => exact absurd hlevel (by decide)

theorem shiftOp?_declines_of_ends (h : cursor.Ends 8) : shiftOp?.Declines cursor :=
  shiftOp?_declines (h.sees ("<<", 8) (by decide) (Nat.le_refl 8)) (h.joined (Nat.le_refl 8))

end Operators

section Comparisons

namespace Nested

/-- What a comparison reads after the negation that may come first. -/
def testAfter (nested : Nested) (isNegated : Bool) : Rule (Option Comparison) := do
  let operand := require "an expression" nested.bitOr?
  if ← skip "LIKE" then return some (.binary (if isNegated then .notLike else .like) (← operand))
  if ← skip "IN" then return some (.member isNegated (← nested.memberTarget))
  if ← skip "BETWEEN" then
    let low ← operand
    discard <| expect "AND"
    return some (.between isNegated low (← operand))
  return none

end Nested

def testWords : List String :=
  ["LIKE", "IN", "BETWEEN"]

theorem excludes_testWords : ∀ word ∈ testWords,
    (∀ op ∈ comparisonOps, Cursor.excludes word op.1 = true) ∧ Cursor.excludes word "IS" = true ∧
      Cursor.excludes word "NOT" = true ∧
      ∀ piece ∈ Cursor.attachments, 5 ≤ piece.2 → Cursor.excludes word piece.1 = true := by
  decide

/-- A test that a word names, perhaps after `NOT`, is read from that word on. -/
theorem comparison?_of_test (nested : Nested) {word : String} (hword : word ∈ testWords)
    (hspells : cursor.Spells (Spelling.words (if isNegated then ["NOT", word] else [word])) middle)
    (hfits : Cursor.fits word { kind := .word, text := word, start := 0 } = true) :
    ∃ next, next.sees word = true ∧ middle = next.advance 1 ∧ cursor.Ends 5 ∧
      nested.comparison? cursor = nested.testAfter isNegated next := by
  obtain ⟨hops, his, hnot, hends⟩ := excludes_testWords word hword
  cases isNegated with
  | false =>
    obtain ⟨hnext, rfl⟩ := hspells
    have hsees : cursor.sees word = true := hnext.sees_of hfits
    have hangle : cursor.seesJoined [">", ">"] = false :=
      Cursor.seesJoined_of_not (Cursor.sees_eq_false hsees (hops (">", .gt) (by decide)))
    have hnegated : Nested.negated cursor = .ok false cursor := by
      unfold Nested.negated
      rw [bind_of_ok (ask_apply _ _), Cursor.sees_eq_false hsees hnot]
      rfl
    refine ⟨cursor, hsees, rfl, Cursor.ends_of_sees hsees hends fun _ => hangle, ?_⟩
    refine (bind_of_ok (opOf?_declines_of_sees hsees hops)).trans ?_
    refine (bind_of_ok (skip_of_not (Cursor.sees_eq_false hsees his))).trans ?_
    exact bind_of_ok hnegated
  | true =>
    obtain ⟨hfirst, hnext, rfl⟩ := hspells
    have hsees : cursor.sees "NOT" = true := hfirst.sees_of (by decide)
    have hafter : (cursor.advance 1).sees word = true := hnext.sees_of hfits
    have hangle : cursor.seesJoined [">", ">"] = false :=
      Cursor.seesJoined_of_not (Cursor.sees_eq_false hsees (by decide))
    have hask : (cursor.sees "NOT" && testWords.any (cursor.seesAt 1)) = true := by
      rw [hsees, Bool.true_and]
      exact List.any_eq_true.mpr ⟨word, hword, hafter⟩
    have hnegated : Nested.negated cursor = .ok true (cursor.advance 1) := by
      refine (bind_of_ok (ask_apply _ _)).trans ?_
      rw [show (cursor.sees "NOT" && ["LIKE", "IN", "BETWEEN"].any (cursor.seesAt 1)) = true from hask]
      exact bind_of_ok (discard_bump_of_sees hsees)
    refine ⟨cursor.advance 1, hafter, rfl, Cursor.ends_of_sees hsees (by decide) fun _ => hangle, ?_⟩
    refine (bind_of_ok (opOf?_declines_of_sees hsees (by decide))).trans ?_
    refine (bind_of_ok (skip_of_not (Cursor.sees_eq_false hsees (by decide)))).trans ?_
    exact bind_of_ok hnegated

theorem comparison?_of_comparisonOp {op : BinaryOp} (hmem : (op.text, op) ∈ comparisonOps)
    (hspells : cursor.Spells op.spelling middle) {right : Expr}
    (hright : nested.bitOr? middle = .ok (some right) after) :
    nested.comparison? cursor = .ok (some (.binary op right)) after := by
  have hstart : op.start = op.text := by
    revert hmem
    cases op <;> decide
  have hexcludes : ∀ op ∈ comparisonOps, ∀ other ∈ comparisonOps,
      other = op ∨ Cursor.excludes op.1 other.1 = true := by decide
  have hsees := sees_start hspells
  rw [hstart] at hsees
  have hop : opOf? comparisonOps cursor = .ok (some op) middle := by
    rw [advance_of_spells hstart hspells]
    exact opOf?_of_sees hmem hsees (hexcludes _ hmem)
  refine (bind_of_ok hop).trans ?_
  exact bind_of_ok (require_of_ok hright _)

theorem comparison?_of_like {op : BinaryOp} (isNegated : Bool)
    (hop : op = if isNegated then .notLike else .like) (hspells : cursor.Spells op.spelling middle)
    {right : Expr} (hright : nested.bitOr? middle = .ok (some right) after) :
    nested.comparison? cursor = .ok (some (.binary op right)) after := by
  have hwords : op.spelling = Spelling.words (if isNegated then ["NOT", "LIKE"] else ["LIKE"]) := by
    cases isNegated <;> cases hop <;> rfl
  rw [hwords] at hspells
  obtain ⟨next, hsees, rfl, -, hrun⟩ :=
    comparison?_of_test nested (by decide : "LIKE" ∈ testWords) hspells (by decide)
  rw [hrun, hop]
  refine (bind_of_ok (skip_of_sees hsees)).trans ?_
  exact bind_of_ok (require_of_ok hright _)

theorem isTest_of_spells {value : IsValue} (h : cursor.Spells value.spelling after) :
    isTest cursor = .ok value after ∧ cursor.sees "NOT" = false := by
  have hsees : cursor.sees value.text = true := by
    cases value <;> exact h.1.sees_of (by decide)
  obtain ⟨-, rfl⟩ := h
  have hskip : Rule.skip value.text cursor = .ok true (cursor.advance 1) := skip_of_sees hsees
  have hnot (pattern : String) (hexcludes : Cursor.excludes value.text pattern = true) :
      Rule.skip pattern cursor = .ok false cursor :=
    skip_of_not (Cursor.sees_eq_false hsees hexcludes)
  refine ⟨?_, Cursor.sees_eq_false hsees (by cases value <;> decide)⟩
  unfold isTest
  cases value with
  | null => exact (bind_of_ok hskip).trans rfl
  | true =>
    refine (bind_of_ok (hnot "NULL" (by decide))).trans ?_
    exact (bind_of_ok hskip).trans rfl
  | false =>
    refine (bind_of_ok (hnot "NULL" (by decide))).trans ?_
    refine (bind_of_ok (hnot "TRUE" (by decide))).trans ?_
    exact (bind_of_ok hskip).trans rfl

theorem comparison?_of_is (nested : Nested) {value : IsValue}
    (hspells : cursor.Spells (Spelling.words (if isNegated then ["IS", "NOT"] else ["IS"])) middle)
    (hvalue : middle.Spells value.spelling after) :
    cursor.Ends 5 ∧ nested.comparison? cursor = .ok (some (.isValue isNegated value)) after := by
  obtain ⟨htest, hnot⟩ := isTest_of_spells hvalue
  have hsees : cursor.sees "IS" = true := by
    cases isNegated <;> exact hspells.1.sees_of (by decide)
  have hskip : Rule.skip "NOT" (cursor.advance 1) = .ok isNegated middle := by
    cases isNegated with
    | false =>
      obtain ⟨-, rfl⟩ := hspells
      exact skip_of_not hnot
    | true =>
      obtain ⟨-, hnext, rfl⟩ := hspells
      exact hnext.skip (by decide)
  refine ⟨Cursor.ends_of_sees hsees (by decide) fun _ => ?_, ?_⟩
  · exact Cursor.seesJoined_of_not (Cursor.sees_eq_false hsees (by decide))
  · refine (bind_of_ok (opOf?_declines_of_sees hsees (by decide))).trans ?_
    refine (bind_of_ok (skip_of_sees hsees)).trans ?_
    refine (bind_of_ok hskip).trans ?_
    exact bind_of_ok htest

theorem comparison?_of_member {target : MemberTarget}
    (hspells : cursor.Spells (Spelling.words (if isNegated then ["NOT", "IN"] else ["IN"])) middle)
    (htarget : nested.memberTarget middle = .ok target after) :
    cursor.Ends 5 ∧ nested.comparison? cursor = .ok (some (.member isNegated target)) after := by
  obtain ⟨next, hsees, rfl, hends, hrun⟩ :=
    comparison?_of_test nested (by decide : "IN" ∈ testWords) hspells (by decide)
  refine ⟨hends, ?_⟩
  rw [hrun]
  refine (bind_of_ok (skip_of_not (Cursor.sees_eq_false hsees (by decide)))).trans ?_
  refine (bind_of_ok (skip_of_sees hsees)).trans ?_
  exact bind_of_ok htarget

theorem comparison?_of_between {low high : Expr} {last : Cursor}
    (hspells : cursor.Spells (Spelling.words (if isNegated then ["NOT", "BETWEEN"] else ["BETWEEN"]))
      middle)
    (hlow : nested.bitOr? middle = .ok (some low) last) (hand : last.sees "AND" = true)
    (hhigh : nested.bitOr? (last.advance 1) = .ok (some high) after) :
    cursor.Ends 5 ∧ nested.comparison? cursor = .ok (some (.between isNegated low high)) after := by
  obtain ⟨next, hsees, rfl, hends, hrun⟩ :=
    comparison?_of_test nested (by decide : "BETWEEN" ∈ testWords) hspells (by decide)
  refine ⟨hends, ?_⟩
  rw [hrun]
  refine (bind_of_ok (skip_of_not (Cursor.sees_eq_false hsees (by decide)))).trans ?_
  refine (bind_of_ok (skip_of_not (Cursor.sees_eq_false hsees (by decide)))).trans ?_
  refine (bind_of_ok (skip_of_sees hsees)).trans ?_
  refine (bind_of_ok (require_of_ok hlow _)).trans ?_
  refine (bind_of_ok (discard_expect_of_sees hand)).trans ?_
  exact bind_of_ok (require_of_ok hhigh _)

/-- What an `IN` compares with is read back. -/
def ReadsTargets (nested : Nested) (levels : Nat) (good : Expr → Prop) : Prop :=
  ∀ operand isNegated target, good (.member operand isNegated target) →
    ∀ cursor after : Cursor, cursor.IsReady levels → cursor.Spells target.spelling after →
      nested.memberTarget cursor = .ok target after

/-- The words between an operand and what it is compared with take a token. -/
theorem remaining_lt_of_words {texts : List String} (hne : texts ≠ [])
    (h : cursor.Spells (Spelling.words texts) middle) : middle.remaining < cursor.remaining := by
  cases texts with
  | nil => exact absurd rfl hne
  | cons text texts =>
    cases texts with
    | nil => exact Cursor.Spells.remaining_lt h
    | cons next texts => exact Cursor.Spells.remaining_lt h

/-- Comparisons, by induction on what is spelled. -/
theorem grows_compared (h : HasOperands good) (htarget : ReadsTargets nested levels good)
    (hoperand : ∀ expr, good expr → 4 < expr.level → nested.bitOr?.ReadsBack levels 5 expr)
    (expr : Expr) (hgood : good expr) (hlevel : 4 ≤ expr.level) {cursor after : Cursor}
    (hready : cursor.IsReady levels) (hspells : cursor.Spells expr.spelling after)
    (hends : after.Ends 5) :
    Grows nested.bitOr? nested.comparison? Comparison.attach cursor expr after := by
  by_cases hhigher : 4 < expr.level
  · exact .start (hoperand expr hgood hhigher cursor after hready hspells hends)
  · have hfour : expr.level = 4 := Nat.le_antisymm (Nat.not_lt.mp hhigher) hlevel
    cases expr with
    | binary op left right =>
      have hopLevel : op.level = 4 := hfour
      obtain ⟨⟨hleft, hleftLevel⟩, hright, hrightLevel⟩ := h.binary op left right hgood
      rw [hopLevel] at hleftLevel hrightLevel
      obtain ⟨first, second, hspellsLeft, hspellsOp, hspellsRight⟩ := Cursor.spells_infix.mp hspells
      have hendsLeft : first.Ends 5 := by
        have hop := ends_of_operator hspellsOp (h.sees_angle hright hspellsRight)
        rwa [hopLevel] at hop
      have hgrows := grows_compared h htarget hoperand left hleft hleftLevel hready hspellsLeft hendsLeft
      have hreadyRight := (hready.later hspellsLeft).later hspellsOp
      have hrightRun := hoperand right hright hrightLevel second after hreadyRight hspellsRight hends
      have hrun : nested.comparison? first = .ok (some (.binary op right)) after := by
        cases op with
        | like => exact comparison?_of_like false rfl hspellsOp hrightRun
        | notLike => exact comparison?_of_like true rfl hspellsOp hrightRun
        | eq | notEq | ltGt | lt | ltEq | gt | gtEq =>
          exact comparison?_of_comparisonOp (by decide) hspellsOp hrightRun
        | _ => exact absurd hopLevel (by decide)
      exact hgrows.more hrun
        (Nat.lt_of_lt_of_le (h.remaining_lt hright hspellsRight) hspellsOp.remaining_le)
    | isValue operand isNegated value =>
      obtain ⟨hleft, hleftLevel⟩ := h.isValue operand isNegated value hgood
      obtain ⟨first, second, hspellsLeft, hspellsWords, hspellsValue⟩ := Cursor.spells_infix.mp hspells
      obtain ⟨hendsLeft, hrun⟩ := comparison?_of_is nested hspellsWords hspellsValue
      have hgrows := grows_compared h htarget hoperand operand hleft hleftLevel hready hspellsLeft
        hendsLeft
      have hless := remaining_lt_of_words (by cases isNegated <;> simp) hspellsWords
      exact hgrows.more hrun (Nat.lt_of_le_of_lt hspellsValue.remaining_le hless)
    | member operand isNegated target =>
      obtain ⟨hleft, hleftLevel⟩ := h.member operand isNegated target hgood
      obtain ⟨first, second, hspellsLeft, hspellsWords, hspellsTarget⟩ := Cursor.spells_infix.mp hspells
      have hreadyTarget := (hready.later hspellsLeft).later hspellsWords
      have hmember := htarget operand isNegated target hgood _ after hreadyTarget hspellsTarget
      obtain ⟨hendsLeft, hrun⟩ := comparison?_of_member hspellsWords hmember
      have hgrows := grows_compared h htarget hoperand operand hleft hleftLevel hready hspellsLeft
        hendsLeft
      have hless := remaining_lt_of_words (by cases isNegated <;> simp) hspellsWords
      exact hgrows.more hrun (Nat.lt_of_le_of_lt hspellsTarget.remaining_le hless)
    | between operand isNegated low high =>
      obtain ⟨⟨hleft, hleftLevel⟩, ⟨hlow, hlowLevel⟩, hhigh, hhighLevel⟩ :=
        h.between operand isNegated low high hgood
      obtain ⟨fourth, hspellsRest, hspellsHigh⟩ := Cursor.spells_append.mp hspells
      obtain ⟨third, hspellsTest, hspellsAnd⟩ := Cursor.spells_append.mp hspellsRest
      obtain ⟨first, second, hspellsLeft, hspellsWords, hspellsLow⟩ :=
        Cursor.spells_infix.mp hspellsTest
      obtain ⟨hand, rfl⟩ := hspellsAnd
      have hseesAnd : third.sees "AND" = true := hand.sees_of (by decide)
      have hendsLow : third.Ends 5 := by
        apply Cursor.ends_of_sees hseesAnd (by decide)
        exact fun _ => Cursor.seesJoined_of_not (Cursor.sees_eq_false hseesAnd (by decide))
      have hreadyLow := (hready.later hspellsLeft).later hspellsWords
      have hlowRun := hoperand low hlow hlowLevel second third hreadyLow hspellsLow hendsLow
      have hreadyHigh := (hreadyLow.later hspellsLow).advance 1
      have hhighRun := hoperand high hhigh hhighLevel _ after hreadyHigh hspellsHigh hends
      obtain ⟨hendsLeft, hrun⟩ := comparison?_of_between hspellsWords hlowRun hseesAnd hhighRun
      have hgrows := grows_compared h htarget hoperand operand hleft hleftLevel hready hspellsLeft
        hendsLeft
      have hless := remaining_lt_of_words (by cases isNegated <;> simp) hspellsWords
      have hlater : after.remaining ≤ second.remaining := by
        have hlowLess := h.remaining_lt hlow hspellsLow
        have hhighLess := h.remaining_lt hhigh hspellsHigh
        have handLess := hand.remaining_lt
        omega
      exact hgrows.more hrun (Nat.lt_of_le_of_lt hlater hless)
    | unary op operand => cases op <;> simp [Expr.level, UnaryOp.level] at hfour
    | _ => simp [Expr.level] at hfour
termination_by sizeOf expr

theorem comparison?_declines_of_ends (h : cursor.Ends 4) : nested.comparison?.Declines cursor := by
  have hops : ∀ op ∈ comparisonOps, (op.1, 4) ∈ Cursor.attachments := by decide
  have hwords : ∀ word ∈ comparisonWords, (word, 4) ∈ Cursor.attachments := by decide
  exact comparison?_declines (fun op hop => h.sees (op.1, 4) (hops op hop) (Nat.le_refl 4))
    fun word hword => h.sees (word, 4) (hwords word hword) (Nat.le_refl 4)

theorem readsBack_compared (h : HasOperands good) (htarget : ReadsTargets nested levels good)
    (hoperand : ∀ expr, good expr → 4 < expr.level → nested.bitOr?.ReadsBack levels 5 expr)
    (expr : Expr) (hgood : good expr) (hlevel : 4 ≤ expr.level) :
    nested.compared?.ReadsBack levels 4 expr := by
  intro cursor after hready hspells hends
  have hgrows := grows_compared h htarget hoperand expr hgood hlevel hready hspells
    (hends.mono (by decide))
  obtain ⟨start, middle, pieces, hstart, hpieces, rfl⟩ := hgrows.stop (comparison?_declines_of_ends hends)
  unfold Nested.compared?
  rw [bind_of_ok hstart]
  exact bind_of_ok hpieces

end Comparisons

section Signs

/-- What signs and negations are put on is read back, one level deeper. -/
structure ReadsOperands (nested : Nested) (levels : Nat) (good : Expr → Prop) : Prop where
  notOperand : ∀ operand, good (.unary .not operand) → ∀ cursor after : Cursor,
    cursor.IsReady levels → cursor.Spells operand.spelling after → after.Ends 3 →
      nested.notOperand cursor = .ok operand after
  signOperand : ∀ op operand, op ≠ .not → good (.unary op operand) → ∀ cursor after : Cursor,
    cursor.IsReady levels → cursor.Spells operand.spelling after → after.Ends 11 →
      nested.signOperand cursor = .ok operand after
  operand? : ∀ unary? expr, good expr → expr.level = 12 → (nested.operand? unary?).ReadsBack levels 12 expr
  targets : ReadsTargets nested levels good

theorem sign?_of_spells {op : UnaryOp} (hop : op ≠ .not) (h : cursor.Spells op.spelling middle) :
    sign? cursor = .ok (some op) middle := by
  cases op with
  | not => exact absurd rfl hop
  | minus =>
    obtain ⟨hnext, rfl⟩ := h
    exact (bind_of_ok (hnext.skip (by decide))).trans rfl
  | plus =>
    obtain ⟨hnext, rfl⟩ := h
    have hsees : cursor.sees "+" = true := hnext.sees_of (by decide)
    refine (bind_of_ok (skip_of_not (Cursor.sees_eq_false hsees (by decide)))).trans ?_
    exact (bind_of_ok (skip_of_sees hsees)).trans rfl
  | bitNot =>
    obtain ⟨hnext, rfl⟩ := h
    have hsees : cursor.sees "~" = true := hnext.sees_of (by decide)
    refine (bind_of_ok (skip_of_not (Cursor.sees_eq_false hsees (by decide)))).trans ?_
    refine (bind_of_ok (skip_of_not (Cursor.sees_eq_false hsees (by decide)))).trans ?_
    exact (bind_of_ok (skip_of_sees hsees)).trans rfl

theorem sign?_declines_of_opens (h : cursor.Opens 12) : sign?.Declines cursor := by
  have hexcludes : ∀ sign ∈ ["-", "+", "~"], Cursor.isWordPattern sign = false ∧
      ∀ opener ∈ Cursor.openers, 12 ≤ opener.2 → Cursor.excludes opener.1 sign = true := by decide
  exact sign?_declines fun sign hsign =>
    h.sees_eq_false (.inl (hexcludes sign hsign).1) (hexcludes sign hsign).2

/-- A sign stands right before its operand, unless the operand has a sign as well. -/
theorem spells_unary {op : UnaryOp} {operand : Expr} :
    cursor.Spells (Expr.unary op operand).spelling after ↔
      ∃ middle, cursor.Spells op.spelling middle ∧ middle.Spells operand.spelling after := by
  have hspelling : (Expr.unary op operand).spelling = signSpelling op operand operand.spelling := rfl
  rw [hspelling, signSpelling]
  split
  · rw [Cursor.spells_append]
    rfl
  · exact Cursor.spells_append

theorem exists_unary {expr : Expr} (h : expr.level = 11) :
    ∃ op operand, expr = .unary op operand ∧ op ≠ .not := by
  cases expr with
  | unary op operand =>
    refine ⟨op, operand, rfl, ?_⟩
    rintro rfl
    simp [Expr.level, UnaryOp.level] at h
  | binary op left right =>
    have hop := op.level_le
    simp only [Expr.level] at h
    omega
  | _ => simp [Expr.level] at h

theorem readsBack_unary (h : HasOperands good) (hnested : ReadsOperands nested levels good)
    (expr : Expr) (hgood : good expr) (hlevel : 11 ≤ expr.level) :
    nested.unary?.ReadsBack levels 11 expr := by
  intro cursor after hready hspells hends
  unfold Nested.unary? Nested.unaryUpTo?
  by_cases hsign : expr.level = 11
  · obtain ⟨op, operand, rfl, hop⟩ := exists_unary hsign
    obtain ⟨middle, hspellsOp, hspellsOperand⟩ := spells_unary.mp hspells
    have hoperand := hnested.signOperand op operand hop hgood middle after (hready.later hspellsOp)
      hspellsOperand hends
    rw [bind_of_ok (sign?_of_spells hop hspellsOp)]
    exact bind_of_ok hoperand
  · have htwelve : expr.level = 12 := by
      have hle := expr.level_le
      omega
    have hopens := (h.opens expr cursor after hgood hspells).1
    rw [htwelve] at hopens
    rw [bind_of_ok (sign?_declines_of_opens hopens)]
    exact hnested.operand? _ expr hgood htwelve cursor after hready hspells (hends.mono (by decide))

theorem exists_not {expr : Expr} (h : expr.level = 3) : ∃ operand, expr = .unary .not operand := by
  cases expr with
  | unary op operand =>
    cases op with
    | not => exact ⟨operand, rfl⟩
    | _ => simp [Expr.level, UnaryOp.level] at h
  | binary op left right => cases op <;> simp [Expr.level, BinaryOp.level] at h
  | _ => simp [Expr.level] at h

theorem readsBack_not (h : HasOperands good) (hnested : ReadsOperands nested levels good)
    (hcompared : ∀ expr, good expr → 4 ≤ expr.level → nested.compared?.ReadsBack levels 4 expr)
    (expr : Expr) (hgood : good expr) (hlevel : 3 ≤ expr.level) : nested.not?.ReadsBack levels 3 expr := by
  intro cursor after hready hspells hends
  unfold Nested.not?
  by_cases hthree : expr.level = 3
  · obtain ⟨operand, rfl⟩ := exists_not hthree
    obtain ⟨middle, hspellsNot, hspellsOperand⟩ := spells_unary.mp hspells
    obtain ⟨hnext, rfl⟩ := hspellsNot
    have hoperand := hnested.notOperand operand hgood _ after (hready.advance 1) hspellsOperand hends
    rw [bind_of_ok (hnext.skip (by decide : Cursor.fits "NOT" _ = true))]
    exact bind_of_ok hoperand
  · have hfour : 4 ≤ expr.level := by omega
    have hopens := (h.opens expr cursor after hgood hspells).1.mono hfour
    have hnot : cursor.sees "NOT" = false := hopens.sees_eq_false (by decide) (by decide)
    rw [bind_of_ok (skip_of_not hnot)]
    exact hcompared expr hgood hfour cursor after hready hspells (hends.mono (by decide))

end Signs

section Ladder

/-- A level of operators is read back if the level after it is. -/
theorem readsBack_level (h : HasOperands good) {ops : List (String × BinaryOp)} {level : Nat}
    {operand? : Rule (Option Expr)} (hmem : (ops, level) ∈ opLevels)
    (hoperand : ∀ expr, good expr → level < expr.level → operand?.ReadsBack levels (level + 1) expr)
    (expr : Expr) (hgood : good expr) (hlevel : level ≤ expr.level) :
    (leftAssoc operand? (opOf? ops)).ReadsBack levels level expr := by
  have hops := areOpsOf_of_mem _ hmem
  exact h.readsBack_leftAssoc hoperand (fun _ hop _ _ => hops.reads hop)
    (fun _ hbinary => exists_binary hbinary (.inr (List.mem_map_of_mem hmem))) (fun _ => hops.declines)
    expr hgood hlevel

variable (h : HasOperands good) (hnested : ReadsOperands nested levels good)

include h hnested

theorem readsBack_product (expr : Expr) (hgood : good expr) (hlevel : 10 ≤ expr.level) :
    nested.product?.ReadsBack levels 10 expr :=
  readsBack_level h (by decide) (readsBack_unary h hnested) expr hgood hlevel

theorem readsBack_sum (expr : Expr) (hgood : good expr) (hlevel : 9 ≤ expr.level) :
    nested.sum?.ReadsBack levels 9 expr :=
  readsBack_level h (by decide) (readsBack_product h hnested) expr hgood hlevel

theorem readsBack_shift (expr : Expr) (hgood : good expr) (hlevel : 8 ≤ expr.level) :
    nested.shift?.ReadsBack levels 8 expr :=
  h.readsBack_leftAssoc (readsBack_sum h hnested) (fun _ hop _ _ => shiftOp?_of_spells hop)
    (fun _ hlevel => exists_binary hlevel (.inl rfl)) (fun _ => shiftOp?_declines_of_ends) expr hgood hlevel

theorem readsBack_bitAnd (expr : Expr) (hgood : good expr) (hlevel : 7 ≤ expr.level) :
    nested.bitAnd?.ReadsBack levels 7 expr :=
  readsBack_level h (by decide) (readsBack_shift h hnested) expr hgood hlevel

theorem readsBack_bitXor (expr : Expr) (hgood : good expr) (hlevel : 6 ≤ expr.level) :
    nested.bitXor?.ReadsBack levels 6 expr :=
  readsBack_level h (by decide) (readsBack_bitAnd h hnested) expr hgood hlevel

theorem readsBack_bitOr (expr : Expr) (hgood : good expr) (hlevel : 5 ≤ expr.level) :
    nested.bitOr?.ReadsBack levels 5 expr :=
  readsBack_level h (by decide) (readsBack_bitXor h hnested) expr hgood hlevel

theorem readsBack_negation (expr : Expr) (hgood : good expr) (hlevel : 3 ≤ expr.level) :
    nested.not?.ReadsBack levels 3 expr :=
  readsBack_not h hnested (readsBack_compared h hnested.targets (readsBack_bitOr h hnested)) expr hgood
    hlevel

theorem readsBack_and (expr : Expr) (hgood : good expr) (hlevel : 2 ≤ expr.level) :
    nested.and?.ReadsBack levels 2 expr :=
  readsBack_level h (by decide) (readsBack_negation h hnested) expr hgood hlevel

theorem readsBack_or (expr : Expr) (hgood : good expr) (hlevel : 1 ≤ expr.level) :
    nested.or?.ReadsBack levels 1 expr :=
  readsBack_level h (by decide) (readsBack_and h hnested) expr hgood hlevel

end Ladder

end SqlLayout.Grammar
