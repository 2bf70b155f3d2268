import SqlLayout.Proofs.Cursor.Ensures
import SqlLayout.Proofs.Syntax.Capital
import SqlLayout.Proofs.Token.Recased

/-!
# Reading without Regard to Case

A rule echoes when, at the same place of a stream with all words in capitals, it gives what it gave before
with all names in capitals, and fails where it failed before. A value that later rules depend on may be
another one there, so a rule is compared with the rule that goes on from the capitalised value.
-/

namespace SqlLayout

section Failures

/-- The cause with the token it mentions in capitals. -/
def Cause.capital : Cause → Cause
  | .expected what found => .expected what (found.map Text.upper)
  | .unrecognized text => .unrecognized text
  | .tooDeep limit => .tooDeep limit

def Failure.capital (failure : Failure) : Failure :=
  { failure with cause := failure.cause.capital }

theorem Text.upper_upper (text : String) : upper (upper text) = upper text := by
  have hupper (c : Char) : c.toUpper.toUpper = c.toUpper :=
    Token.Scan.apply_toUpper (by decide) c
  rw [upper, toList_upper, List.map_map, upper]
  exact congrArg (fun change => String.ofList (text.toList.map change)) (funext hupper)

end Failures

namespace Cursor

/-- The same place, with all words in capitals. -/
def capital (cursor : Cursor) : Cursor :=
  { cursor with tokens := cursor.tokens.map Token.capital }

variable (cursor : Cursor)

theorem fits_capital (pattern : String) (token : Token) : fits pattern token.capital = fits pattern token := by
  by_cases hword : token.kind = .word
  · have htext : token.capital.text = Text.upper token.text := by rw [Token.capital, if_pos hword]; rfl
    unfold fits
    rw [Token.kind_capital, htext, hword, Text.sameWord, Text.upper_upper]
    rfl
  · rw [Token.capital_of_ne hword]

theorem token?_capital (ahead : Nat) :
    cursor.capital.token? ahead = (cursor.token? ahead).map Token.capital := by
  simp [token?, capital]

theorem kind?_capital (ahead : Nat) : cursor.capital.kind? ahead = cursor.kind? ahead := by
  rw [kind?, token?_capital, Option.map_map, kind?]
  exact congrArg (fun change => (cursor.token? ahead).map change) (funext Token.kind_capital)

theorem span_capital : cursor.capital.span = cursor.span := by
  unfold span
  rw [token?_capital]
  cases cursor.token? 0 with
  | none => rfl
  | some token => exact token.span_capital

theorem upper_text?_capital : cursor.capital.text?.map Text.upper = cursor.text?.map Text.upper := by
  rw [text?, token?_capital, text?]
  cases cursor.token? 0 with
  | none => rfl
  | some token =>
    by_cases hword : token.kind = .word
    · have htext : token.capital.text = Text.upper token.text := by rw [Token.capital, if_pos hword]; rfl
      simp only [Option.map_some, htext, Text.upper_upper]
    · rw [Option.map_some, Token.capital_of_ne hword]

theorem seesAt_capital (ahead : Nat) (pattern : String) :
    cursor.capital.seesAt ahead pattern = cursor.seesAt ahead pattern := by
  unfold seesAt
  rw [token?_capital]
  cases cursor.token? ahead with
  | none => rfl
  | some token => exact fits_capital pattern token

theorem sees_capital (pattern : String) : cursor.capital.sees pattern = cursor.sees pattern :=
  cursor.seesAt_capital 0 pattern

theorem seesAllAt_capital (ahead : Nat) (patterns : List String) :
    cursor.capital.seesAllAt ahead patterns = cursor.seesAllAt ahead patterns := by
  induction patterns generalizing ahead with
  | nil => rfl
  | cons pattern patterns ih => rw [seesAllAt, seesAllAt, seesAt_capital, ih]

theorem seesAll_capital (patterns : List String) :
    cursor.capital.seesAll patterns = cursor.seesAll patterns :=
  cursor.seesAllAt_capital 0 patterns

theorem seesAnyAt_capital (ahead : Nat) (patterns : List String) :
    cursor.capital.seesAnyAt ahead patterns = cursor.seesAnyAt ahead patterns := by
  rw [seesAnyAt, seesAnyAt, funext (cursor.seesAt_capital ahead)]

theorem touching_capital (count : Nat) : cursor.capital.touching count = cursor.touching count := by
  unfold touching
  congr 1
  funext index
  rw [token?_capital, token?_capital]
  cases cursor.token? index <;> cases cursor.token? (index + 1) <;> simp

theorem atEnd_capital : cursor.capital.atEnd = cursor.atEnd := by
  simp [atEnd, capital]

theorem remaining_capital : cursor.capital.remaining = cursor.remaining := by
  simp [remaining, capital]

end Cursor

namespace Rule

variable {α β : Type}

/-- Two runs side by side, the other one with all words in capitals. -/
inductive EchoesAt (rule other : Rule α) (change : α → α) (cursor : Cursor) : Prop
  | gives (value : α) (after : Cursor) (h : rule cursor = .ok value after)
    (hecho : other cursor.capital = .ok (change value) after.capital) (hpasses : after.Passes cursor)
  | fails (failure failure' : Failure) (after after' : Cursor) (h : rule cursor = .error failure after)
    (hecho : other cursor.capital = .error failure' after') (halike : failure'.capital = failure.capital)

/-- With all words in capitals the other rule does what the rule does, and gives the changed value. -/
def EchoesAs (rule other : Rule α) (change : α → α) : Prop :=
  ∀ cursor : Cursor, cursor.IsClean → rule.EchoesAt other change cursor

/-- With all words in capitals the rule gives the changed value. -/
abbrev Echoes (rule : Rule α) (change : α → α) : Prop :=
  rule.EchoesAs rule change

/-- The same of a rule that may give nothing. -/
abbrev MayEcho (rule : Rule (Option α)) (change : α → α) : Prop :=
  rule.Echoes (Option.map change)

/-- With all words in capitals the rule gives the same value. -/
abbrev EchoesSame (rule : Rule α) : Prop :=
  rule.Echoes id

section Steps

variable {rule other : Rule α} {next next' : α → Rule β} {change : α → α} {goal : β → β}

theorem EchoesAs.pure {value value' : α} (h : value' = change value) :
    (Pure.pure value : Rule α).EchoesAs (Pure.pure value') change := by
  intro cursor _
  subst h
  exact .gives value cursor rfl rfl (.refl cursor)

theorem EchoesAs.bind (h : rule.EchoesAs other change)
    (hnext : ∀ value, (next value).EchoesAs (next' (change value)) goal) :
    (rule >>= next).EchoesAs (other >>= next') goal := by
  intro cursor hclean
  cases h cursor hclean with
  | fails failure failure' after after' h hecho halike =>
    refine .fails failure failure' after after' ?_ ?_ halike
    · rw [bind_apply, h]
    · rw [bind_apply, hecho]
  | gives value after h hecho hpasses =>
    cases hnext value after (hclean.of_passes hpasses) with
    | fails failure failure' last last' hlast hlastEcho halike =>
      refine .fails failure failure' last last' ?_ ?_ halike
      · rw [bind_of_ok h, hlast]
      · rw [bind_of_ok hecho, hlastEcho]
    | gives found last hlast hlastEcho hlastPasses =>
      refine .gives found last ?_ ?_ (hlastPasses.trans hpasses)
      · rw [bind_of_ok h, hlast]
      · rw [bind_of_ok hecho, hlastEcho]

/-- What is found is changed, and it is found on both sides or on none. -/
theorem MayEcho.bind {rule : Rule (Option α)} {next next' : Option α → Rule β} (h : rule.MayEcho change)
    (hnone : (next none).EchoesAs (next' none) goal)
    (hsome : ∀ value, (next (some value)).EchoesAs (next' (some (change value))) goal) :
    (rule >>= next).EchoesAs (rule >>= next') goal := by
  apply EchoesAs.bind h
  intro value
  cases value with
  | none => exact hnone
  | some value => exact hsome value

/-- The same value leads to the same question on both sides. -/
theorem EchoesSame.bind (h : rule.EchoesSame)
    (hnext : ∀ value, (next value).EchoesAs (next' value) goal) :
    (rule >>= next).EchoesAs (rule >>= next') goal :=
  EchoesAs.bind h hnext

theorem EchoesAs.ite {condition : Prop} [Decidable condition] {rule' other' : Rule α}
    (h : rule.EchoesAs other change) (h' : rule'.EchoesAs other' change) :
    (if condition then rule else rule').EchoesAs (if condition then other else other') change := by
  split
  · exact h
  · exact h'

/-- One rule or another comes first, and then the same in both cases. -/
theorem EchoesAs.iteBind {condition : Prop} [Decidable condition] {rule' other' : Rule α}
    (h : rule.EchoesAs other change) (h' : rule'.EchoesAs other' change)
    (hnext : ∀ value, (next value).EchoesAs (next' (change value)) goal) :
    (if condition then rule >>= next else rule' >>= next).EchoesAs
      (if condition then other >>= next' else other' >>= next') goal :=
  EchoesAs.ite (h.bind hnext) (h'.bind hnext)

theorem EchoesAt.of_eq {rule' other' : Rule α} {cursor : Cursor} (h : rule'.EchoesAt other' change cursor)
    (heq : rule cursor = rule' cursor) (hother : other cursor.capital = other' cursor.capital) :
    rule.EchoesAt other change cursor := by
  cases h with
  | gives value after h hecho hpasses => exact .gives value after (heq.trans h) (hother.trans hecho) hpasses
  | fails failure failure' after after' h hecho halike =>
    exact .fails failure failure' after after' (heq.trans h) (hother.trans hecho) halike

theorem EchoesAt.map {cursor : Cursor} (h : rule.EchoesAt other change cursor) {into into' : α → β}
    (hinto : ∀ value, into' (change value) = goal (into value)) :
    (into <$> rule).EchoesAt (into' <$> other) goal cursor := by
  cases h with
  | gives value after h hecho hpasses =>
    refine .gives (into value) after (map_of_ok h) ?_ hpasses
    rw [map_of_ok hecho, hinto]
  | fails failure failure' after after' h hecho halike =>
    refine .fails failure failure' after after' ?_ ?_ halike
    · rw [map_eq_bind, bind_apply, h]
    · rw [map_eq_bind, bind_apply, hecho]

theorem EchoesAs.map (h : rule.EchoesAs other change) {into into' : α → β}
    (hinto : ∀ value, into' (change value) = goal (into value)) :
    (into <$> rule).EchoesAs (into' <$> other) goal :=
  fun cursor hclean => (h cursor hclean).map hinto

/-- A question is answered in the same way on both sides. -/
theorem EchoesAt.ask {cursor : Cursor} {question : Cursor → α}
    (hsame : question cursor.capital = question cursor)
    (hnext : (next (question cursor)).EchoesAt (next' (question cursor)) goal cursor) :
    (Rule.ask question >>= next).EchoesAt (Rule.ask question >>= next') goal cursor := by
  apply hnext.of_eq (bind_of_ok (ask_apply question cursor))
  rw [bind_of_ok (ask_apply question cursor.capital), hsame]

theorem EchoesSame.mayEcho {rule : Rule (Option α)} (h : rule.EchoesSame) : rule.MayEcho id := by
  rwa [MayEcho, Option.map_id_fun]

theorem EchoesSame.discard (h : rule.EchoesSame) : (Functor.discard rule).EchoesSame :=
  EchoesAs.map h fun _ => rfl

theorem echoes_expected (what : String) : (expected what : Rule α).Echoes change := by
  intro cursor _
  refine .fails _ _ cursor cursor.capital rfl rfl ?_
  rw [Failure.capital, Failure.capital, Cursor.failure, Cursor.failure, Cursor.span_capital,
    Cause.capital, Cause.capital, Cursor.upper_text?_capital]

theorem echoes_tooDeep : (tooDeep : Rule α).Echoes change := by
  intro cursor _
  refine .fails _ _ cursor cursor.capital rfl rfl ?_
  rw [Cursor.span_capital]

theorem echoesSame_ask {question : Cursor → α} (h : ∀ cursor, question cursor.capital = question cursor) :
    (ask question).EchoesSame := by
  intro cursor _
  refine .gives (question cursor) cursor rfl ?_ (.refl cursor)
  rw [ask_apply, h]
  rfl

end Steps

section Taking

theorem echoesSame_sees (pattern : String) : (sees pattern).EchoesSame :=
  echoesSame_ask fun cursor => cursor.sees_capital pattern

theorem echoesSame_kind? : kind?.EchoesSame :=
  echoesSame_ask fun cursor => cursor.kind?_capital 0

theorem echoesSame_atEnd : (ask Cursor.atEnd).EchoesSame :=
  echoesSame_ask Cursor.atEnd_capital

theorem echoesSame_seesAt (ahead : Nat) (pattern : String) :
    (ask fun cursor => cursor.seesAt ahead pattern).EchoesSame :=
  echoesSame_ask fun cursor => cursor.seesAt_capital ahead pattern

/-- The steps that a repetition may take. -/
theorem echoesSame_steps : (ask fun cursor => cursor.remaining + 1).EchoesSame :=
  echoesSame_ask fun cursor => congrArg (· + 1) cursor.remaining_capital

theorem echoesSame_skip (pattern : String) : (skip pattern).EchoesSame := by
  intro cursor _
  have hsame := cursor.sees_capital pattern
  cases hsees : cursor.sees pattern with
  | false => exact .gives false cursor (skip_of_not hsees) (skip_of_not (hsame.trans hsees)) (.refl cursor)
  | true =>
    exact .gives true (cursor.advance 1) (skip_of_sees hsees) (skip_of_sees (hsame.trans hsees))
      (cursor.passes_advance 1)

theorem echoesSame_skipAll {patterns : List String} (hne : patterns ≠ []) :
    (skipAll patterns).EchoesSame := by
  intro cursor _
  have hrun := skipAll_apply patterns cursor hne
  have hecho := skipAll_apply patterns cursor.capital hne
  rw [cursor.seesAll_capital] at hecho
  cases hsees : cursor.seesAll patterns with
  | false =>
    rw [hsees] at hrun hecho
    exact .gives false cursor hrun hecho (.refl cursor)
  | true =>
    rw [hsees] at hrun hecho
    exact .gives true (cursor.advance patterns.length) hrun hecho (cursor.passes_advance _)

theorem echoesSame_expect (pattern : String) : (discard (expect pattern)).EchoesSame := by
  have hexpected : (expected (Cause.quote pattern) : Rule Unit).EchoesSame := echoes_expected _
  intro cursor hclean
  have hsame := cursor.sees_capital pattern
  cases hsees : cursor.sees pattern with
  | false =>
    cases hexpected cursor hclean with
    | gives _ _ h => cases h
    | fails failure failure' after after' h hecho halike =>
      refine .fails failure failure' after after' ?_ ?_ halike
      · rw [discard_expect_of_not hsees]
        exact h
      · rw [discard_expect_of_not (hsame.trans hsees)]
        exact hecho
  | true =>
    exact .gives () (cursor.advance 1) (discard_expect_of_sees hsees)
      (discard_expect_of_sees (hsame.trans hsees)) (cursor.passes_advance 1)

theorem echoesSame_bump : (discard bump).EchoesSame := by
  intro cursor _
  have hbump (cursor : Cursor) : (discard bump) cursor =
      .ok () (if cursor.text?.isSome then cursor.advance 1 else cursor) := by
    rw [discard_eq_bind, bind_apply, bump]
    cases cursor.text? <;> rfl
  have htext : cursor.capital.text?.isSome = cursor.text?.isSome := by
    simpa using congrArg Option.isSome cursor.upper_text?_capital
  have hecho := hbump cursor.capital
  rw [htext] at hecho
  cases hsome : cursor.text?.isSome with
  | false =>
    rw [hsome] at hecho
    exact .gives () cursor ((hbump cursor).trans (by rw [hsome]; rfl)) hecho (.refl cursor)
  | true =>
    rw [hsome] at hecho
    exact .gives () (cursor.advance 1) ((hbump cursor).trans (by rw [hsome]; rfl)) hecho
      (cursor.passes_advance 1)

/-- A word that is taken is read in capitals on both sides. -/
theorem mayEcho_take? {pattern : String} (hword : Cursor.isWordPattern pattern = true) :
    (take? pattern).MayEcho Text.upper := by
  intro cursor _
  have hsame := cursor.sees_capital pattern
  cases hsees : cursor.sees pattern with
  | false => exact .gives none cursor (take?_of_not hsees) (take?_of_not (hsame.trans hsees)) (.refl cursor)
  | true =>
    obtain ⟨token, htoken, hfits⟩ := Cursor.token_of_seesAt hsees
    have hkind : token.kind = .word := by
      simp only [Cursor.fits, hword, if_true, Bool.and_eq_true, decide_eq_true_eq] at hfits
      exact hfits.1
    have htext : cursor.text? = some token.text := by rw [Cursor.text?, htoken]; rfl
    have hcapital : cursor.capital.text? = some (Text.upper token.text) := by
      rw [Cursor.text?, cursor.token?_capital, htoken, Option.map_some, Option.map_some, Token.capital,
        if_pos hkind]
      rfl
    have hrun := take?_of_sees hsees
    have hecho := take?_of_sees (hsame.trans hsees)
    rw [htext] at hrun
    rw [hcapital] at hecho
    exact .gives _ _ hrun hecho (cursor.passes_advance 1)

theorem mayEcho_takeAny? {patterns : List String}
    (hwords : ∀ pattern ∈ patterns, Cursor.isWordPattern pattern = true) :
    (takeAny? patterns).MayEcho Text.upper := by
  induction patterns with
  | nil => exact .pure rfl
  | cons pattern patterns ih =>
    apply (mayEcho_take? (hwords pattern List.mem_cons_self)).bind
    · exact ih fun other hother => hwords other (List.mem_cons_of_mem pattern hother)
    · intro text
      exact .pure rfl

theorem echoesSame_comments : comments.EchoesSame := by
  intro cursor _
  exact .gives _ _ rfl rfl ⟨Nat.le_refl _, rfl⟩

end Taking

section Choices

variable {rule : Rule (Option α)} {change : α → α}

theorem MayEcho.attempt (h : rule.MayEcho change) : (Rule.attempt rule).MayEcho change := by
  intro cursor hclean
  have hrun := attempt_apply rule cursor
  have hecho := attempt_apply rule cursor.capital
  cases h cursor hclean with
  | fails failure failure' after after' h h' halike =>
    rw [h] at hrun
    rw [h'] at hecho
    exact .fails failure failure' after after' hrun hecho halike
  | gives value after h h' hpasses =>
    rw [h] at hrun
    rw [h'] at hecho
    cases value with
    | none => exact .gives none _ hrun hecho hpasses.back
    | some value => exact .gives (some value) after hrun hecho hpasses

theorem mayEcho_firstOf {rules : List (Rule (Option α))} (h : ∀ rule ∈ rules, rule.MayEcho change) :
    (firstOf rules).MayEcho change := by
  induction rules with
  | nil => exact .pure rfl
  | cons rule rules ih =>
    apply (h rule List.mem_cons_self).attempt.bind
    · exact ih fun other hother => h other (List.mem_cons_of_mem rule hother)
    · intro value
      exact .pure rfl

theorem MayEcho.require (h : rule.MayEcho change) (what : String) :
    (Rule.require what rule).Echoes change := by
  apply h.bind
  · exact echoes_expected what
  · intro value
    exact .pure rfl

theorem descend_tooDeep {rule : Rule α} {cursor : Cursor} (h : Cursor.maxDepth ≤ cursor.depth) :
    Rule.descend rule cursor = tooDeep cursor :=
  if_pos h

theorem descend_deeper_ok {rule : Rule α} {cursor after : Cursor} {value : α}
    (hdepth : ¬Cursor.maxDepth ≤ cursor.depth)
    (h : rule { cursor with depth := cursor.depth + 1 } = .ok value after) :
    Rule.descend rule cursor = .ok value { after with depth := after.depth - 1 } := by
  rw [Rule.descend, if_neg hdepth, h]

theorem descend_deeper_error {rule : Rule α} {cursor after : Cursor} {failure : Failure}
    (hdepth : ¬Cursor.maxDepth ≤ cursor.depth)
    (h : rule { cursor with depth := cursor.depth + 1 } = .error failure after) :
    Rule.descend rule cursor = .error failure { after with depth := after.depth - 1 } := by
  rw [Rule.descend, if_neg hdepth, h]

theorem EchoesAs.descend {rule other : Rule α} (h : rule.EchoesAs other change) :
    (Rule.descend rule).EchoesAs (Rule.descend other) change := by
  intro cursor hclean
  by_cases hdepth : Cursor.maxDepth ≤ cursor.depth
  · have hdepth' : Cursor.maxDepth ≤ cursor.capital.depth := hdepth
    have htoo : (tooDeep : Rule α).Echoes change := echoes_tooDeep
    cases htoo cursor hclean with
    | gives _ _ h => cases h
    | fails failure failure' after after' h hecho halike =>
      exact .fails failure failure' after after' ((descend_tooDeep hdepth).trans h)
        ((descend_tooDeep hdepth').trans hecho) halike
  · have hdepth' : ¬Cursor.maxDepth ≤ cursor.capital.depth := hdepth
    cases h { cursor with depth := cursor.depth + 1 } hclean.descend with
    | fails failure failure' after after' h hecho halike =>
      exact .fails failure failure' _ _ (descend_deeper_error hdepth h) (descend_deeper_error hdepth' hecho) halike
    | gives value after h hecho hpasses =>
      exact .gives value _ (descend_deeper_ok hdepth h) (descend_deeper_ok hdepth' hecho) hpasses.ascend

/-- Where nothing is kept, reading once is an attempt. -/
theorem MayEcho.once {rule : Rule (Option Query)} {change : Query → Query} (h : rule.MayEcho change) :
    (Rule.once rule).MayEcho change := by
  intro cursor hclean
  have hattempt := h.attempt cursor hclean
  have hnone : cursor.outcome? = none := by
    rw [Cursor.outcome?, hclean.outcomes_eq]
    rfl
  have hkeeps : (∀ value after, rule cursor = .ok value after → after.keepsOutcomes = false) ∧
      ∀ value after, rule cursor.capital = .ok value after → after.keepsOutcomes = false := by
    cases h cursor hclean with
    | fails failure failure' after after' h hecho halike =>
      rw [h, hecho]
      exact ⟨by rintro _ _ ⟨⟩, by rintro _ _ ⟨⟩⟩
    | gives value after h hecho hpasses =>
      have hlast := (hclean.of_passes hpasses).keeps_eq
      rw [h, hecho]
      exact ⟨by rintro _ _ ⟨⟩; exact hlast, by rintro _ _ ⟨⟩; exact hlast⟩
  have hrun := once_of_not_keeps hnone hkeeps.1
  have hnone' : cursor.capital.outcome? = none := hnone
  have hecho := once_of_not_keeps hnone' hkeeps.2
  exact hattempt.of_eq hrun hecho

theorem MayEcho.many (h : rule.MayEcho change) : (Rule.many rule).Echoes (List.map change) := by
  have hrepeat (steps : Nat) : (repeatUpTo steps rule).Echoes (List.map change) := by
    induction steps with
    | zero => exact .pure rfl
    | succ steps ih =>
      apply h.bind
      · exact .pure rfl
      · intro value
        exact EchoesAs.bind ih fun values => .pure rfl
  exact (echoesSame_steps).bind hrepeat

end Choices

section Lists

variable {item : Rule α} {change : α → α}

theorem Echoes.commaSeparated (h : item.Echoes change) :
    (Rule.commaSeparated item).Echoes (List.map change) := by
  have hfurther : MayEcho (do if ← skip "," then return some (← item) else return none) change :=
    (echoesSame_skip ",").bind fun _ => EchoesAs.ite (EchoesAs.bind h fun _ => .pure rfl) (.pure rfl)
  apply EchoesAs.bind h
  intro first
  exact EchoesAs.bind hfurther.many fun rest => .pure rfl

theorem EchoesSame.commaSeparated (h : item.EchoesSame) : (Rule.commaSeparated item).EchoesSame := by
  have hitems := Echoes.commaSeparated h
  rwa [List.map_id_fun] at hitems

theorem Echoes.parenthesized (h : item.Echoes change) :
    (Rule.parenthesized item).Echoes (List.map change) := by
  apply (echoesSame_expect "(").bind
  intro _
  apply (echoesSame_skip ")").bind
  intro _
  refine EchoesAs.ite (.pure rfl) ?_
  apply EchoesAs.bind h.commaSeparated
  intro items
  exact (echoesSame_expect ")").bind fun _ => .pure rfl

end Lists

end Rule

end SqlLayout
