import SqlLayout.Proofs.Cursor.Local

/-!
# Rules Go On

A rule leaves the cursor in the same tokens and as deep as it was, never before the place where it started
and never past the end, whether it matches or fails; and a value that asks for a token is given only
further on. Replaying a kept query jumps to where it ended, so all of this rests on what is kept: a query
kept for a position ended behind that position. Going on is a closed property, so it holds of the grammar.
-/

namespace SqlLayout

namespace Cursor

/-- Every query that is kept ended behind the position it is kept for, and within the tokens. -/
def Remembers (cursor : Cursor) : Prop :=
  ∀ start query stop, cursor.outcomes.lookup start = some (some (query, stop)) →
    start < stop.pos ∧ stop.pos ≤ cursor.tokens.size

/-- From one cursor to another one on the way, at the same depth of the same tokens. -/
structure GoesTo (cursor after : Cursor) : Prop where
  remembers : after.Remembers
  tokens_eq : after.tokens = cursor.tokens
  depth_eq : after.depth = cursor.depth
  le_pos : cursor.pos ≤ after.pos
  pos_le : after.pos ≤ max cursor.pos cursor.tokens.size

theorem remembers_ofStream (size : Nat) (stream : TokenStream) : (ofStream size stream).Remembers :=
  fun _ _ _ hkept => nomatch hkept

variable {cursor after last : Cursor}

theorem Remembers.keep (h : cursor.Remembers) {start : Nat} {outcome : Option (Query × Mark)}
    (houtcome : ∀ kept ∈ outcome, start < kept.2.pos ∧ kept.2.pos ≤ cursor.tokens.size) :
    (cursor.keep start outcome).Remembers := by
  intro pos query stop hkept
  by_cases hpos : pos = start
  · subst hpos
    rw [Cursor.keep, List.lookup_cons_self] at hkept
    exact houtcome (query, stop) (Option.some.inj hkept)
  · rw [lookup_keep hpos] at hkept
    exact h pos query stop hkept

namespace GoesTo

theorem refl (h : cursor.Remembers) : cursor.GoesTo cursor :=
  ⟨h, rfl, rfl, Nat.le_refl _, Nat.le_max_left _ _⟩

theorem trans (h : cursor.GoesTo after) (h' : after.GoesTo last) : cursor.GoesTo last where
  remembers := h'.remembers
  tokens_eq := h'.tokens_eq.trans h.tokens_eq
  depth_eq := h'.depth_eq.trans h.depth_eq
  le_pos := Nat.le_trans h.le_pos h'.le_pos
  pos_le := by
    have hbound := h'.pos_le
    rw [h.tokens_eq] at hbound
    exact Nat.le_trans hbound (Nat.max_le.mpr ⟨h.pos_le, Nat.le_max_right _ _⟩)

theorem advance (h : cursor.Remembers) {count : Nat} (hcount : count ≤ cursor.remaining) :
    cursor.GoesTo (cursor.advance count) where
  remembers := h
  tokens_eq := rfl
  depth_eq := rfl
  le_pos := Nat.le_add_right _ _
  pos_le := by
    simp only [remaining, Cursor.advance] at *
    omega

/-- Whatever went further was still within the tokens. -/
theorem pos_le_size (h : cursor.GoesTo after) (hlt : cursor.pos < after.pos) :
    after.pos ≤ cursor.tokens.size := by
  have hbound := h.pos_le
  omega

theorem back (h : cursor.GoesTo after) : cursor.GoesTo (after.reset cursor.mark) where
  remembers := h.remembers
  tokens_eq := h.tokens_eq
  depth_eq := h.depth_eq
  le_pos := Nat.le_refl _
  pos_le := Nat.le_max_left _ _

theorem keep (h : cursor.GoesTo after) {start : Nat} {outcome : Option (Query × Mark)}
    (houtcome : ∀ kept ∈ outcome, start < kept.2.pos ∧ kept.2.pos ≤ cursor.tokens.size) :
    cursor.GoesTo (after.keep start outcome) where
  remembers := h.remembers.keep (h.tokens_eq ▸ houtcome)
  tokens_eq := h.tokens_eq
  depth_eq := h.depth_eq
  le_pos := h.le_pos
  pos_le := h.pos_le

theorem replay (h : cursor.Remembers) {query : Query} {stop : Mark}
    (hkept : cursor.outcome? = some (some (query, stop))) : cursor.GoesTo (cursor.reset stop) where
  remembers := h
  tokens_eq := rfl
  depth_eq := rfl
  le_pos := Nat.le_of_lt (h _ _ _ hkept).1
  pos_le := Nat.le_trans (h _ _ _ hkept).2 (Nat.le_max_right _ _)

/-- What is done one level deeper ends one level less deep. -/
theorem undeepen (h : GoesTo { cursor with depth := cursor.depth + 1 } after) :
    cursor.GoesTo { after with depth := after.depth - 1 } where
  remembers := h.remembers
  tokens_eq := h.tokens_eq
  depth_eq := by
    have hdepth : after.depth = cursor.depth + 1 := h.depth_eq
    exact Nat.sub_eq_of_eq_add hdepth
  le_pos := h.le_pos
  pos_le := h.pos_le

end GoesTo

end Cursor

namespace Rule

variable {α β : Type}

section TakesAhead

/-- The rule takes some tokens that are there, or nothing at all. -/
def TakesAhead (rule : Rule (Option α)) : Prop :=
  ∀ cursor, rule cursor = .ok none cursor ∨ ∃ value count, 0 < count ∧ count ≤ cursor.remaining ∧
    rule cursor = .ok value (cursor.advance count)

theorem takesAhead_take? (pattern : String) : (take? pattern).TakesAhead := by
  intro cursor
  cases hsees : cursor.sees pattern with
  | false => exact .inl (take?_of_not hsees)
  | true => exact .inr ⟨_, 1, Nat.one_pos, Cursor.lt_remaining_of_seesAt hsees, take?_of_sees hsees⟩

theorem takesAhead_takeAll? (patterns : List String) : (takeAll? patterns).TakesAhead := by
  intro cursor
  cases hseen : patterns.isEmpty || !cursor.seesAll patterns with
  | true => exact .inl (by rw [takeAll?, if_pos hseen])
  | false =>
    have hrun : takeAll? patterns cursor = .ok cursor.text? (cursor.advance patterns.length) := by
      rw [takeAll?, hseen, if_neg Bool.false_ne_true]
    simp only [Bool.or_eq_false_iff, List.isEmpty_eq_false_iff, Bool.not_eq_false'] at hseen
    exact .inr ⟨_, _, List.length_pos_iff.mpr hseen.1, Cursor.length_le_remaining_of_seesAll hseen.2, hrun⟩

theorem takesAhead_takeIf (value : Token.Kind × String → Option α) : (takeIf value).TakesAhead := by
  intro cursor
  rw [takeIf]
  cases hlook : cursor.look? 0 with
  | none => exact .inl rfl
  | some look =>
    have hpos := Cursor.lt_remaining_of_look? hlook
    cases hvalue : value look with
    | none => exact .inl (by rw [Option.bind_some, hvalue])
    | some found => exact .inr ⟨_, 1, Nat.one_pos, hpos, by rw [Option.bind_some, hvalue]⟩

theorem takesAhead_takeJoined? (patterns : List String) : (takeJoined? patterns).TakesAhead := by
  intro cursor
  cases hseen : patterns.isEmpty || !cursor.seesJoined patterns with
  | true => exact .inl (by rw [takeJoined?, if_pos hseen])
  | false =>
    have hrun : takeJoined? patterns cursor =
        .ok (some (String.join (cursor.texts patterns.length))) (cursor.advance patterns.length) := by
      rw [takeJoined?, hseen, if_neg Bool.false_ne_true]
      rfl
    simp only [Bool.or_eq_false_iff, List.isEmpty_eq_false_iff, Bool.not_eq_false', Cursor.seesJoined,
      Bool.and_eq_true] at hseen
    exact .inr ⟨_, _, List.length_pos_iff.mpr hseen.1, Cursor.length_le_remaining_of_seesAll hseen.2.1, hrun⟩

end TakesAhead

def Advances (takes : α → Prop) (rule : Rule α) : Prop :=
  ∀ cursor : Cursor, cursor.Remembers →
    match rule cursor with
    | .ok value after => cursor.GoesTo after ∧ (takes value → cursor.pos < after.pos)
    | .error _ after => cursor.GoesTo after

section Advances

variable {takes : α → Prop} {rule : Rule α} {cursor after : Cursor} {value : α}

theorem Advances.of_ok (h : rule.Advances takes) (hcursor : cursor.Remembers)
    (hrun : rule cursor = .ok value after) :
    cursor.GoesTo after ∧ (takes value → cursor.pos < after.pos) := by
  have hgoes := h cursor hcursor
  rw [hrun] at hgoes
  exact hgoes

theorem Advances.of_error (h : rule.Advances takes) (hcursor : cursor.Remembers) {failure : Failure}
    (hrun : rule cursor = .error failure after) : cursor.GoesTo after := by
  have hgoes := h cursor hcursor
  rw [hrun] at hgoes
  exact hgoes

theorem Advances.weaken {goal : α → Prop} (h : rule.Advances takes)
    (hgoal : ∀ value, goal value → takes value) : rule.Advances goal := by
  intro cursor hcursor
  cases hrun : rule cursor with
  | error failure after => exact h.of_error hcursor hrun
  | ok value after =>
    obtain ⟨hgoes, htakes⟩ := h.of_ok hcursor hrun
    exact ⟨hgoes, fun hvalue => htakes (hgoal value hvalue)⟩

theorem Advances.bind {takes' : α → β → Prop} {goal : β → Prop} {next : α → Rule β}
    (h : rule.Advances takes) (hnext : ∀ value, (next value).Advances (takes' value))
    (hgoal : ∀ value last, goal last → takes value ∨ takes' value last) :
    (rule >>= next).Advances goal := by
  intro cursor hcursor
  rw [bind_apply]
  cases hrun : rule cursor with
  | error failure after => exact h.of_error hcursor hrun
  | ok value middle =>
    obtain ⟨hgoes, htakes⟩ := h.of_ok hcursor hrun
    cases hlast : next value middle with
    | error failure after =>
      simp only [hlast]
      exact hgoes.trans ((hnext value).of_error hgoes.remembers hlast)
    | ok last after =>
      simp only [hlast]
      obtain ⟨hgoes', htakes'⟩ := (hnext value).of_ok hgoes.remembers hlast
      refine ⟨hgoes.trans hgoes', fun hlast => ?_⟩
      obtain hvalue | hvalue := hgoal value last hlast
      · exact Nat.lt_of_lt_of_le (htakes hvalue) hgoes'.le_pos
      · exact Nat.lt_of_le_of_lt hgoes.le_pos (htakes' hvalue)

/-- A rule that leaves the cursor where it is, without a value that asks for a token. -/
theorem advances_of_stays (h : ∀ cursor, ∃ value, rule cursor = .ok value cursor ∧ ¬takes value) :
    rule.Advances takes := by
  intro cursor hcursor
  obtain ⟨value, hrun, hvalue⟩ := h cursor
  rw [hrun]
  exact ⟨.refl hcursor, fun htakes => absurd htakes hvalue⟩

/-- A rule that fails at the cursor. -/
theorem advances_of_fails (h : ∀ cursor, ∃ failure, rule cursor = .error failure cursor) :
    rule.Advances takes := by
  intro cursor hcursor
  obtain ⟨failure, hrun⟩ := h cursor
  rw [hrun]
  exact .refl hcursor

theorem TakesAhead.advances {rule : Rule (Option α)} (h : rule.TakesAhead) : rule.Advances ifFound := by
  intro cursor hcursor
  obtain hrun | ⟨value, count, hpos, hcount, hrun⟩ := h cursor
  · rw [hrun]
    exact ⟨.refl hcursor, fun hnone => nomatch hnone⟩
  · rw [hrun]
    exact ⟨.advance hcursor hcount, fun _ => Nat.lt_add_of_pos_right hpos⟩

/-- What comes after a token that was taken has to take no other one. -/
theorem Advances.afterSkip {yes no : Rule α} (pattern : String) (hyes : yes.Advances never)
    (hno : no.Advances takes) :
    (skip pattern >>= fun isThere => if isThere = true then yes else no).Advances takes := by
  intro cursor hcursor
  cases hsees : cursor.sees pattern with
  | false =>
    rw [bind_of_ok (skip_of_not hsees)]
    exact hno cursor hcursor
  | true =>
    rw [bind_of_ok (skip_of_sees hsees), if_pos rfl]
    have hgoes := Cursor.GoesTo.advance hcursor (Cursor.lt_remaining_of_seesAt hsees)
    cases hrun : yes (cursor.advance 1) with
    | error failure after => exact hgoes.trans (hyes.of_error hgoes.remembers hrun)
    | ok value after =>
      have hrest := (hyes.of_ok hgoes.remembers hrun).1
      exact ⟨hgoes.trans hrest, fun _ => Nat.lt_of_lt_of_le (Nat.lt_succ_self _) hrest.le_pos⟩

theorem Advances.afterAsk {yes no : Rule α} (question : Cursor → Bool) (hyes : yes.Advances takes)
    (hno : no.Advances takes) :
    (ask question >>= fun isTrue => if isTrue = true then yes else no).Advances takes := by
  intro cursor hcursor
  rw [bind_of_ok (ask_apply question cursor)]
  cases question cursor with
  | true => exact hyes cursor hcursor
  | false => exact hno cursor hcursor

theorem Advances.attempt {rule : Rule (Option α)} (h : rule.Advances ifFound) :
    (Rule.attempt rule).Advances ifFound := by
  intro cursor hcursor
  rw [attempt_apply]
  cases hrun : rule cursor with
  | error failure after => exact h.of_error hcursor hrun
  | ok value after =>
    obtain ⟨hgoes, htakes⟩ := h.of_ok hcursor hrun
    cases value with
    | none => exact ⟨hgoes.back, fun hnone => nomatch hnone⟩
    | some value => exact ⟨hgoes, htakes⟩

theorem Advances.descend (h : rule.Advances takes) : (Rule.descend rule).Advances takes := by
  intro cursor hcursor
  by_cases hdepth : Cursor.maxDepth ≤ cursor.depth
  · rw [Rule.descend, if_pos hdepth]
    exact .refl hcursor
  · rw [Rule.descend, if_neg hdepth]
    have hdeeper : Cursor.Remembers { cursor with depth := cursor.depth + 1 } := hcursor
    cases hrun : rule { cursor with depth := cursor.depth + 1 } with
    | error failure after => exact (h.of_error hdeeper hrun).undeepen
    | ok value after =>
      obtain ⟨hgoes, htakes⟩ := h.of_ok hdeeper hrun
      exact ⟨hgoes.undeepen, htakes⟩

/-- A kept query has ended where it is replayed to, and a new one ends where it is kept. -/
theorem Advances.once {rule : Rule (Option Query)} (h : rule.Advances ifFound) :
    (Rule.once rule).Advances ifFound := by
  intro cursor hcursor
  rw [once_apply]
  cases hkept : cursor.outcome? with
  | some kept =>
    cases kept with
    | none => exact ⟨.refl hcursor, fun hnone => nomatch hnone⟩
    | some kept => exact ⟨.replay hcursor hkept, fun _ => (hcursor _ _ _ hkept).1⟩
  | none =>
    cases hrun : Rule.attempt rule cursor with
    | error failure after => exact h.attempt.of_error hcursor hrun
    | ok value after =>
      dsimp only
      obtain ⟨hgoes, htakes⟩ := h.attempt.of_ok hcursor hrun
      cases hkeeps : after.keepsOutcomes with
      | false =>
        have hkeep : keepOutcome cursor.pos value after = .ok () after := by
          rw [keepOutcome, hkeeps, if_neg Bool.false_ne_true]
        rw [bind_of_ok hkeep]
        exact ⟨hgoes, htakes⟩
      | true =>
        rw [bind_of_ok (keepOutcome_apply cursor.pos value hkeeps)]
        refine ⟨hgoes.keep ?_, htakes⟩
        intro kept hkept
        obtain ⟨query, hquery, rfl⟩ := Option.map_eq_some_iff.mp hkept
        have hlt := htakes (hquery ▸ rfl)
        exact ⟨hlt, hgoes.pos_le_size hlt⟩

/-- A rule followed by one that need not move. -/
theorem Advances.andThen {rule : Rule α} {takes : α → Prop} {next : α → Rule β} (h : rule.Advances takes)
    (hnext : ∀ value, (next value).Advances never) : (rule >>= next).Advances never :=
  h.bind hnext fun _ _ hgoal => hgoal.elim

theorem Advances.many {rule : Rule (Option α)} (h : rule.Advances ifFound) :
    (Rule.many rule).Advances never := by
  have hrepeat (steps : Nat) : (repeatUpTo steps rule).Advances never := by
    induction steps with
    | zero => exact advances_of_stays fun cursor => ⟨[], rfl, id⟩
    | succ steps ih =>
      refine h.andThen fun found => ?_
      cases found with
      | none => exact advances_of_stays fun cursor => ⟨[], rfl, id⟩
      | some value =>
        refine ih.andThen fun values => ?_
        exact advances_of_stays fun cursor => ⟨value :: values, rfl, id⟩
  intro cursor hcursor
  exact hrepeat (cursor.remaining + 1) cursor hcursor

end Advances

theorem isClosed_advances : IsClosed fun takes rule => rule.Advances takes where
  weaken := .weaken
  pure h := advances_of_stays fun _ => ⟨_, rfl, h⟩
  bind := .bind
  expected _ := advances_of_fails fun _ => ⟨_, rfl⟩
  tooDeep := advances_of_fails fun _ => ⟨_, rfl⟩
  ask _ _ := advances_of_stays fun _ => ⟨_, rfl, id⟩
  take? pattern _ := (takesAhead_take? pattern).advances
  takeAll? patterns _ := (takesAhead_takeAll? patterns).advances
  takeIf _ := (takesAhead_takeIf _).advances
  takeJoined? := (takesAhead_takeJoined? _).advances
  slash hyes hno _ := hyes.afterSkip "/" hno
  ahead pattern _ hyes hno := hyes.afterAsk (·.seesAt 1 pattern) hno
  attempt := .attempt
  descend := .descend
  once := .once
  many := .many
  steps h _ cursor hcursor := h _ cursor hcursor

end Rule

end SqlLayout
