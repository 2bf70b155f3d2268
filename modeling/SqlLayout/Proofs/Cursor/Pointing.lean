import SqlLayout.Proofs.Cursor.Built

/-!
# Where Rules Fail

A rule that fails points at one token of its stream, or at the end, and says what it found there. Lookahead,
attempts and kept outcomes move the cursor about, but none of them makes up a place: whatever position a
failure is met at, the span and the text are read off the same token.
-/

namespace SqlLayout

namespace Cursor

/-- A failure at the token with some index, or at the end if there is none, which names what stands there. -/
inductive Reports (cursor : Cursor) : Failure → Prop
  | expected (what : String) (index : Nat) :
    cursor.Reports ⟨cursor.spanAt index, .expected what (cursor.tokens[index]?.map Token.text)⟩
  | tooDeep (index : Nat) : cursor.Reports ⟨cursor.spanAt index, .tooDeep maxDepth⟩

/-- Two cursors in the same tokens of the same source. -/
structure SharesTokens (cursor other : Cursor) : Prop where
  tokens_eq : other.tokens = cursor.tokens
  size_eq : other.size = cursor.size

namespace SharesTokens

variable {cursor other third : Cursor}

theorem refl (cursor : Cursor) : cursor.SharesTokens cursor :=
  ⟨rfl, rfl⟩

theorem trans (h : cursor.SharesTokens other) (h' : other.SharesTokens third) :
    cursor.SharesTokens third :=
  ⟨h'.tokens_eq.trans h.tokens_eq, h'.size_eq.trans h.size_eq⟩

theorem spanAt_eq (h : cursor.SharesTokens other) (index : Nat) : other.spanAt index = cursor.spanAt index := by
  rw [spanAt, spanAt, h.tokens_eq, h.size_eq]

/-- A failure is the same wherever in the stream it is met. -/
theorem reports (h : cursor.SharesTokens other) {failure : Failure} (hfails : other.Reports failure) :
    cursor.Reports failure := by
  cases hfails with
  | expected what index =>
    rw [h.spanAt_eq, h.tokens_eq]
    exact .expected what index
  | tooDeep index =>
    rw [h.spanAt_eq]
    exact .tooDeep index

end SharesTokens

end Cursor

namespace Rule

variable {α β : Type}

/-- Whatever the cursor, the rule stays in its tokens, and fails at one of them or at the end. -/
def Points (rule : Rule α) : Prop :=
  ∀ cursor : Cursor,
    match rule cursor with
    | .ok _ after => cursor.SharesTokens after
    | .error failure _ => cursor.Reports failure

theorem points_keepOutcome (start : Nat) (outcome : Option Query) : (keepOutcome start outcome).Points := by
  intro cursor
  cases hkeeps : cursor.keepsOutcomes with
  | true =>
    rw [keepOutcome_apply start outcome hkeeps]
    exact ⟨rfl, rfl⟩
  | false =>
    rw [keepOutcome, hkeeps, if_neg Bool.false_ne_true]
    exact .refl cursor

namespace Points

variable {rule : Rule α} {cursor after : Cursor}

theorem of_ok (h : rule.Points) {value : α} (hrun : rule cursor = .ok value after) :
    cursor.SharesTokens after := by
  have hpoints := h cursor
  rw [hrun] at hpoints
  exact hpoints

theorem of_error (h : rule.Points) {failure : Failure} (hrun : rule cursor = .error failure after) :
    cursor.Reports failure := by
  have hpoints := h cursor
  rw [hrun] at hpoints
  exact hpoints

theorem bind {next : α → Rule β} (h : rule.Points) (hnext : ∀ value, (next value).Points) :
    (rule >>= next).Points := by
  intro cursor
  rw [bind_apply]
  cases hrun : rule cursor with
  | error failure after => exact h.of_error hrun
  | ok value middle =>
    have hshares := h.of_ok hrun
    cases hlast : next value middle with
    | error failure after =>
      simp only [hlast]
      exact hshares.reports ((hnext value).of_error hlast)
    | ok last after =>
      simp only [hlast]
      exact hshares.trans ((hnext value).of_ok hlast)

theorem pure (value : α) : (Pure.pure value : Rule α).Points :=
  fun cursor => .refl cursor

theorem ite {condition : Prop} [Decidable condition] {other : Rule α} (h : rule.Points)
    (hother : other.Points) : (if condition then rule else other).Points := by
  split
  · exact h
  · exact hother

theorem attempt {rule : Rule (Option α)} (h : rule.Points) : (Rule.attempt rule).Points := by
  intro cursor
  rw [attempt_apply]
  cases hrun : rule cursor with
  | error failure after => exact h.of_error hrun
  | ok value after =>
    have hshares := h.of_ok hrun
    cases value with
    | none => exact ⟨hshares.tokens_eq, hshares.size_eq⟩
    | some value => exact hshares

theorem descend (h : rule.Points) : (Rule.descend rule).Points := by
  intro cursor
  by_cases hdepth : Cursor.maxDepth ≤ cursor.depth
  · rw [Rule.descend, if_pos hdepth]
    exact .tooDeep cursor.pos
  · rw [Rule.descend, if_neg hdepth]
    have hdeeper : cursor.SharesTokens { cursor with depth := cursor.depth + 1 } := ⟨rfl, rfl⟩
    cases hrun : rule { cursor with depth := cursor.depth + 1 } with
    | error failure after => exact hdeeper.reports (h.of_error hrun)
    | ok value after =>
      have hshares := hdeeper.trans (h.of_ok hrun)
      exact ⟨hshares.tokens_eq, hshares.size_eq⟩

/-- Keeping an outcome and going where a kept one ended leave the tokens alone. -/
theorem once {rule : Rule (Option Query)} (h : rule.Points) : (Rule.once rule).Points := by
  intro cursor
  rw [once_apply]
  cases cursor.outcome? with
  | some kept =>
    cases kept with
    | none => exact .refl cursor
    | some kept => exact ⟨rfl, rfl⟩
  | none =>
    cases hrun : Rule.attempt rule cursor with
    | error failure after => exact h.attempt.of_error hrun
    | ok value after =>
      have hshares := h.attempt.of_ok hrun
      have hrest : (keepOutcome cursor.pos value >>= fun _ => Pure.pure value).Points :=
        (points_keepOutcome cursor.pos value).bind fun _ => .pure value
      dsimp only
      cases hlast : (keepOutcome cursor.pos value >>= fun _ => Pure.pure value) after with
      | error failure last => exact hshares.reports (hrest.of_error hlast)
      | ok value last => exact hshares.trans (hrest.of_ok hlast)

theorem many {rule : Rule (Option α)} (h : rule.Points) : (Rule.many rule).Points := by
  have hrepeat (steps : Nat) : (repeatUpTo steps rule).Points := by
    induction steps with
    | zero => exact .pure []
    | succ steps ih =>
      apply h.bind
      rintro (_ | value)
      · exact .pure []
      · exact ih.bind fun values => .pure (value :: values)
  exact fun cursor => hrepeat (cursor.remaining + 1) cursor

theorem require {rule : Rule (Option α)} (h : rule.Points) (what : String) :
    (Rule.require what rule).Points := by
  apply h.bind
  rintro (_ | value)
  · exact fun cursor => .expected what cursor.pos
  · exact .pure value

end Points

end Rule

end SqlLayout
