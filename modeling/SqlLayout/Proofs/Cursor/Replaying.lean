import SqlLayout.Proofs.Cursor.Procedure
import SqlLayout.Proofs.Cursor.Restoring

/-!
# Replaying a Kept Outcome

Where only one rule is run through the kept outcomes, and all it does is to look at tokens and to take them,
a replay gives what the rule would give, and ends at the same token. A kept outcome also holds how many
comments had been handed out when the rule was run; a replay goes back to that, while another run of the rule
would leave the comments alone. So comments that were handed out in between are handed out again.
-/

namespace SqlLayout

namespace Cursor

/-- The comments that are still to be handed out. -/
def toCome (cursor : Cursor) : List Comment :=
  cursor.comments.toList.drop cursor.drained

theorem moveTo_eq {cursor other : Cursor} (h : other.pos = cursor.pos) : other.moveTo cursor.pos = other := by
  rw [← h]
  rfl

end Cursor

namespace Rule

variable {α β : Type}

/-- All that a rule does is to look at the tokens from its place on and to take some of them. -/
def TakesOnly (rule : Rule α) : Prop :=
  ∀ cursor other : Cursor, cursor.SharesTokens other → other.pos = cursor.pos →
    match rule cursor with
    | .ok value after => after = cursor.moveTo after.pos ∧ rule other = .ok value (other.moveTo after.pos)
    | .error reason after =>
      after = cursor.moveTo after.pos ∧ rule other = .error reason (other.moveTo after.pos)

namespace TakesOnly

variable {rule : Rule α} {cursor other after : Cursor}

theorem of_ok (h : rule.TakesOnly) (hshares : cursor.SharesTokens other) (hpos : other.pos = cursor.pos)
    {value : α} (hrun : rule cursor = .ok value after) :
    after = cursor.moveTo after.pos ∧ rule other = .ok value (other.moveTo after.pos) := by
  have hruns := h cursor other hshares hpos
  rw [hrun] at hruns
  exact hruns

theorem of_error (h : rule.TakesOnly) (hshares : cursor.SharesTokens other) (hpos : other.pos = cursor.pos)
    {reason : Failure} (hrun : rule cursor = .error reason after) :
    after = cursor.moveTo after.pos ∧ rule other = .error reason (other.moveTo after.pos) := by
  have hruns := h cursor other hshares hpos
  rw [hrun] at hruns
  exact hruns

theorem map (h : rule.TakesOnly) (change : α → β) : (change <$> rule).TakesOnly := by
  intro cursor other hshares hpos
  rw [map_eq_bind, bind_apply, bind_apply]
  cases hrun : rule cursor with
  | error reason after =>
    obtain ⟨hafter, hother⟩ := h.of_error hshares hpos hrun
    rw [hother]
    exact ⟨hafter, rfl⟩
  | ok value after =>
    obtain ⟨hafter, hother⟩ := h.of_ok hshares hpos hrun
    rw [hother]
    exact ⟨hafter, rfl⟩

theorem attempt {rule : Rule (Option α)} (h : rule.TakesOnly) : (Rule.attempt rule).TakesOnly := by
  intro cursor other hshares hpos
  rw [attempt_apply, attempt_apply]
  cases hrun : rule cursor with
  | error reason after =>
    obtain ⟨hafter, hother⟩ := h.of_error hshares hpos hrun
    rw [hother]
    exact ⟨hafter, rfl⟩
  | ok value after =>
    obtain ⟨hafter, hother⟩ := h.of_ok hshares hpos hrun
    rw [hother]
    cases value with
    | some value => exact ⟨hafter, rfl⟩
    | none =>
      have hback : (other.moveTo after.pos).reset other.mark = other.moveTo cursor.pos :=
        (Cursor.moveTo_eq hpos).symm
      refine ⟨?_, congrArg (EStateM.Result.ok none) hback⟩
      rw [hafter]
      rfl

end TakesOnly

theorem takesOnly_bump : bump.TakesOnly := by
  intro cursor other hshares hpos
  have htext : other.text? = cursor.text? := by
    rw [Cursor.text?, Cursor.text?, Cursor.token?, Cursor.token?, hshares.tokens_eq, hpos]
  rw [bump, bump, htext]
  cases cursor.text? with
  | none => exact ⟨rfl, congrArg (EStateM.Result.ok none) (Cursor.moveTo_eq hpos).symm⟩
  | some text =>
    refine ⟨rfl, congrArg (EStateM.Result.ok (some text)) ?_⟩
    rw [Cursor.advance, hpos]
    rfl

section Once

variable {rule : Rule (Option Query)} {cursor after : Cursor}

theorem once_of_kept_none (hkept : cursor.outcome? = some none) : once rule cursor = .ok none cursor := by
  rw [once_apply, hkept]

theorem once_of_kept_some {query : Query} {stop : Mark} (hkept : cursor.outcome? = some (some (query, stop))) :
    once rule cursor = .ok (some query) (cursor.reset stop) := by
  rw [once_apply, hkept]

theorem once_of_ok (hkept : cursor.outcome? = none) {value : Option Query}
    (hrun : Rule.attempt rule cursor = .ok value after) (hkeeps : after.keepsOutcomes = true) :
    once rule cursor = .ok value (after.keep cursor.pos (value.map fun query => (query, after.mark))) := by
  rw [once_apply, hkept, hrun]
  exact bind_of_ok (keepOutcome_apply cursor.pos value hkeeps)

theorem once_of_error (hkept : cursor.outcome? = none) {reason : Failure}
    (hrun : Rule.attempt rule cursor = .error reason after) : once rule cursor = .error reason after := by
  rw [once_apply, hkept, hrun]

end Once

end Rule

namespace Cursor

/-- The cursor is in the stream of another one, and every outcome it keeps is that of the rule at a cursor
that was seen. -/
structure KeepsSeen (rule : Rule (Option Query)) (seen : Cursor → Prop) (start cursor : Cursor) : Prop where
  shares : start.SharesStream cursor
  keeps_eq : cursor.keepsOutcomes = true
  exists_seen : ∀ pos outcome, cursor.outcomes.lookup pos = some outcome →
    ∃ first value stop, seen first ∧ start.SharesStream first ∧ first.pos = pos ∧
      Rule.attempt rule first = .ok value stop ∧ outcome = value.map fun query => (query, stop.mark)

namespace KeepsSeen

variable {rule : Rule (Option Query)} {seen : Cursor → Prop} {start cursor : Cursor}

theorem ofStream (size : Nat) (stream : TokenStream) :
    KeepsSeen rule seen (Cursor.ofStream size stream) (Cursor.ofStream size stream) :=
  ⟨.refl _, rfl, fun _ _ hkept => nomatch hkept⟩

/-- Only the stream of the cursor and what it keeps matter. -/
theorem moved (h : KeepsSeen rule seen start cursor) (pos drained depth : Nat) :
    KeepsSeen rule seen start { cursor with pos, drained, depth } :=
  ⟨h.shares.moved _ _ _ _, h.keeps_eq, h.exists_seen⟩

theorem keep (h : KeepsSeen rule seen start cursor) {first stop : Cursor} {value : Option Query}
    (hseen : seen first) (hfirst : start.SharesStream first)
    (hrun : Rule.attempt rule first = .ok value stop) :
    KeepsSeen rule seen start (cursor.keep first.pos (value.map fun query => (query, stop.mark))) where
  shares := h.shares.moved _ _ _ _
  keeps_eq := h.keeps_eq
  exists_seen pos outcome hkept := by
    by_cases hpos : pos = first.pos
    · subst hpos
      rw [Cursor.keep, List.lookup_cons_self] at hkept
      exact ⟨first, value, stop, hseen, hfirst, rfl, hrun, (Option.some.inj hkept).symm⟩
    · rw [lookup_keep hpos] at hkept
      exact h.exists_seen pos outcome hkept

theorem once (h : KeepsSeen rule seen start cursor) (hrule : rule.TakesOnly) (hseen : seen cursor) :
    KeepsSeen rule seen start ((Rule.once rule).leaves cursor) := by
  cases hkept : cursor.outcome? with
  | some kept =>
    cases kept with
    | none =>
      rw [Rule.leaves_of_ok (Rule.once_of_kept_none hkept)]
      exact h
    | some kept =>
      rw [Rule.leaves_of_ok (Rule.once_of_kept_some hkept)]
      exact h.moved _ _ _
  | none =>
    cases hrun : Rule.attempt rule cursor with
    | error reason after =>
      rw [Rule.leaves_of_error (Rule.once_of_error hkept hrun), (hrule.attempt.of_error (.refl _) rfl hrun).1]
      exact h.moved _ _ _
    | ok value after =>
      have hafter : KeepsSeen rule seen start after := by
        rw [(hrule.attempt.of_ok (.refl _) rfl hrun).1]
        exact h.moved _ _ _
      rw [Rule.leaves_of_ok (Rule.once_of_ok hkept hrun hafter.keeps_eq)]
      exact hafter.keep hseen h.shares hrun

end KeepsSeen

end Cursor

namespace Procedure

variable {α : Type} {rule : Rule (Option Query)}

/-- The cursors that a procedure comes by. -/
def Reaches (procedure : Procedure α) (marks : List Mark) (cursor other : Cursor) : Prop :=
  ∃ before after, procedure.Performs marks cursor before after ∧ (other = before ∨ other = after)

theorem isInvariant_keepsSeen (hrule : rule.TakesOnly) (seen : Cursor → Prop) (start : Cursor) :
    IsInvariant (· = rule) seen (Cursor.KeepsSeen rule seen start) where
  advance h _ := h.moved _ _ _
  comments h := h.moved _ _ _
  reset h _ := h.moved _ _ _
  deepen h _ := h.moved _ _ _
  undeepen h := h.moved _ _ _
  once h hseen hallowed := hallowed ▸ h.once hrule hseen

theorem Reaches.keepsSeen {procedure : Procedure α} (hrule : rule.TakesOnly)
    (hkeeps : procedure.KeepsOnly (· = rule)) {size : Nat} {stream : TokenStream} {cursor : Cursor}
    (h : procedure.Reaches [] (Cursor.ofStream size stream) cursor) :
    Cursor.KeepsSeen rule (procedure.Reaches [] (Cursor.ofStream size stream))
      (Cursor.ofStream size stream) cursor := by
  obtain ⟨before, after, hdone, hcursor⟩ := h
  have hinv := isInvariant_keepsSeen hrule (procedure.Reaches [] (Cursor.ofStream size stream))
    (Cursor.ofStream size stream)
  obtain ⟨hbefore, hafter⟩ := hinv.performs hkeeps
    (fun _ hmark => absurd hmark List.not_mem_nil) (.ofStream size stream)
    (fun before after hdone => ⟨before, after, hdone, .inl rfl⟩) hdone
  obtain rfl | rfl := hcursor
  · exact hbefore
  · exact hafter

/-- Wherever a procedure comes by that keeps the outcomes of one rule, and the rule only takes tokens,
replaying gives what trying the rule would give, at the same token and equally deep. The comments still to
be handed out are those that were so where the outcome was kept, while another try would leave the ones that
are so now. -/
theorem once_of_reaches {procedure : Procedure α} (hrule : rule.TakesOnly)
    (hkeeps : procedure.KeepsOnly (· = rule)) {size : Nat} {stream : TokenStream} {cursor : Cursor}
    (h : procedure.Reaches [] (Cursor.ofStream size stream) cursor) :
    match Rule.attempt rule cursor with
    | .error reason stop => Rule.once rule cursor = .error reason stop
    | .ok value stop => ∃ first last, procedure.Reaches [] (Cursor.ofStream size stream) first ∧
        first.pos = cursor.pos ∧ (cursor.outcome? = none ∨ value = none → first = cursor) ∧
        Rule.once rule cursor = .ok value last ∧ last.pos = stop.pos ∧ last.depth = stop.depth ∧
        last.toCome = first.toCome ∧ stop.toCome = cursor.toCome := by
  have hseen := h.keepsSeen hrule hkeeps
  cases hkept : cursor.outcome? with
  | none =>
    cases hrun : Rule.attempt rule cursor with
    | error reason stop => exact Rule.once_of_error hkept hrun
    | ok value stop =>
      have hstop := (hrule.attempt.of_ok (.refl _) rfl hrun).1
      have honce := Rule.once_of_ok hkept hrun (hstop ▸ hseen.keeps_eq)
      have hcome : stop.toCome = cursor.toCome := by rw [hstop]; rfl
      exact ⟨cursor, _, h, rfl, fun _ => rfl, honce, rfl, rfl, hcome, hcome⟩
  | some outcome =>
    obtain ⟨first, value, stop, hfirst, hshares, hpos, hrun, rfl⟩ := hseen.exists_seen _ _ hkept
    have hstream := hshares.symm.trans hseen.shares
    obtain ⟨hstop, hrun'⟩ := hrule.attempt.of_ok hstream.toSharesTokens hpos.symm hrun
    rw [hrun']
    cases value with
    | none =>
      have hback := Rule.restores_attempt rule cursor _ hrun'
      have hpos' : stop.pos = cursor.pos := congrArg Mark.pos hback
      exact ⟨cursor, cursor, h, rfl, fun _ => rfl, Rule.once_of_kept_none hkept, hpos'.symm, rfl, rfl, rfl⟩
    | some query =>
      have hcome : (cursor.reset stop.mark).toCome = first.toCome := by
        rw [hstop]
        exact congrArg (·.toList.drop first.drained) hstream.comments_eq
      exact ⟨first, _, hfirst, hpos, fun hcase => by simp at hcase, Rule.once_of_kept_some hkept, rfl, rfl,
        hcome, rfl⟩

section Comment

/-- The tokens of a bracketed name after a comment. -/
def commentedName : TokenStream :=
  { tokens := [⟨.parenOpen, "(", 8⟩, ⟨.word, "a", 9⟩, ⟨.parenClose, ")", 10⟩]
    comments := [⟨0, .blockComment, "/* c */", 0⟩] }

/-- Takes a token for a query of everything. -/
def takeForQuery : Rule (Option Query) :=
  let select : Select :=
    { distinct := false, shape := none, items := [.wildcard none [] []], source := none, filter := none,
      groupBy := [], having := none, qualify := none }
  Option.map (fun _ => { common := none, body := .select select, order := none }) <$> Rule.bump

/-- Keeps the outcome of a rule, goes back to before it and hands out the comments there. -/
def handOutAfter (rule : Rule (Option Query)) : Procedure (List String) :=
  mark.andThen fun start => (once rule).andThen fun _ => (reset start).andThen fun _ => comments

theorem takesOnly_takeForQuery : takeForQuery.TakesOnly :=
  Rule.takesOnly_bump.map _

theorem keepsOnly_handOutAfter (rule : Rule (Option Query)) : (handOutAfter rule).KeepsOnly (· = rule) :=
  ⟨trivial, fun _ => ⟨rfl, fun _ => ⟨trivial, fun _ => trivial⟩⟩⟩

/-- A kept outcome that is replayed after the comment before it was handed out. -/
theorem once_of_reaches_commentedName : ∃ cursor first last,
    (handOutAfter takeForQuery).Reaches [] (Cursor.ofStream 11 commentedName) cursor ∧
      (handOutAfter takeForQuery).Reaches [] (Cursor.ofStream 11 commentedName) first ∧
      first.pos = 0 ∧ cursor.outcome?.isSome ∧ cursor.toCome = [] ∧
      (Rule.once takeForQuery).leaves cursor = last ∧ last.pos = 1 ∧ last.toCome = first.toCome := by
  have hreaches : (handOutAfter takeForQuery).Reaches [] (Cursor.ofStream 11 commentedName) _ :=
    ⟨_, _, .self _ _ _, .inr rfl⟩
  obtain ⟨first, last, hfirst, hpos, -, hlast, hstop, -, hcome, -⟩ :=
    once_of_reaches takesOnly_takeForQuery (keepsOnly_handOutAfter takeForQuery) hreaches
  exact ⟨_, first, last, hreaches, hfirst, hpos, rfl, rfl, Rule.leaves_of_ok hlast, hstop, hcome⟩

/-- The comment that was handed out is still to be handed out after a replay, but not after another try. -/
theorem toCome_once_commentedName :
    TokenStream.ofSource "/* c */ (a)" = .ok commentedName ∧
      takeForQuery.TakesOnly ∧ (handOutAfter takeForQuery).KeepsOnly (· = takeForQuery) ∧
      let cursor := ((handOutAfter takeForQuery).run []).leaves (Cursor.ofStream 11 commentedName)
      (handOutAfter takeForQuery).Reaches [] (Cursor.ofStream 11 commentedName) cursor ∧
        ((Rule.attempt takeForQuery).leaves cursor).toCome = [] ∧
        ((Rule.once takeForQuery).leaves cursor).toCome = commentedName.comments := by
  have hsource : TokenStream.ofSource "/* c */ (a)" = .ok commentedName := by decide +kernel
  exact ⟨hsource, takesOnly_takeForQuery, keepsOnly_handOutAfter takeForQuery,
    ⟨_, _, .self _ _ _, .inr rfl⟩, rfl, rfl⟩

end Comment

end Procedure

end SqlLayout
