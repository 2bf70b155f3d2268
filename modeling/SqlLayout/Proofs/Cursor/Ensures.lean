import SqlLayout.Proofs.Cursor.Agreement
import SqlLayout.Proofs.Token.Glyph

/-!
# What a Rule Ensures

Reading with no kept outcomes, a rule leaves everything of a cursor but its place as it was. It ensures
a condition at a cursor when the condition holds of whatever value it gives and of the cursor after it;
where only the value matters, it gives values of a kind.
-/

namespace SqlLayout

namespace Cursor

/-- Nothing is kept, and every token is what its kind says. -/
structure IsClean (cursor : Cursor) : Prop where
  keeps_eq : cursor.keepsOutcomes = false
  outcomes_eq : cursor.outcomes = []
  tokens : ∀ token ∈ cursor.tokens, token.glyph.IsGenuine
  comments : ∀ comment ∈ cursor.comments,
    comment.token.glyph.IsGenuine ∧ comment.token.kind.isComment

theorem IsClean.of_passes {later earlier : Cursor} (h : earlier.IsClean)
    (hpasses : later.Passes earlier) : later.IsClean := by
  have htokens : later.tokens = earlier.tokens := by
    have hframe := congrArg Cursor.tokens hpasses.frame
    exact hframe
  have hcomments : later.comments = earlier.comments := by
    have hframe := congrArg Cursor.comments hpasses.frame
    exact hframe
  constructor
  · exact hpasses.keeps_eq.trans h.keeps_eq
  · exact hpasses.outcomes_eq.trans h.outcomes_eq
  · rw [htokens]
    exact h.tokens
  · rw [hcomments]
    exact h.comments

theorem IsClean.descend {cursor : Cursor} (h : cursor.IsClean) :
    IsClean { cursor with depth := cursor.depth + 1 } :=
  ⟨h.keeps_eq, h.outcomes_eq, h.tokens, h.comments⟩

theorem IsClean.isGenuine {cursor : Cursor} (h : cursor.IsClean) {ahead : Nat} {token : Token}
    (htoken : cursor.token? ahead = some token) : token.glyph.IsGenuine :=
  h.tokens token (Array.mem_of_getElem? htoken)

end Cursor

namespace Rule

variable {α β : Type}

def Ensures (rule : Rule α) (cursor : Cursor) (post : α → Cursor → Prop) : Prop :=
  cursor.IsClean → ∀ value after, rule cursor = .ok value after →
    after.Passes cursor ∧ post value after

/-- What a rule ensures at every cursor of its value alone. -/
def Gives (rule : Rule α) (post : α → Prop) : Prop :=
  ∀ cursor, rule.Ensures cursor fun value _ => post value

section Ensures

variable {rule : Rule α} {next : α → Rule β} {cursor : Cursor} {post : α → Cursor → Prop}
  {goal : β → Cursor → Prop}

theorem Ensures.mono (h : rule.Ensures cursor post) {weaker : α → Cursor → Prop}
    (hpost : ∀ value after, post value after → weaker value after) : rule.Ensures cursor weaker := by
  intro hclean value after hrun
  obtain ⟨hpasses, hvalue⟩ := h hclean value after hrun
  exact ⟨hpasses, hpost value after hvalue⟩

theorem Ensures.pure {value : α} (h : post value cursor) :
    Ensures (Pure.pure value : Rule α) cursor post := by
  intro _ _ _ hrun
  cases hrun
  exact ⟨.refl cursor, h⟩

theorem Ensures.bind (h : rule.Ensures cursor post)
    (hnext : ∀ value after, post value after → (next value).Ensures after goal) :
    (rule >>= next).Ensures cursor goal := by
  intro hclean last final hrun
  rw [bind_apply] at hrun
  cases hfirst : rule cursor with
  | error failure after =>
    rw [hfirst] at hrun
    cases hrun
  | ok value after =>
    rw [hfirst] at hrun
    obtain ⟨hpasses, hvalue⟩ := h hclean value after hfirst
    obtain ⟨hlast, hgoal⟩ := hnext value after hvalue (hclean.of_passes hpasses) last final hrun
    exact ⟨hlast.trans hpasses, hgoal⟩

/-- The first rule also passes what it is known to do. -/
theorem Ensures.and (h : rule.Ensures cursor post) {also : α → Cursor → Prop}
    (halso : rule.Ensures cursor also) :
    rule.Ensures cursor fun value after => post value after ∧ also value after := by
  intro hclean value after hrun
  obtain ⟨hpasses, hvalue⟩ := h hclean value after hrun
  exact ⟨hpasses, hvalue, (halso hclean value after hrun).2⟩

/-- What is ensured may speak of the run itself. -/
theorem Ensures.recall (h : rule.Ensures cursor post) :
    rule.Ensures cursor fun value after => post value after ∧ rule cursor = .ok value after := by
  intro hclean value after hrun
  obtain ⟨hpasses, hvalue⟩ := h hclean value after hrun
  exact ⟨hpasses, hvalue, hrun⟩

theorem Ensures.clean (h : cursor.IsClean → rule.Ensures cursor post) : rule.Ensures cursor post :=
  fun hclean => h hclean hclean

theorem Ensures.map (h : rule.Ensures cursor post) {change : α → β}
    (hpost : ∀ value after, post value after → goal (change value) after) :
    (change <$> rule).Ensures cursor goal := by
  rw [map_eq_bind]
  exact h.bind fun value after hvalue => .pure (hpost value after hvalue)

theorem Ensures.ite {condition : Prop} [Decidable condition] {other : Rule α}
    (h : condition → rule.Ensures cursor post) (hother : ¬condition → other.Ensures cursor post) :
    (if condition then rule else other).Ensures cursor post := by
  split
  · rename_i hcondition
    exact h hcondition
  · rename_i hcondition
    exact hother hcondition

theorem ensures_expected (what : String) : (expected what : Rule α).Ensures cursor post :=
  fun _ _ _ hrun => absurd hrun (by simp [expected])

theorem ensures_tooDeep : (tooDeep : Rule α).Ensures cursor post :=
  fun _ _ _ hrun => absurd hrun (by simp [tooDeep])

theorem Ensures.ask {question : Cursor → α} (h : post (question cursor) cursor) :
    (ask question).Ensures cursor post := by
  intro _ _ _ hrun
  cases hrun
  exact ⟨.refl cursor, h⟩

theorem ensures_ask {cursor : Cursor} (question : Cursor → α) :
    (ask question).Ensures cursor fun value after => value = question cursor ∧ cursor = after :=
  .ask ⟨rfl, rfl⟩

end Ensures

section Taking

variable {cursor : Cursor} {goal : α → Cursor → Prop} {yes no next : Rule α}

/-- A rule that does not go back and is known to be quiet. -/
theorem IsQuiet.gives {rule : Rule α} (h : rule.IsQuiet) : rule.Gives fun _ => True := by
  intro cursor hclean value after hrun
  have hagrees := h cursor
  unfold AgreesAt at hagrees
  rw [hrun] at hagrees
  exact ⟨hagrees.2, trivial⟩

theorem ensures_skip (pattern : String) :
    (skip pattern).Ensures cursor fun isThere after =>
      (isThere = true ∧ cursor.sees pattern = true ∧ after = cursor.advance 1) ∨
        (isThere = false ∧ cursor.sees pattern = false ∧ cursor = after) := by
  intro _ _ _ hrun
  cases hsees : cursor.sees pattern with
  | true =>
    rw [skip_of_sees hsees] at hrun
    cases hrun
    exact ⟨cursor.passes_advance 1, .inl ⟨rfl, rfl, rfl⟩⟩
  | false =>
    rw [skip_of_not hsees] at hrun
    cases hrun
    exact ⟨.refl cursor, .inr ⟨rfl, rfl, rfl⟩⟩

/-- A token that is next or not. -/
theorem Ensures.skip {pattern : String}
    (hyes : cursor.sees pattern = true → yes.Ensures (cursor.advance 1) goal)
    (hno : cursor.sees pattern = false → no.Ensures cursor goal) :
    (Rule.skip pattern >>= fun isThere => if isThere = true then yes else no).Ensures cursor goal := by
  apply (ensures_skip pattern).bind
  intro isThere after hskip
  obtain ⟨rfl, hsees, rfl⟩ | ⟨rfl, hsees, rfl⟩ := hskip
  · exact hyes hsees
  · exact hno hsees

theorem skipAll_apply (patterns : List String) (cursor : Cursor) (hne : patterns ≠ []) :
    skipAll patterns cursor =
      if cursor.seesAll patterns then .ok true (cursor.advance patterns.length)
      else .ok false cursor := by
  obtain ⟨pattern, patterns, rfl⟩ := List.exists_cons_of_ne_nil hne
  cases hsees : cursor.seesAll (pattern :: patterns) with
  | false =>
    have htake : takeAll? (pattern :: patterns) cursor = .ok none cursor := by
      simp [takeAll?, hsees]
    exact map_of_ok htake
  | true =>
    have hfirst : cursor.sees pattern = true := by
      simp only [Cursor.seesAll, Cursor.seesAllAt, Bool.and_eq_true] at hsees
      exact hsees.1
    have htake : takeAll? (pattern :: patterns) cursor =
        .ok cursor.text? (cursor.advance (pattern :: patterns).length) := by
      simp [takeAll?, hsees]
    rw [skipAll, map_of_ok htake, Cursor.text?_isSome_of_sees hfirst]
    rfl

/-- Tokens that are next or not. -/
theorem Ensures.skipAll {patterns : List String} (hne : patterns ≠ [])
    (hyes : cursor.seesAll patterns = true → yes.Ensures (cursor.advance patterns.length) goal)
    (hno : cursor.seesAll patterns = false → no.Ensures cursor goal) :
    (Rule.skipAll patterns >>= fun areThere => if areThere = true then yes else no).Ensures cursor
      goal := by
  intro hclean value after hrun
  rw [bind_apply, skipAll_apply _ _ hne] at hrun
  cases hsees : cursor.seesAll patterns with
  | true =>
    rw [hsees] at hrun
    have hpasses := cursor.passes_advance patterns.length
    obtain ⟨hlast, hgoal⟩ := hyes hsees (hclean.of_passes hpasses) value after hrun
    exact ⟨hlast.trans hpasses, hgoal⟩
  | false =>
    rw [hsees] at hrun
    exact hno hsees hclean value after hrun

/-- A token that has to be next. -/
theorem Ensures.expect {pattern : String}
    (h : cursor.sees pattern = true → next.Ensures (cursor.advance 1) goal) :
    (discard (Rule.expect pattern) >>= fun _ => next).Ensures cursor goal := by
  intro hclean value after hrun
  rw [bind_apply] at hrun
  cases hsees : cursor.sees pattern with
  | true =>
    rw [discard_expect_of_sees hsees] at hrun
    have hpasses := cursor.passes_advance 1
    obtain ⟨hlast, hgoal⟩ := h hsees (hclean.of_passes hpasses) value after hrun
    exact ⟨hlast.trans hpasses, hgoal⟩
  | false =>
    rw [discard_expect_of_not hsees] at hrun
    cases hrun

end Taking

section Attempts

variable {rule : Rule (Option α)} {cursor : Cursor} {post goal : Option α → Cursor → Prop}

/-- An attempt that does not match leaves the cursor where it was. -/
theorem Ensures.attempt (h : rule.Ensures cursor post)
    (hsome : ∀ value after, post (some value) after → goal (some value) after)
    (hnone : ∀ after, post none after → goal none cursor) :
    (Rule.attempt rule).Ensures cursor goal := by
  intro hclean value after hrun
  rw [attempt_apply] at hrun
  cases hrule : rule cursor with
  | error failure last =>
    rw [hrule] at hrun
    cases hrun
  | ok found last =>
    rw [hrule] at hrun
    obtain ⟨hpasses, hpost⟩ := h hclean found last hrule
    cases found with
    | none =>
      cases hrun
      rw [hpasses.frame]
      exact ⟨.refl cursor, hnone _ hpost⟩
    | some found =>
      cases hrun
      exact ⟨hpasses, hsome _ _ hpost⟩

/-- The first of some alternatives; the others are tried where it was. -/
theorem Ensures.firstOf_cons {rules : List (Rule (Option α))}
    (h : rule.Ensures cursor fun value after => ∀ found ∈ value, goal (some found) after)
    (hnone : (∃ after, rule cursor = .ok none after) → (Rule.firstOf rules).Ensures cursor goal) :
    (Rule.firstOf (rule :: rules)).Ensures cursor goal := by
  have hattempt : (Rule.attempt rule).Ensures cursor fun value after =>
      (∀ found ∈ value, goal (some found) after) ∧
        (value = none → after = cursor ∧ ∃ after, rule cursor = .ok none after) := by
    apply h.recall.attempt
    · intro found after hfound
      exact ⟨hfound.1, by simp⟩
    · intro after hrun
      exact ⟨by simp, fun _ => ⟨rfl, after, hrun.2⟩⟩
  apply hattempt.bind
  intro value after hvalue
  cases value with
  | none =>
    obtain ⟨rfl, hrun⟩ := hvalue.2 rfl
    exact hnone hrun
  | some found => exact .pure (hvalue.1 found rfl)

theorem ensures_firstOf_nil (h : goal none cursor) :
    (Rule.firstOf ([] : List (Rule (Option α)))).Ensures cursor goal :=
  .pure h

theorem Ensures.require (h : rule.Ensures cursor post) {what : String} {good : α → Cursor → Prop}
    (hsome : ∀ value after, post (some value) after → good value after) :
    (Rule.require what rule).Ensures cursor good := by
  apply h.bind
  intro value after hvalue
  cases value with
  | none => exact ensures_expected what
  | some value => exact .pure (hsome value after hvalue)

theorem Ensures.descend {rule : Rule α} {post goal : α → Cursor → Prop}
    (h : rule.Ensures { cursor with depth := cursor.depth + 1 } post)
    (hpost : ∀ value after, post value after → goal value { after with depth := after.depth - 1 }) :
    (Rule.descend rule).Ensures cursor goal := by
  intro hclean value after hrun
  unfold Rule.descend at hrun
  split at hrun
  · cases hrun
  · split at hrun
    · rename_i found last hrule
      cases hrun
      obtain ⟨hpasses, hvalue⟩ := h hclean.descend _ _ hrule
      exact ⟨hpasses.ascend, hpost _ _ hvalue⟩
    · cases hrun

/-- Without kept outcomes, reading once is an attempt. -/
theorem Ensures.once {rule : Rule (Option Query)} {post : Option Query → Cursor → Prop}
    (h : (Rule.attempt rule).Ensures cursor post)
    (hrule : rule.Ensures cursor fun _ _ => True) : (Rule.once rule).Ensures cursor post := by
  intro hclean value after hrun
  rw [once_of_not_keeps] at hrun
  · exact h hclean value after hrun
  · rw [Cursor.outcome?, hclean.outcomes_eq]
    rfl
  · intro value after hrun
    exact (hclean.of_passes (hrule hclean value after hrun).1).keeps_eq

end Attempts

section Repetition

/-- What holds when a further piece, if there is one, has been attached. -/
def Attached (inv : α → Cursor → Prop) (attach : α → β → α) (value : α) : Option β → Cursor → Prop
  | some piece, after => inv (attach value piece) after
  | none, after => inv value after

/-- What every further piece preserves when it is attached to what was read before. -/
theorem Ensures.many {rule : Rule (Option β)} {attach : α → β → α} (inv : α → Cursor → Prop)
    (hstep : ∀ value cursor, inv value cursor → rule.Ensures cursor (Attached inv attach value))
    {value : α} {cursor : Cursor} (hinv : inv value cursor) :
    (Rule.many rule).Ensures cursor fun pieces after => inv (pieces.foldl attach value) after := by
  have hrepeat (steps : Nat) : ∀ value cursor, inv value cursor →
      (repeatUpTo steps rule).Ensures cursor fun pieces after =>
        inv (pieces.foldl attach value) after := by
    induction steps with
    | zero =>
      intro value cursor hinv
      exact .pure hinv
    | succ steps ih =>
      intro value cursor hinv
      apply (hstep value cursor hinv).bind
      intro piece after hpiece
      cases piece with
      | none => exact .pure hpiece
      | some piece =>
        apply (ih _ _ hpiece).bind
        intro pieces last hpieces
        exact .pure hpieces
  exact hrepeat _ value cursor hinv

/-- A rule that takes something whenever it matches is repeated until it does not. -/
theorem Ensures.many_stops {rule : Rule (Option α)}
    (h : ∀ cursor, rule.Ensures cursor fun value after =>
      (value.isSome → after.remaining < cursor.remaining) ∧ (value = none → after = cursor))
    {cursor : Cursor} :
    (Rule.many rule).Ensures cursor fun _ after => rule after = .ok none after := by
  have hrepeat (steps : Nat) : ∀ cursor, cursor.remaining < steps →
      (repeatUpTo steps rule).Ensures cursor fun _ after => rule after = .ok none after := by
    induction steps with
    | zero =>
      intro cursor hsteps
      omega
    | succ steps ih =>
      intro cursor hsteps
      apply (h cursor).recall.bind
      intro value after hvalue
      obtain ⟨⟨htakes, hstays⟩, hrun⟩ := hvalue
      cases value with
      | none =>
        rw [hstays rfl] at hrun
        rw [hstays rfl]
        exact .pure hrun
      | some value =>
        have hless := htakes rfl
        exact (ih after (by omega)).bind fun _ _ hlast => .pure hlast
  exact hrepeat _ cursor (Nat.lt_succ_self _)

end Repetition

section Gives

variable {rule : Rule α} {next : α → Rule β} {good : α → Prop} {goal : β → Prop}

theorem Gives.mono (h : rule.Gives good) {weaker : α → Prop} (hgood : ∀ value, good value → weaker value) :
    rule.Gives weaker :=
  fun cursor => (h cursor).mono fun value _ => hgood value

theorem Gives.pure {value : α} (h : good value) : Gives (Pure.pure value : Rule α) good :=
  fun _ => .pure h

theorem Gives.bind (h : rule.Gives good) (hnext : ∀ value, good value → (next value).Gives goal) :
    (rule >>= next).Gives goal :=
  fun cursor => (h cursor).bind fun value after hvalue => hnext value hvalue after

theorem Gives.map (h : rule.Gives good) {change : α → β} (hgood : ∀ value, good value → goal (change value)) :
    (change <$> rule).Gives goal :=
  fun cursor => (h cursor).map fun value _ => hgood value

theorem Gives.ite {condition : Prop} [Decidable condition] {other : Rule α}
    (h : condition → rule.Gives good) (hother : ¬condition → other.Gives good) :
    (if condition then rule else other).Gives good :=
  fun cursor => .ite (fun hcondition => h hcondition cursor) fun hcondition => hother hcondition cursor

theorem gives_expected (what : String) : (expected what : Rule α).Gives good :=
  fun _ => ensures_expected what

theorem gives_tooDeep : (tooDeep : Rule α).Gives good :=
  fun _ => ensures_tooDeep

/-- After a rule whose value does not matter. -/
theorem IsQuiet.gives_bind (h : rule.IsQuiet) (hnext : ∀ value, (next value).Gives goal) :
    (rule >>= next).Gives goal :=
  h.gives.bind fun value _ => hnext value

theorem Gives.require {rule : Rule (Option α)} (h : rule.Gives fun value => ∀ found ∈ value, good found)
    (what : String) : (Rule.require what rule).Gives good :=
  fun cursor => (h cursor).require fun value _ hvalue => hvalue value rfl

theorem Gives.attempt {rule : Rule (Option α)} (h : rule.Gives fun value => ∀ found ∈ value, good found) :
    (Rule.attempt rule).Gives fun value => ∀ found ∈ value, good found :=
  fun cursor => (h cursor).attempt (fun _ _ => id) fun _ _ => by simp

theorem Gives.descend (h : rule.Gives good) : (Rule.descend rule).Gives good :=
  fun cursor => (h { cursor with depth := cursor.depth + 1 }).descend fun _ _ => id

theorem Gives.firstOf {rules : List (Rule (Option α))}
    (h : ∀ rule ∈ rules, rule.Gives fun value => ∀ found ∈ value, good found) :
    (Rule.firstOf rules).Gives fun value => ∀ found ∈ value, good found := by
  induction rules with
  | nil => exact .pure (by simp)
  | cons rule rules ih =>
    intro cursor
    apply Ensures.firstOf_cons
    · apply (h rule List.mem_cons_self cursor).mono
      intro value _ hvalue found hfound other hother
      cases hother
      exact hvalue found hfound
    · intro _
      exact ih (fun other hother => h other (List.mem_cons_of_mem rule hother)) cursor

theorem Gives.many {rule : Rule (Option α)} (h : rule.Gives fun value => ∀ found ∈ value, good found) :
    (Rule.many rule).Gives fun values => ∀ value ∈ values, good value := by
  have hrepeat (steps : Nat) :
      (repeatUpTo steps rule).Gives fun values => ∀ value ∈ values, good value := by
    induction steps with
    | zero => exact .pure (by simp)
    | succ steps ih =>
      apply h.bind
      intro found hfound
      cases found with
      | none => exact .pure (by simp)
      | some found =>
        apply ih.bind
        intro values hvalues
        exact .pure (List.forall_mem_cons.mpr ⟨hfound found rfl, hvalues⟩)
  exact fun cursor => hrepeat (cursor.remaining + 1) cursor

/-- A comma and the item after it. -/
theorem Gives.further (h : rule.Gives good) :
    Gives (do if ← skip "," then return some (← rule) else return none)
      fun piece => ∀ value ∈ piece, good value := by
  apply (isQuiet_skip ",").gives_bind
  intro _
  apply Gives.ite
  · intro _
    apply h.bind
    intro value hvalue
    exact .pure (by simpa using hvalue)
  · intro _
    exact .pure (by simp)

/-- One item or more, each as it should be, and the last one right before the cursor. -/
theorem Ensures.commaSeparated {last : α → Cursor → Prop} (hgood : rule.Gives good)
    (hlast : ∀ cursor, rule.Ensures cursor last) {cursor : Cursor} :
    (Rule.commaSeparated rule).Ensures cursor fun values after =>
      (∀ value ∈ values, good value) ∧ ∃ value, values.getLast? = some value ∧ last value after := by
  have hfold (first : α) (values : List α) :
      (first :: values).getLast? = some (values.foldl (fun _ value => value) first) := by
    induction values generalizing first with
    | nil => rfl
    | cons value values ih => rw [List.getLast?_cons_cons, List.foldl_cons, ih]
  apply ((hgood cursor).and (hlast cursor)).bind
  intro first after hfirst
  have hend : (Rule.many do
      if ← Rule.skip "," then return some (← rule) else return none).Ensures after
      fun pieces final => last (pieces.foldl (fun _ value => value) first) final := by
    apply Ensures.many last _ hfirst.2
    intro value cursor hvalue
    apply Ensures.skip
    · intro _
      apply (hlast _).bind
      intro next final hnext
      exact .pure hnext
    · intro _
      exact .pure hvalue
  apply ((hgood.further.many after).and hend).bind
  intro pieces final hpieces
  refine .pure ⟨List.forall_mem_cons.mpr ⟨hfirst.1, hpieces.1⟩, ?_⟩
  exact ⟨_, hfold first pieces, hpieces.2⟩

/-- The first of some items is read where they start. -/
theorem Ensures.commaSeparated_first {first : α → Prop} {cursor : Cursor} (hgood : rule.Gives good)
    (hfirst : rule.Ensures cursor fun value _ => first value) :
    (Rule.commaSeparated rule).Ensures cursor fun values _ =>
      (∀ value ∈ values, good value) ∧ ∀ value ∈ values.head?, first value := by
  apply ((hgood cursor).and hfirst).bind
  intro value after hvalue
  apply (hgood.further.many after).bind
  intro values _ hvalues
  refine .pure ⟨List.forall_mem_cons.mpr ⟨hvalue.1, hvalues⟩, ?_⟩
  intro other hother
  cases hother
  exact hvalue.2

theorem Gives.commaSeparated (h : rule.Gives good) :
    (Rule.commaSeparated rule).Gives fun values => values ≠ [] ∧ ∀ value ∈ values, good value := by
  intro cursor
  have hlast : ∀ cursor, rule.Ensures cursor fun _ _ => True := fun cursor =>
    (h cursor).mono fun _ _ _ => trivial
  apply (Ensures.commaSeparated h hlast).mono
  intro values _ hvalues
  obtain ⟨hgood, last, hlast, -⟩ := hvalues
  refine ⟨?_, hgood⟩
  intro hnil
  rw [hnil] at hlast
  cases hlast

theorem Gives.parenthesized (h : rule.Gives good) :
    (Rule.parenthesized rule).Gives fun values => ∀ value ∈ values, good value := by
  intro cursor
  apply Ensures.expect
  intro _
  apply Ensures.skip
  · intro _
    exact .pure (by simp)
  · intro _
    apply (h.commaSeparated _).bind
    intro values after hvalues
    apply Ensures.expect
    intro _
    exact .pure hvalues.2

end Gives

end Rule

end SqlLayout
