import SqlLayout.Proofs.Cursor.Pointing
import SqlLayout.Proofs.Cursor.Advancing

/-!
# Procedures on a Cursor

A procedure spells out what is done with a cursor, one operation after the other. Each may depend on what
came before; alternatives and deeper rules hold procedures of their own; and a failure ends everything
around it up to where it is recovered from. All that a procedure performs on the way, also in the midst of an
alternative or of a deeper rule, starts at one cursor and ends at another one.

Whatever all single operations keep is kept by all that a procedure performs.
-/

namespace SqlLayout

namespace Cursor

/-- Two cursors in the same stream. -/
structure SharesStream (cursor other : Cursor) : Prop extends cursor.SharesTokens other where
  comments_eq : other.comments = cursor.comments

namespace SharesStream

variable {cursor other third : Cursor}

theorem refl (cursor : Cursor) : cursor.SharesStream cursor :=
  ⟨.refl cursor, rfl⟩

theorem symm (h : cursor.SharesStream other) : other.SharesStream cursor :=
  ⟨⟨h.tokens_eq.symm, h.size_eq.symm⟩, h.comments_eq.symm⟩

theorem trans (h : cursor.SharesStream other) (h' : other.SharesStream third) :
    cursor.SharesStream third :=
  ⟨h.toSharesTokens.trans h'.toSharesTokens, h'.comments_eq.trans h.comments_eq⟩

/-- No operation leads out of the stream. -/
theorem moved (h : cursor.SharesStream other) (pos drained depth : Nat)
    (outcomes : List (Nat × Option (Query × Mark))) :
    cursor.SharesStream { other with pos, drained, depth, outcomes } :=
  ⟨⟨h.tokens_eq, h.size_eq⟩, h.comments_eq⟩

end SharesStream

end Cursor

namespace Rule

variable {α β : Type}

/-- The cursor after a rule, whether it matched or failed. -/
def leaves (rule : Rule α) (cursor : Cursor) : Cursor :=
  match rule cursor with
  | .ok _ after => after
  | .error _ after => after

theorem leaves_of_ok {rule : Rule α} {cursor after : Cursor} {value : α}
    (h : rule cursor = .ok value after) : rule.leaves cursor = after := by
  rw [leaves, h]

theorem leaves_of_error {rule : Rule α} {cursor after : Cursor} {reason : Failure}
    (h : rule cursor = .error reason after) : rule.leaves cursor = after := by
  rw [leaves, h]

/-- Gives a failure as a value, from where it left the cursor. -/
def caught (rule : Rule α) : Rule (Except Failure α) := fun cursor =>
  match rule cursor with
  | .ok value after => .ok (.ok value) after
  | .error reason after => .ok (.error reason) after

/-- The rules that take tokens. -/
inductive IsTaking : {α : Type} → Rule α → Prop
  | bump : IsTaking Rule.bump
  | take? (pattern : String) : IsTaking (Rule.take? pattern)
  | takeAll? (patterns : List String) : IsTaking (Rule.takeAll? patterns)
  | takeAny? (patterns : List String) : IsTaking (Rule.takeAny? patterns)
  | takeKind? (kind : Token.Kind) : IsTaking (Rule.takeKind? kind)
  | takeJoined? (patterns : List String) : IsTaking (Rule.takeJoined? patterns)
  | expect (pattern : String) : IsTaking (Rule.expect pattern)

/-- Whether a rule matches or fails, the cursor after it satisfies one condition; and its value, if it gives
one, satisfies the other. -/
def Lands (rule : Rule α) (cursor : Cursor) (inv : Cursor → Prop) (good : α → Prop) : Prop :=
  match rule cursor with
  | .ok value after => inv after ∧ good value
  | .error _ after => inv after

namespace Lands

variable {rule : Rule α} {cursor after : Cursor} {inv : Cursor → Prop} {good : α → Prop}

theorem leaves (h : rule.Lands cursor inv good) : inv (rule.leaves cursor) := by
  unfold Lands at h
  unfold Rule.leaves
  cases hrun : rule cursor with
  | ok value after =>
    rw [hrun] at h
    exact h.1
  | error reason after =>
    rw [hrun] at h
    exact h

theorem of_ok (h : rule.Lands cursor inv good) {value : α} (hrun : rule cursor = .ok value after) :
    inv after ∧ good value := by
  unfold Lands at h
  rw [hrun] at h
  exact h

theorem of_error (h : rule.Lands cursor inv good) {reason : Failure}
    (hrun : rule cursor = .error reason after) : inv after := by
  unfold Lands at h
  rw [hrun] at h
  exact h

theorem of_leaves (h : inv (rule.leaves cursor)) : rule.Lands cursor inv fun _ => True := by
  unfold Lands
  unfold Rule.leaves at h
  cases hrun : rule cursor with
  | ok value after =>
    rw [hrun] at h
    exact ⟨h, trivial⟩
  | error reason after =>
    rw [hrun] at h
    exact h

theorem mono {inv' : Cursor → Prop} {good' : α → Prop} (h : rule.Lands cursor inv good)
    (hinv : ∀ after, inv after → inv' after) (hgood : ∀ value, good value → good' value) :
    rule.Lands cursor inv' good' := by
  unfold Lands
  cases hrun : rule cursor with
  | ok value after => exact (h.of_ok hrun).imp (hinv after) (hgood value)
  | error reason after => exact hinv after (h.of_error hrun)

theorem pure {value : α} (hinv : inv cursor) (hgood : good value) :
    (Pure.pure value : Rule α).Lands cursor inv good :=
  ⟨hinv, hgood⟩

theorem bind {next : α → Rule β} {goal : β → Prop} (h : rule.Lands cursor inv good)
    (hnext : ∀ value after, rule cursor = .ok value after → inv after → good value →
      (next value).Lands after inv goal) : (rule >>= next).Lands cursor inv goal := by
  unfold Lands
  rw [bind_apply]
  cases hrun : rule cursor with
  | error reason after => exact h.of_error hrun
  | ok value after =>
    obtain ⟨hinv, hgood⟩ := h.of_ok hrun
    exact hnext value after hrun hinv hgood

theorem map {goal : β → Prop} (h : rule.Lands cursor inv good) (change : α → β)
    (hgoal : ∀ value, good value → goal (change value)) : (change <$> rule).Lands cursor inv goal := by
  rw [map_eq_bind]
  exact h.bind fun value after _ hinv hgood => .pure hinv (hgoal value hgood)

theorem caught (h : rule.Lands cursor inv good) :
    rule.caught.Lands cursor inv fun result => ∀ value, result = .ok value → good value := by
  unfold Lands Rule.caught
  cases hrun : rule cursor with
  | error reason after => exact ⟨h.of_error hrun, fun value hvalue => nomatch hvalue⟩
  | ok value after =>
    obtain ⟨hinv, hgood⟩ := h.of_ok hrun
    exact ⟨hinv, fun other hother => Except.ok.inj hother ▸ hgood⟩

/-- A rule that is undone or not. -/
theorem keepIf (h : rule.Lands cursor inv good) (hback : ∀ after, inv after → inv (after.reset cursor.mark))
    (isGood : α → Bool) : (Rule.keepIf isGood rule).Lands cursor inv good := by
  have hmark : (Rule.mark : Rule Mark) cursor = .ok cursor.mark cursor := rfl
  unfold Lands Rule.keepIf
  rw [bind_of_ok hmark, bind_apply]
  cases hrun : rule cursor with
  | error reason after => exact h.of_error hrun
  | ok value after =>
    obtain ⟨hinv, hgood⟩ := h.of_ok hrun
    cases hvalue : isGood value with
    | true =>
      simp only [hvalue, if_true]
      exact ⟨hinv, hgood⟩
    | false =>
      simp only [hvalue, if_neg Bool.false_ne_true]
      exact ⟨hback after hinv, hgood⟩

/-- A rule one level deeper, unless that is too deep. -/
theorem descend (hcursor : inv cursor)
    (h : cursor.depth < Cursor.maxDepth → rule.Lands { cursor with depth := cursor.depth + 1 }
      (fun after => inv { after with depth := after.depth - 1 }) good) :
    (Rule.descend rule).Lands cursor inv good := by
  unfold Lands Rule.descend
  by_cases hdepth : Cursor.maxDepth ≤ cursor.depth
  · rw [if_pos hdepth]
    exact hcursor
  · rw [if_neg hdepth]
    have hdeeper := h (Nat.lt_of_not_le hdepth)
    cases hrun : rule { cursor with depth := cursor.depth + 1 } with
    | error reason after => exact hdeeper.of_error hrun
    | ok value after => exact hdeeper.of_ok hrun

end Lands

section Taking

theorem takesAhead_bump : bump.TakesAhead := by
  intro cursor
  rw [bump]
  cases hlook : cursor.look? 0 with
  | none => exact .inl (by rw [Cursor.text?_eq_look?, hlook]; rfl)
  | some look =>
    have hpos := Cursor.lt_remaining_of_look? hlook
    exact .inr ⟨some look.2, 1, Nat.one_pos, hpos, by rw [Cursor.text?_eq_look?, hlook]; rfl⟩

theorem takesAhead_takeKind? (kind : Token.Kind) : (takeKind? kind).TakesAhead := by
  intro cursor
  have hkind : kind? cursor = .ok cursor.kind? cursor := rfl
  rw [takeKind?, bind_of_ok hkind]
  by_cases hsame : cursor.kind? = some kind
  · rw [if_pos hsame]
    exact takesAhead_bump cursor
  · rw [if_neg hsame]
    exact .inl rfl

theorem takesAhead_takeAny? (patterns : List String) : (takeAny? patterns).TakesAhead := by
  intro cursor
  induction patterns with
  | nil => exact .inl rfl
  | cons pattern patterns ih =>
    cases hsees : cursor.sees pattern with
    | false =>
      rw [takeAny?, bind_of_ok (take?_of_not hsees)]
      exact ih
    | true =>
      obtain ⟨text, htext⟩ := Option.isSome_iff_exists.mp (Cursor.text?_isSome_of_sees hsees)
      have hrun := take?_of_sees hsees
      rw [htext] at hrun
      rw [takeAny?, bind_of_ok hrun]
      exact .inr ⟨some text, 1, Nat.one_pos, Cursor.lt_remaining_of_seesAt hsees, rfl⟩

theorem TakesAhead.exists_advance {rule : Rule (Option α)} (h : rule.TakesAhead) (cursor : Cursor) :
    ∃ count ≤ cursor.remaining, rule.leaves cursor = cursor.advance count := by
  obtain hrun | ⟨value, count, -, hcount, hrun⟩ := h cursor
  · exact ⟨0, Nat.zero_le _, leaves_of_ok hrun⟩
  · exact ⟨count, hcount, leaves_of_ok hrun⟩

/-- To take tokens is to go on by as many as are there, or not at all. -/
theorem IsTaking.exists_advance {rule : Rule α} (h : rule.IsTaking) (cursor : Cursor) :
    ∃ count ≤ cursor.remaining, rule.leaves cursor = cursor.advance count := by
  cases h with
  | bump => exact takesAhead_bump.exists_advance cursor
  | take? pattern => exact (takesAhead_take? pattern).exists_advance cursor
  | takeAll? patterns => exact (takesAhead_takeAll? patterns).exists_advance cursor
  | takeAny? patterns => exact (takesAhead_takeAny? patterns).exists_advance cursor
  | takeKind? kind => exact (takesAhead_takeKind? kind).exists_advance cursor
  | takeJoined? patterns => exact (takesAhead_takeJoined? patterns).exists_advance cursor
  | expect pattern =>
    cases hsees : cursor.sees pattern with
    | false => exact ⟨0, Nat.zero_le _, leaves_of_error (expect_of_not hsees)⟩
    | true =>
      obtain ⟨text, htext⟩ := Option.isSome_iff_exists.mp (Cursor.text?_isSome_of_sees hsees)
      have hrun := take?_of_sees hsees
      rw [htext] at hrun
      have hexpect : Rule.expect pattern cursor = .ok text (cursor.advance 1) := by
        rw [Rule.expect, bind_of_ok hrun]
        rfl
      exact ⟨1, Cursor.lt_remaining_of_seesAt hsees, leaves_of_ok hexpect⟩

end Taking

end Rule

/-- Operations on a cursor, in the order they are done. -/
inductive Procedure : Type → Type 1
  | give {α : Type} (value : α) : Procedure α
  | andThen {α β : Type} (first : Procedure α) (next : α → Procedure β) : Procedure β
  | fail {α : Type} (reason : Failure) : Procedure α
  /-- Goes on after a failure, from where it left the cursor; places saved within what failed are forgotten. -/
  | recover {α : Type} (inner : Procedure α) : Procedure (Except Failure α)
  /-- Looks at whatever there is to be seen of the cursor. -/
  | ask {α : Type} (question : Cursor → α) : Procedure α
  | take {α : Type} (rule : Rule α) (h : rule.IsTaking) : Procedure α
  | comments : Procedure (List String)
  /-- Saves the place of the cursor under the next number. -/
  | mark : Procedure Nat
  | reset (number : Nat) : Procedure Unit
  /-- Goes back to where it started unless the alternative matches. -/
  | attempt {α : Type} (isMatch : α → Bool) (alternative : Procedure α) : Procedure α
  | descend {α : Type} (inner : Procedure α) : Procedure α
  | once (rule : Rule (Option Query)) : Procedure (Option Query)

namespace Procedure

variable {α β : Type}

/-- Runs a procedure with the places saved so far; a number that was never given out changes nothing. -/
def run (marks : List Mark) : {α : Type} → Procedure α → Rule (α × List Mark)
  | _, give value => return (value, marks)
  | _, andThen first next => do
    let (value, marks) ← run marks first
    run marks (next value)
  | _, fail reason => fun cursor => .error reason cursor
  | _, recover inner => do
    match ← (run marks inner).caught with
    | .ok (value, marks) => return (.ok value, marks)
    | .error reason => return (.error reason, marks)
  | _, ask question => (·, marks) <$> Rule.ask question
  | _, take rule _ => (·, marks) <$> rule
  | _, comments => (·, marks) <$> Rule.comments
  | _, mark => do return (marks.length, marks ++ [← Rule.mark])
  | _, reset number => do
    if let some saved := marks[number]? then Rule.reset saved
    return ((), marks)
  | _, attempt isMatch alternative => Rule.keepIf (fun result => isMatch result.1) (run marks alternative)
  | _, descend inner => Rule.descend (run marks inner)
  | _, once rule => (·, marks) <$> Rule.once rule

/-- All rules whose outcomes a procedure keeps are allowed ones. -/
def KeepsOnly (allowed : Rule (Option Query) → Prop) : {α : Type} → Procedure α → Prop
  | _, andThen first next => first.KeepsOnly allowed ∧ ∀ value, (next value).KeepsOnly allowed
  | _, recover inner | _, attempt _ inner | _, descend inner => inner.KeepsOnly allowed
  | _, once rule => allowed rule
  | _, _ => True

/-- Running a procedure from a cursor, with the places saved so far, involves an operation that starts at one
cursor and ends at another one. -/
inductive Performs : {α : Type} → Procedure α → List Mark → Cursor → Cursor → Cursor → Prop
  | self {α : Type} (marks : List Mark) (procedure : Procedure α) (cursor : Cursor) :
    Performs procedure marks cursor cursor ((procedure.run marks).leaves cursor)
  | first {α β : Type} {marks : List Mark} {first : Procedure α} {next : α → Procedure β}
    {cursor before after : Cursor} (h : Performs first marks cursor before after) :
    Performs (first.andThen next) marks cursor before after
  | next {α β : Type} {marks saved : List Mark} {first : Procedure α} {next : α → Procedure β}
    {cursor middle before after : Cursor} {value : α}
    (hrun : first.run marks cursor = .ok (value, saved) middle)
    (h : Performs (next value) saved middle before after) :
    Performs (first.andThen next) marks cursor before after
  | recover {α : Type} {marks : List Mark} {inner : Procedure α} {cursor before after : Cursor}
    (h : Performs inner marks cursor before after) : Performs inner.recover marks cursor before after
  | attempt {α : Type} {marks : List Mark} {isMatch : α → Bool} {alternative : Procedure α}
    {cursor before after : Cursor} (h : Performs alternative marks cursor before after) :
    Performs (attempt isMatch alternative) marks cursor before after
  | descend {α : Type} {marks : List Mark} {inner : Procedure α} {cursor before after : Cursor}
    (hdepth : cursor.depth < Cursor.maxDepth)
    (h : Performs inner marks { cursor with depth := cursor.depth + 1 } before after) :
    Performs inner.descend marks cursor before after

/-- What holds of a cursor whatever single operation is done with it, where a rule whose outcome is kept is
an allowed one and is run at a cursor that was seen before. -/
structure IsInvariant (allowed : Rule (Option Query) → Prop) (seen inv : Cursor → Prop) : Prop where
  advance {cursor : Cursor} {count : Nat} (h : inv cursor) (hcount : count ≤ cursor.remaining) :
    inv (cursor.advance count)
  comments {cursor : Cursor} (h : inv cursor) : inv (Rule.comments.leaves cursor)
  reset {cursor other : Cursor} (h : inv cursor) (hother : inv other) : inv (cursor.reset other.mark)
  deepen {cursor : Cursor} (h : inv cursor) (hdepth : cursor.depth < Cursor.maxDepth) :
    inv { cursor with depth := cursor.depth + 1 }
  undeepen {cursor : Cursor} (h : inv cursor) : inv { cursor with depth := cursor.depth - 1 }
  once {cursor : Cursor} {rule : Rule (Option Query)} (h : inv cursor) (hseen : seen cursor)
    (hrule : allowed rule) : inv ((Rule.once rule).leaves cursor)

/-- Places that may be gone back to. -/
def Saves (inv : Cursor → Prop) (marks : List Mark) : Prop :=
  ∀ mark ∈ marks, ∀ cursor, inv cursor → inv (cursor.reset mark)

namespace IsInvariant

variable {allowed : Rule (Option Query) → Prop} {seen inv : Cursor → Prop}

/-- A procedure ends at a cursor that satisfies what all operations keep, and saves only places that may be
gone back to. -/
theorem lands (h : IsInvariant allowed seen inv) {procedure : Procedure α}
    (hkeeps : procedure.KeepsOnly allowed) {marks : List Mark} (hmarks : Saves inv marks) {cursor : Cursor}
    (hcursor : inv cursor)
    (hseen : ∀ before after, procedure.Performs marks cursor before after → seen before) :
    (procedure.run marks).Lands cursor inv fun result => Saves inv result.2 := by
  induction procedure generalizing marks cursor with
  | give value => exact .pure hcursor hmarks
  | andThen first next ih ihnext =>
    rw [run]
    apply (ih hkeeps.1 hmarks hcursor fun before after hdone => hseen before after (.first hdone)).bind
    rintro ⟨value, saved⟩ middle hrun hmiddle hsaved
    exact ihnext value (hkeeps.2 value) hsaved hmiddle fun before after hdone =>
      hseen before after (.next hrun hdone)
  | fail reason => exact hcursor
  | recover inner ih =>
    rw [run]
    apply (ih hkeeps hmarks hcursor fun before after hdone => hseen before after (.recover hdone)).caught.bind
    rintro (reason | ⟨value, saved⟩) middle hrun hmiddle hresult
    · exact .pure hmiddle hmarks
    · exact .pure hmiddle (hresult _ rfl)
  | ask question =>
    have hafter : inv ((Rule.ask question).leaves cursor) := hcursor
    exact (Rule.Lands.of_leaves hafter).map _ fun _ _ => hmarks
  | take rule htaking =>
    obtain ⟨count, hcount, hleaves⟩ := htaking.exists_advance cursor
    have hafter : inv (rule.leaves cursor) := hleaves ▸ h.advance hcursor hcount
    exact (Rule.Lands.of_leaves hafter).map _ fun _ _ => hmarks
  | comments => exact (Rule.Lands.of_leaves (h.comments hcursor)).map _ fun _ _ => hmarks
  | mark =>
    refine ⟨hcursor, fun saved hsaved other hother => ?_⟩
    obtain hsaved | hsaved := List.mem_append.mp hsaved
    · exact hmarks saved hsaved other hother
    · obtain rfl := List.mem_singleton.mp hsaved
      exact h.reset hother hcursor
  | reset number =>
    rw [run]
    cases hsaved : marks[number]? with
    | none => exact ⟨hcursor, hmarks⟩
    | some saved => exact ⟨hmarks saved (List.mem_of_getElem? hsaved) cursor hcursor, hmarks⟩
  | attempt isMatch alternative ih =>
    rw [run]
    apply (ih hkeeps hmarks hcursor fun before after hdone => hseen before after (.attempt hdone)).keepIf
    exact fun after hafter => h.reset hafter hcursor
  | descend inner ih =>
    rw [run]
    apply Rule.Lands.descend hcursor
    intro hdepth
    apply (ih hkeeps hmarks (h.deepen hcursor hdepth) fun before after hdone =>
      hseen before after (.descend hdepth hdone)).mono
    · exact fun after hafter => h.undeepen hafter
    · exact fun _ hsaved => hsaved
  | once rule =>
    have hafter := h.once hcursor (hseen cursor _ (.self _ _ _)) hkeeps
    exact (Rule.Lands.of_leaves hafter).map _ fun _ _ => hmarks

/-- What all operations keep holds before and after everything that a procedure involves. -/
theorem performs (h : IsInvariant allowed seen inv) {procedure : Procedure α}
    (hkeeps : procedure.KeepsOnly allowed) {marks : List Mark} (hmarks : Saves inv marks)
    {cursor before after : Cursor} (hcursor : inv cursor)
    (hseen : ∀ before after, procedure.Performs marks cursor before after → seen before)
    (hdone : procedure.Performs marks cursor before after) : inv before ∧ inv after := by
  induction hdone with
  | self marks procedure cursor => exact ⟨hcursor, (h.lands hkeeps hmarks hcursor hseen).leaves⟩
  | first hdone ih =>
    exact ih hkeeps.1 hmarks hcursor fun before after hdone => hseen before after (.first hdone)
  | next hrun hdone ih =>
    have hlands := h.lands hkeeps.1 hmarks hcursor fun before after hdone => hseen before after (.first hdone)
    obtain ⟨hmiddle, hsaved⟩ := hlands.of_ok hrun
    exact ih (hkeeps.2 _) hsaved hmiddle fun before after hdone => hseen before after (.next hrun hdone)
  | recover hdone ih =>
    exact ih hkeeps hmarks hcursor fun before after hdone => hseen before after (.recover hdone)
  | attempt hdone ih =>
    exact ih hkeeps hmarks hcursor fun before after hdone => hseen before after (.attempt hdone)
  | descend hdepth hdone ih =>
    exact ih hkeeps hmarks (h.deepen hcursor hdepth) fun before after hdone =>
      hseen before after (.descend hdepth hdone)

end IsInvariant

end Procedure

end SqlLayout
