import SqlLayout.Proofs.Cursor.Step

/-!
# Reading with and without Kept Outcomes

A rule agrees at a cursor if it gives the same value, or the same failure, whether or not the outcomes
of parenthesised queries are kept. Keeping them can only matter where a rule comes back to a place
behind the furthest one it has seen. So agreement is followed from cursors with nothing kept at or
after their place, which most rules leave behind them again, and the few rules that do come back are
left to the grammar.
-/

namespace SqlLayout

namespace Cursor

/-- The same place, with no outcomes kept and none to be kept. -/
def forgetful (cursor : Cursor) : Cursor :=
  { cursor with keepsOutcomes := false, outcomes := [] }

/-- Nothing is kept for the place of the cursor or for any place after it. -/
structure IsFresh (cursor : Cursor) : Prop where
  keeps_eq : cursor.keepsOutcomes = true
  lookup_eq : ∀ pos, cursor.pos ≤ pos → cursor.outcomes.lookup pos = none

/-- A later cursor is not behind an earlier one, has kept nothing for the places behind both and is
otherwise the same but for its place. -/
structure Follows (later earlier : Cursor) : Prop where
  pos_le : earlier.pos ≤ later.pos
  keeps_eq : later.keepsOutcomes = earlier.keepsOutcomes
  lookup_eq : ∀ pos < earlier.pos, later.outcomes.lookup pos = earlier.outcomes.lookup pos
  frame : later.forgetful.reset earlier.mark = earlier.forgetful

/-- The same place, with one more outcome kept. -/
def keep (cursor : Cursor) (start : Nat) (outcome : Option (Query × Mark)) : Cursor :=
  { cursor with outcomes := (start, outcome) :: cursor.outcomes }

theorem Follows.refl (cursor : Cursor) : cursor.Follows cursor :=
  ⟨Nat.le_refl _, rfl, fun _ _ => rfl, rfl⟩

theorem Follows.trans {last middle first : Cursor} (h : last.Follows middle)
    (h' : middle.Follows first) : last.Follows first where
  pos_le := Nat.le_trans h'.pos_le h.pos_le
  keeps_eq := h.keeps_eq.trans h'.keeps_eq
  lookup_eq pos hpos :=
    (h.lookup_eq pos (Nat.lt_of_lt_of_le hpos h'.pos_le)).trans (h'.lookup_eq pos hpos)
  frame := (congrArg (Cursor.reset · first.mark) h.frame).trans h'.frame

theorem lookup_keep {cursor : Cursor} {start pos : Nat} {outcome : Option (Query × Mark)}
    (h : pos ≠ start) :
    (cursor.keep start outcome).outcomes.lookup pos = cursor.outcomes.lookup pos := by
  have hne : (pos == start) = false := beq_eq_false_iff_ne.mpr h
  rw [keep, List.lookup_cons, hne]

theorem IsFresh.keep {cursor : Cursor} (h : cursor.IsFresh) {start : Nat}
    (hstart : start < cursor.pos) (outcome : Option (Query × Mark)) :
    (cursor.keep start outcome).IsFresh where
  keeps_eq := h.keeps_eq
  lookup_eq pos hpos :=
    (lookup_keep (Nat.ne_of_gt (Nat.lt_of_lt_of_le hstart hpos))).trans (h.lookup_eq pos hpos)

theorem Follows.keep {later earlier : Cursor} (h : later.Follows earlier) {start : Nat}
    (hstart : earlier.pos ≤ start) (outcome : Option (Query × Mark)) :
    (later.keep start outcome).Follows earlier where
  pos_le := h.pos_le
  keeps_eq := h.keeps_eq
  lookup_eq pos hpos :=
    (lookup_keep (Nat.ne_of_lt (Nat.lt_of_lt_of_le hpos hstart))).trans (h.lookup_eq pos hpos)
  frame := h.frame

theorem Follows.back {later earlier : Cursor} (h : later.Follows earlier) :
    (later.reset earlier.mark).Follows earlier :=
  ⟨Nat.le_refl _, h.keeps_eq, h.lookup_eq, h.frame⟩

/-- Going back leaves nothing but what was kept. -/
theorem Follows.reset_eq {later earlier : Cursor} (h : later.Follows earlier) :
    later.reset earlier.mark = { earlier with outcomes := later.outcomes } := by
  have hframe := h.frame
  have hkeeps := h.keeps_eq
  cases later
  cases earlier
  simp only [forgetful, reset, mark, Cursor.mk.injEq] at *
  simp_all

/-- Replaying the stop of a later cursor. -/
theorem Follows.replay_eq {later earlier : Cursor} (h : later.Follows earlier) :
    earlier.forgetful.reset later.mark = later.forgetful :=
  (congrArg (Cursor.reset · later.mark) h.frame).symm

/-- A later cursor that differs in its place alone. -/
structure Passes (later earlier : Cursor) : Prop where
  pos_le : earlier.pos ≤ later.pos
  frame : later.reset earlier.mark = earlier

theorem Passes.refl (cursor : Cursor) : cursor.Passes cursor :=
  ⟨Nat.le_refl _, rfl⟩

theorem Passes.trans {last middle first : Cursor} (h : last.Passes middle)
    (h' : middle.Passes first) : last.Passes first :=
  ⟨Nat.le_trans h'.pos_le h.pos_le,
    (congrArg (Cursor.reset · first.mark) h.frame).trans h'.frame⟩

theorem Passes.outcomes_eq {later earlier : Cursor} (h : later.Passes earlier) :
    later.outcomes = earlier.outcomes := by
  have hframe := congrArg Cursor.outcomes h.frame
  exact hframe

theorem Passes.keeps_eq {later earlier : Cursor} (h : later.Passes earlier) :
    later.keepsOutcomes = earlier.keepsOutcomes := by
  have hframe := congrArg Cursor.keepsOutcomes h.frame
  exact hframe

theorem Passes.follows {later earlier : Cursor} (h : later.Passes earlier) :
    later.Follows earlier :=
  ⟨h.pos_le, h.keeps_eq, fun _ _ => by rw [h.outcomes_eq], congrArg forgetful h.frame⟩

theorem Passes.isFresh {later earlier : Cursor} (h : later.Passes earlier)
    (hfresh : earlier.IsFresh) : later.IsFresh where
  keeps_eq := h.keeps_eq.trans hfresh.keeps_eq
  lookup_eq pos hpos := by
    rw [h.outcomes_eq]
    exact hfresh.lookup_eq pos (Nat.le_trans h.pos_le hpos)

theorem passes_advance (cursor : Cursor) (count : Nat) : (cursor.advance count).Passes cursor :=
  ⟨Nat.le_add_right _ _, rfl⟩

theorem Passes.back {later earlier : Cursor} (h : later.Passes earlier) :
    (later.reset earlier.mark).Passes earlier :=
  ⟨Nat.le_refl _, h.frame⟩

theorem IsFresh.ascend {cursor : Cursor} (h : cursor.IsFresh) :
    IsFresh { cursor with depth := cursor.depth - 1 } :=
  ⟨h.keeps_eq, h.lookup_eq⟩

theorem IsFresh.descend {cursor : Cursor} (h : cursor.IsFresh) :
    IsFresh { cursor with depth := cursor.depth + 1 } :=
  ⟨h.keeps_eq, h.lookup_eq⟩

/-- Coming back from one level deeper. -/
theorem Follows.ascend {later earlier : Cursor}
    (h : later.Follows { earlier with depth := earlier.depth + 1 }) :
    Follows { later with depth := later.depth - 1 } earlier where
  pos_le := h.pos_le
  keeps_eq := h.keeps_eq
  lookup_eq := h.lookup_eq
  frame := by
    have hdepth : later.depth = earlier.depth + 1 := congrArg Cursor.depth h.frame
    have hframe := congrArg (fun cursor : Cursor => { cursor with depth := earlier.depth }) h.frame
    rw [hdepth]
    exact hframe

theorem Passes.ascend {later earlier : Cursor}
    (h : later.Passes { earlier with depth := earlier.depth + 1 }) :
    Passes { later with depth := later.depth - 1 } earlier where
  pos_le := h.pos_le
  frame := by
    have hdepth : later.depth = earlier.depth + 1 := congrArg Cursor.depth h.frame
    have hframe := congrArg (fun cursor : Cursor => { cursor with depth := earlier.depth }) h.frame
    rw [hdepth]
    exact hframe

end Cursor

namespace Rule

variable {α β : Type}

/-- With and without kept outcomes, a rule fails for the same reason or gives the same value and stops
at the same place; `post` holds of the value and the cursor after it. -/
def AgreesAt (rule : Rule α) (cursor : Cursor) (post : α → Cursor → Prop) : Prop :=
  match rule cursor with
  | .ok value after => rule cursor.forgetful = .ok value after.forgetful ∧ post value after
  | .error failure _ => ∃ after, rule cursor.forgetful = .error failure after

section AgreesAt

variable {rule : Rule α} {next : α → Rule β} {cursor : Cursor} {post : α → Cursor → Prop}
  {goal : β → Cursor → Prop}

theorem AgreesAt.mono (h : rule.AgreesAt cursor post) {weaker : α → Cursor → Prop}
    (hpost : ∀ value after, post value after → weaker value after) :
    rule.AgreesAt cursor weaker := by
  unfold AgreesAt at *
  cases hrun : rule cursor with
  | ok value after =>
    rw [hrun] at h
    exact ⟨h.1, hpost value after h.2⟩
  | error failure after =>
    rw [hrun] at h
    exact h

/-- Agreement is about what a rule does at the place and at its forgetful copy. -/
theorem AgreesAt.of_eq {other : Rule α} (h : other.AgreesAt cursor post)
    (heq : rule cursor = other cursor)
    (hforgetful : rule cursor.forgetful = other cursor.forgetful) : rule.AgreesAt cursor post := by
  unfold AgreesAt at *
  rw [heq, hforgetful]
  exact h

/-- What the forgetful copy gives may be used by whatever comes after. -/
theorem AgreesAt.recall (h : rule.AgreesAt cursor post) :
    rule.AgreesAt cursor fun value after =>
      post value after ∧ rule cursor.forgetful = .ok value after.forgetful := by
  unfold AgreesAt at *
  cases hrun : rule cursor with
  | ok value after =>
    rw [hrun] at h
    exact ⟨h.1, h.2, h.1⟩
  | error failure after =>
    rw [hrun] at h
    exact h

theorem AgreesAt.pure {value : α} (h : post value cursor) :
    AgreesAt (Pure.pure value : Rule α) cursor post :=
  ⟨rfl, h⟩

theorem AgreesAt.bind (h : rule.AgreesAt cursor post)
    (hnext : ∀ value after, post value after → (next value).AgreesAt after goal) :
    (rule >>= next).AgreesAt cursor goal := by
  unfold AgreesAt at h ⊢
  rw [bind_apply, bind_apply]
  cases hrun : rule cursor with
  | ok value after =>
    rw [hrun] at h
    rw [h.1]
    exact hnext value after h.2
  | error failure after =>
    rw [hrun] at h
    obtain ⟨other, hother⟩ := h
    exact ⟨other, by rw [hother]⟩

/-- A first step that is known. -/
theorem AgreesAt.bind_known {after : Cursor} {value : α} (h : rule cursor = .ok value after)
    (hplain : rule cursor.forgetful = .ok value after.forgetful)
    (hnext : (next value).AgreesAt after goal) : (rule >>= next).AgreesAt cursor goal := by
  unfold AgreesAt at *
  rw [Rule.bind_of_ok h, Rule.bind_of_ok hplain]
  cases hrun : next value after with
  | ok last final =>
    rw [hrun] at hnext
    exact hnext
  | error failure final =>
    rw [hrun] at hnext
    exact hnext

theorem AgreesAt.expected (what : String) : (expected what : Rule α).AgreesAt cursor post :=
  ⟨cursor.forgetful, rfl⟩

/-- A token that is missing is missing either way. -/
theorem AgreesAt.missing {pattern : String} {next : Unit → Rule β}
    (h : cursor.sees pattern = false) :
    (Functor.discard (expect pattern) >>= next).AgreesAt cursor goal := by
  have hplain : cursor.forgetful.sees pattern = false := h
  unfold AgreesAt
  rw [bind_apply, bind_apply, discard_expect_of_not h, discard_expect_of_not hplain]
  exact ⟨cursor.forgetful, rfl⟩

theorem AgreesAt.tooDeep : (tooDeep : Rule α).AgreesAt cursor post :=
  ⟨cursor.forgetful, rfl⟩

/-- A question whose answer does not depend on what is kept. -/
theorem AgreesAt.ask {question : Cursor → α} (h : question cursor.forgetful = question cursor)
    (hpost : post (question cursor) cursor) : (ask question).AgreesAt cursor post :=
  ⟨by simp only [Rule.ask, h], hpost⟩

theorem AgreesAt.forgetful_of_ok (h : rule.AgreesAt cursor post) {value : α} {after : Cursor}
    (hrun : rule cursor = .ok value after) : rule cursor.forgetful = .ok value after.forgetful := by
  unfold AgreesAt at h
  rw [hrun] at h
  exact h.1

theorem AgreesAt.exists_of_forgetful (h : rule.AgreesAt cursor post) {value : α} {after : Cursor}
    (hrun : rule cursor.forgetful = .ok value after) :
    ∃ last, rule cursor = .ok value last ∧ last.forgetful = after := by
  cases hresult : rule cursor with
  | ok found last =>
    have hplain := h.forgetful_of_ok hresult
    rw [hrun] at hplain
    cases hplain
    exact ⟨last, rfl, rfl⟩
  | error failure last =>
    unfold AgreesAt at h
    rw [hresult] at h
    obtain ⟨other, hother⟩ := h
    rw [hrun] at hother
    cases hother

end AgreesAt

/-- Rules that leave what is kept alone and do not go back. -/
def IsQuiet (rule : Rule α) : Prop :=
  ∀ cursor, rule.AgreesAt cursor fun _ after => after.Passes cursor

/-- Rules that leave only places behind. -/
def IsTame (rule : Rule α) : Prop :=
  ∀ cursor, cursor.IsFresh →
    rule.AgreesAt cursor fun _ after => after.IsFresh ∧ after.Follows cursor

/-- Rules that are tame where they match; where they do not, they may have kept something ahead. -/
def IsTentative (rule : Rule (Option α)) : Prop :=
  ∀ cursor, cursor.IsFresh →
    rule.AgreesAt cursor fun value after =>
      after.Follows cursor ∧ (value.isSome → after.IsFresh)

/-- Tame rules that always match or fail. -/
def IsCommitted (rule : Rule (Option α)) : Prop :=
  ∀ cursor, cursor.IsFresh →
    rule.AgreesAt cursor fun value after =>
      after.IsFresh ∧ after.Follows cursor ∧ value.isSome

/-- Tame rules that keep nothing when they do not match. -/
def IsOptional (rule : Rule (Option α)) : Prop :=
  ∀ cursor, cursor.IsFresh →
    rule.AgreesAt cursor fun value after =>
      after.IsFresh ∧ after.Follows cursor ∧ (value = none → after.Passes cursor)

section Quiet

variable {rule : Rule α} {next : α → Rule β}

theorem IsQuiet.pure (value : α) : IsQuiet (Pure.pure value : Rule α) :=
  fun cursor => .pure (.refl cursor)

theorem IsQuiet.bind (h : rule.IsQuiet) (hnext : ∀ value, (next value).IsQuiet) :
    (rule >>= next).IsQuiet := by
  intro cursor
  apply (h cursor).bind
  intro value after hafter
  exact (hnext value after).mono fun _ _ hlast => hlast.trans hafter

theorem IsQuiet.map (h : rule.IsQuiet) (change : α → β) : (change <$> rule).IsQuiet := by
  rw [map_eq_bind]
  exact h.bind fun value => .pure _

theorem IsQuiet.discard (h : rule.IsQuiet) : (discard rule).IsQuiet := by
  rw [discard_eq_bind]
  exact h.bind fun value => .pure _

theorem IsQuiet.ite {condition : Prop} [Decidable condition] {other : Rule α} (h : rule.IsQuiet)
    (hother : other.IsQuiet) : (if condition then rule else other).IsQuiet := by
  split
  · exact h
  · exact hother

theorem isQuiet_expected (what : String) : (expected what : Rule α).IsQuiet :=
  fun _ => .expected what

theorem isQuiet_tooDeep : (tooDeep : Rule α).IsQuiet :=
  fun _ => .tooDeep

theorem isQuiet_ask {question : Cursor → α}
    (h : ∀ cursor, question cursor.forgetful = question cursor) : (ask question).IsQuiet :=
  fun cursor => .ask (h cursor) (.refl cursor)

theorem IsQuiet.isTame (h : rule.IsQuiet) : rule.IsTame := by
  intro cursor hfresh
  exact (h cursor).mono fun _ _ hafter => ⟨hafter.isFresh hfresh, hafter.follows⟩

theorem IsQuiet.isOptional {rule : Rule (Option α)} (h : rule.IsQuiet) : rule.IsOptional := by
  intro cursor hfresh
  exact (h cursor).mono fun _ _ hafter => ⟨hafter.isFresh hfresh, hafter.follows, fun _ => hafter⟩

theorem isQuiet_sees (pattern : String) : (sees pattern).IsQuiet :=
  isQuiet_ask fun _ => rfl

theorem isQuiet_kind? : kind?.IsQuiet :=
  isQuiet_ask fun _ => rfl

theorem isQuiet_bump : bump.IsQuiet := by
  intro cursor
  unfold AgreesAt
  have hsame : cursor.forgetful.text? = cursor.text? := rfl
  cases h : cursor.text? with
  | none => simpa [bump, hsame, h] using Cursor.Passes.refl cursor
  | some text => simpa [bump, hsame, h] using ⟨rfl, cursor.passes_advance 1⟩

theorem isQuiet_take? (pattern : String) : (take? pattern).IsQuiet :=
  (isQuiet_sees pattern).bind fun _ => (isQuiet_bump).ite (.pure _)

theorem isQuiet_skip (pattern : String) : (skip pattern).IsQuiet :=
  (isQuiet_take? pattern).map _

theorem seesAll_forgetful (cursor : Cursor) (patterns : List String) :
    cursor.forgetful.seesAll patterns = cursor.seesAll patterns := by
  unfold Cursor.seesAll
  generalize 0 = ahead
  induction patterns generalizing ahead with
  | nil => rfl
  | cons pattern patterns ih =>
    unfold Cursor.seesAllAt
    rw [ih]
    rfl

theorem isQuiet_takeAll? (patterns : List String) : (takeAll? patterns).IsQuiet := by
  intro cursor
  unfold AgreesAt
  have hsame := seesAll_forgetful cursor patterns
  by_cases h : (patterns.isEmpty || !cursor.seesAll patterns) = true
  · simp only [takeAll?, hsame, h, if_true]
    exact ⟨trivial, .refl cursor⟩
  · simp only [takeAll?, hsame, h]
    exact ⟨rfl, cursor.passes_advance _⟩

theorem isQuiet_skipAll (patterns : List String) : (skipAll patterns).IsQuiet :=
  (isQuiet_takeAll? patterns).map _

theorem isQuiet_takeJoined? (patterns : List String) : (takeJoined? patterns).IsQuiet := by
  intro cursor
  unfold AgreesAt
  have hsame : cursor.forgetful.seesJoined patterns = cursor.seesJoined patterns := by
    unfold Cursor.seesJoined
    rw [seesAll_forgetful]
    rfl
  by_cases h : (patterns.isEmpty || !cursor.seesJoined patterns) = true
  · simp only [takeJoined?, hsame, h, if_true]
    exact ⟨trivial, .refl cursor⟩
  · simp only [takeJoined?, hsame, h]
    exact ⟨rfl, cursor.passes_advance _⟩

theorem isQuiet_takeAny? (patterns : List String) : (takeAny? patterns).IsQuiet := by
  induction patterns with
  | nil => exact .pure none
  | cons pattern patterns ih =>
    apply (isQuiet_take? pattern).bind
    intro text
    cases text with
    | none => exact ih
    | some text => exact .pure _

theorem isQuiet_takeKind? (kind : Token.Kind) : (takeKind? kind).IsQuiet :=
  (isQuiet_kind?).bind fun _ => (isQuiet_bump).ite (.pure _)

theorem isQuiet_expect (pattern : String) : (expect pattern).IsQuiet := by
  apply (isQuiet_take? pattern).bind
  intro text
  cases text with
  | none => exact isQuiet_expected _
  | some text => exact .pure _

theorem isQuiet_comments : comments.IsQuiet := by
  intro cursor
  exact ⟨rfl, Nat.le_refl _, rfl⟩

end Quiet

section Attempts

variable {rule : Rule α} {cursor : Cursor} {post goal : α → Cursor → Prop}

theorem AgreesAt.keepIf (h : rule.AgreesAt cursor post) {good : α → Bool}
    (hgood : ∀ value after, post value after → good value → goal value after)
    (hbad : ∀ value after, post value after → good value = false →
      goal value (after.reset cursor.mark)) :
    (keepIf good rule).AgreesAt cursor goal := by
  unfold AgreesAt at *
  have hmark : ∀ other : Cursor, (mark : Rule Mark) other = .ok other.mark other := fun _ => rfl
  simp only [Rule.keepIf, bind_apply, hmark]
  cases hrun : rule cursor with
  | error failure after =>
    rw [hrun] at h
    obtain ⟨other, hother⟩ := h
    exact ⟨other, by simp only [hother]⟩
  | ok value after =>
    rw [hrun] at h
    simp only [h.1]
    cases hvalue : good value with
    | true => exact ⟨rfl, hgood value after h.2 hvalue⟩
    | false => exact ⟨rfl, hbad value after h.2 hvalue⟩

/-- An attempt at a rule that matches. -/
theorem AgreesAt.attempt {rule : Rule (Option α)} {post : Option α → Cursor → Prop}
    (h : rule.AgreesAt cursor post) (hsome : ∀ value after, post value after → value.isSome) :
    (attempt rule).AgreesAt cursor post := by
  apply h.keepIf
  · intro _ _ hvalue _
    exact hvalue
  · intro value after hvalue hbad
    rw [hsome value after hvalue] at hbad
    exact absurd hbad (by decide)

theorem IsQuiet.attempt {rule : Rule (Option α)} (h : rule.IsQuiet) : (attempt rule).IsQuiet := by
  intro cursor
  apply (h cursor).keepIf
  · intro _ _ hafter _
    exact hafter
  · intro _ after hafter _
    exact hafter.back

theorem IsOptional.attempt {rule : Rule (Option α)} (h : rule.IsOptional) :
    (attempt rule).IsOptional := by
  intro cursor hfresh
  apply (h cursor hfresh).keepIf
  · intro _ _ hafter _
    exact hafter
  · intro value after hafter hvalue
    have hnone : value = none := by simpa using hvalue
    have hpasses := (hafter.2.2 hnone).back
    exact ⟨hpasses.isFresh hfresh, hpasses.follows, fun _ => hpasses⟩

theorem AgreesAt.descend
    (h : rule.AgreesAt { cursor with depth := cursor.depth + 1 } post)
    (hpost : ∀ value after, post value after → goal value { after with depth := after.depth - 1 }) :
    (descend rule).AgreesAt cursor goal := by
  unfold AgreesAt at *
  have hdepth : cursor.forgetful.depth = cursor.depth := rfl
  simp only [Rule.descend, hdepth]
  by_cases hdeep : Cursor.maxDepth ≤ cursor.depth
  · simp only [hdeep, if_true]
    exact ⟨cursor.forgetful, rfl⟩
  · simp only [hdeep, if_false]
    have hsame : Cursor.forgetful { cursor with depth := cursor.depth + 1 } =
        { cursor.forgetful with depth := cursor.depth + 1 } := rfl
    rw [hsame] at h
    cases hrun : rule { cursor with depth := cursor.depth + 1 } with
    | error failure after =>
      rw [hrun] at h
      obtain ⟨other, hother⟩ := h
      exact ⟨{ other with depth := other.depth - 1 }, by simp only [hother]⟩
    | ok value after =>
      rw [hrun] at h
      refine ⟨?_, hpost value after h.2⟩
      simp only [h.1]
      rfl

theorem IsQuiet.descend (h : rule.IsQuiet) : (descend rule).IsQuiet := by
  intro cursor
  apply (h { cursor with depth := cursor.depth + 1 }).descend
  intro _ _ hafter
  exact hafter.ascend

end Attempts

section Tame

variable {rule : Rule α} {next : α → Rule β}

theorem IsTame.bind (h : rule.IsTame) (hnext : ∀ value, (next value).IsTame) :
    (rule >>= next).IsTame := by
  intro cursor hfresh
  apply (h cursor hfresh).bind
  intro value after hafter
  exact (hnext value after hafter.1).mono fun _ _ hlast =>
    ⟨hlast.1, hlast.2.trans hafter.2⟩

theorem IsTame.ite {condition : Prop} [Decidable condition] {other : Rule α} (h : rule.IsTame)
    (hother : other.IsTame) : (if condition then rule else other).IsTame := by
  split
  · exact h
  · exact hother

theorem IsTame.map (h : rule.IsTame) (change : α → β) : (change <$> rule).IsTame := by
  rw [map_eq_bind]
  exact h.bind fun value => (IsQuiet.pure _).isTame

theorem IsTame.descend (h : rule.IsTame) : (descend rule).IsTame := by
  intro cursor hfresh
  apply (h { cursor with depth := cursor.depth + 1 } hfresh.descend).descend
  intro _ _ hafter
  exact ⟨hafter.1.ascend, hafter.2.ascend⟩

end Tame

section Optional

variable {rule : Rule (Option α)} {first : Rule β} {next : β → Rule (Option α)}

theorem IsCommitted.isOptional (h : rule.IsCommitted) : rule.IsOptional := by
  intro cursor hfresh
  apply (h cursor hfresh).mono
  intro value _ hafter
  refine ⟨hafter.1, hafter.2.1, ?_⟩
  rintro rfl
  exact absurd hafter.2.2 (by simp)

theorem IsOptional.isTame (h : rule.IsOptional) : rule.IsTame := by
  intro cursor hfresh
  exact (h cursor hfresh).mono fun _ _ hafter => ⟨hafter.1, hafter.2.1⟩

theorem IsCommitted.some (value : α) : IsCommitted (pure (Option.some value)) :=
  fun cursor hfresh => .pure ⟨hfresh, .refl cursor, rfl⟩

theorem isCommitted_expected (what : String) : IsCommitted (expected what : Rule (Option α)) :=
  fun _ _ => .expected what

theorem IsTame.bind_committed (h : first.IsTame) (hnext : ∀ value, (next value).IsCommitted) :
    (first >>= next).IsCommitted := by
  intro cursor hfresh
  apply (h cursor hfresh).bind
  intro value after hafter
  exact (hnext value after hafter.1).mono fun _ _ hlast =>
    ⟨hlast.1, hlast.2.1.trans hafter.2, hlast.2.2⟩

theorem IsCommitted.ite {condition : Prop} [Decidable condition] {other : Rule (Option α)}
    (h : rule.IsCommitted) (hother : other.IsCommitted) :
    (if condition then rule else other).IsCommitted := by
  split
  · exact h
  · exact hother

/-- Two ways to come to the same rest. -/
theorem IsTame.ite_bind_committed {condition : Prop} [Decidable condition] {second : Rule β}
    (h : first.IsTame) (hsecond : second.IsTame) (hnext : ∀ value, (next value).IsCommitted) :
    (if condition then first >>= next else second >>= next).IsCommitted :=
  (h.bind_committed hnext).ite (hsecond.bind_committed hnext)

theorem IsQuiet.bind_optional (h : first.IsQuiet) (hnext : ∀ value, (next value).IsOptional) :
    (first >>= next).IsOptional := by
  intro cursor hfresh
  apply (h cursor).bind
  intro value after hafter
  exact (hnext value after (hafter.isFresh hfresh)).mono fun _ _ hlast =>
    ⟨hlast.1, hlast.2.1.trans hafter.follows, fun hnone => (hlast.2.2 hnone).trans hafter⟩

theorem IsOptional.ite {condition : Prop} [Decidable condition] {other : Rule (Option α)}
    (h : rule.IsOptional) (hother : other.IsOptional) :
    (if condition then rule else other).IsOptional := by
  split
  · exact h
  · exact hother

/-- An optional rule whose match commits to the rest. -/
theorem IsOptional.bind {first : Rule (Option β)} {next : Option β → Rule (Option α)}
    (h : first.IsOptional) (hsome : ∀ value, (next (Option.some value)).IsCommitted)
    (hnone : (next none).IsOptional) : (first >>= next).IsOptional := by
  intro cursor hfresh
  apply (h cursor hfresh).bind
  intro value after hafter
  cases value with
  | none =>
    have hpasses := hafter.2.2 rfl
    exact (hnone after hafter.1).mono fun _ _ hlast =>
      ⟨hlast.1, hlast.2.1.trans hafter.2.1, fun hnone => (hlast.2.2 hnone).trans hpasses⟩
  | some value =>
    apply (hsome value after hafter.1).mono
    intro last _ hlast
    refine ⟨hlast.1, hlast.2.1.trans hafter.2.1, ?_⟩
    rintro rfl
    exact absurd hlast.2.2 (by simp)

theorem IsOptional.map {first : Rule (Option β)} (h : first.IsOptional) (change : β → α) :
    (Option.map change <$> first).IsOptional := by
  rw [map_eq_bind]
  exact h.bind (fun value => .some _) (IsQuiet.pure none).isOptional

theorem IsOptional.descend (h : rule.IsOptional) : (descend rule).IsOptional := by
  intro cursor hfresh
  apply (h { cursor with depth := cursor.depth + 1 } hfresh.descend).descend
  intro value after hafter
  exact ⟨hafter.1.ascend, hafter.2.1.ascend, fun hnone => (hafter.2.2 hnone).ascend⟩

theorem IsOptional.require (h : rule.IsOptional) (what : String) : (require what rule).IsTame := by
  apply h.isTame.bind
  intro value
  cases value with
  | none => exact (isQuiet_expected what).isTame
  | some value => exact (IsQuiet.pure value).isTame

theorem IsOptional.isTentative (h : rule.IsOptional) : rule.IsTentative := by
  intro cursor hfresh
  exact (h cursor hfresh).mono fun _ _ hafter => ⟨hafter.2.1, fun _ => hafter.1⟩

theorem IsTentative.attempt (h : rule.IsTentative) : (attempt rule).IsTentative := by
  intro cursor hfresh
  apply (h cursor hfresh).keepIf
  · intro _ _ hafter _
    exact hafter
  · intro value after hafter hvalue
    refine ⟨hafter.1.back, fun hsome => ?_⟩
    rw [hvalue] at hsome
    exact absurd hsome (by decide)

theorem IsTentative.require (h : rule.IsTentative) (what : String) :
    (require what rule).IsTame := by
  intro cursor hfresh
  apply (h cursor hfresh).bind
  intro value after hafter
  cases value with
  | none => exact .expected what
  | some value => exact .pure ⟨hafter.2 rfl, hafter.1⟩

/-- A tentative rule whose match commits to the rest, and that has nothing else to offer. -/
theorem IsTentative.bind {first : Rule (Option β)} {next : Option β → Rule (Option α)}
    (h : first.IsTentative) (hsome : ∀ value, (next (Option.some value)).IsTame)
    (hnone : next none = pure none) : (first >>= next).IsTentative := by
  intro cursor hfresh
  apply (h cursor hfresh).bind
  intro value after hafter
  cases value with
  | none =>
    rw [hnone]
    exact .pure ⟨hafter.1, fun hsome => absurd hsome (by simp)⟩
  | some value =>
    apply (hsome value after (hafter.2 rfl)).mono
    intro _ _ hlast
    exact ⟨hlast.2.trans hafter.1, fun _ => hlast.1⟩

/-- A tame rule before a tentative one. -/
theorem IsTame.bind_tentative (h : first.IsTame) (hnext : ∀ value, (next value).IsTentative) :
    (first >>= next).IsTentative := by
  intro cursor hfresh
  apply (h cursor hfresh).bind
  intro value after hafter
  apply (hnext value after hafter.1).mono
  intro _ _ hlast
  exact ⟨hlast.1.trans hafter.2, hlast.2⟩

theorem IsOptional.firstOf {rules : List (Rule (Option α))} (h : ∀ rule ∈ rules, rule.IsOptional) :
    (firstOf rules).IsOptional := by
  induction rules with
  | nil => exact (IsQuiet.pure none).isOptional
  | cons rule rules ih =>
    apply (h rule List.mem_cons_self).attempt.bind
    · intro value
      exact .some value
    · exact ih fun other hother => h other (List.mem_cons_of_mem rule hother)

end Optional

section Repetition

theorem IsQuiet.require {rule : Rule (Option α)} (h : rule.IsQuiet) (what : String) :
    (require what rule).IsQuiet := by
  apply h.bind
  intro value
  cases value with
  | none => exact isQuiet_expected what
  | some value => exact .pure value

theorem IsQuiet.repeatUpTo {rule : Rule (Option α)} (h : rule.IsQuiet) (steps : Nat) :
    (repeatUpTo steps rule).IsQuiet := by
  induction steps with
  | zero => exact .pure []
  | succ steps ih =>
    apply h.bind
    intro value
    cases value with
    | none => exact .pure []
    | some value => exact ih.bind fun rest => .pure _

theorem IsQuiet.many {rule : Rule (Option α)} (h : rule.IsQuiet) : (many rule).IsQuiet :=
  fun cursor => h.repeatUpTo (cursor.remaining + 1) cursor

theorem IsOptional.repeatUpTo {rule : Rule (Option α)} (h : rule.IsOptional) (steps : Nat) :
    (repeatUpTo steps rule).IsTame := by
  induction steps with
  | zero => exact (IsQuiet.pure []).isTame
  | succ steps ih =>
    apply h.isTame.bind
    intro value
    cases value with
    | none => exact (IsQuiet.pure []).isTame
    | some value => exact ih.bind fun rest => (IsQuiet.pure _).isTame

theorem IsOptional.many {rule : Rule (Option α)} (h : rule.IsOptional) : (many rule).IsTame :=
  fun cursor => h.repeatUpTo (cursor.remaining + 1) cursor

theorem IsQuiet.commaSeparated {item : Rule α} (h : item.IsQuiet) :
    (commaSeparated item).IsQuiet := by
  have hrest : IsQuiet (do if ← skip "," then return some (← item) else return none) :=
    (isQuiet_skip ",").bind fun _ => (h.bind fun _ => .pure _).ite (.pure none)
  exact h.bind fun _ => hrest.many.bind fun _ => .pure _

theorem IsTame.commaSeparated {item : Rule α} (h : item.IsTame) :
    (commaSeparated item).IsTame := by
  have hrest : IsOptional (do if ← skip "," then return some (← item) else return none) := by
    apply (isQuiet_skip ",").bind_optional
    intro isThere
    cases isThere with
    | false => exact (IsQuiet.pure none).isOptional
    | true => exact (h.bind_committed fun value => .some value).isOptional
  exact h.bind fun _ => hrest.many.bind fun _ => (IsQuiet.pure _).isTame

theorem IsQuiet.parenthesized {item : Rule α} (h : item.IsQuiet) :
    (parenthesized item).IsQuiet := by
  apply (isQuiet_expect "(").discard.bind
  intro _
  apply (isQuiet_skip ")").bind
  intro isEmpty
  apply (IsQuiet.pure []).ite
  apply h.commaSeparated.bind
  intro items
  exact (isQuiet_expect ")").discard.bind fun _ => .pure items

theorem IsTame.parenthesized {item : Rule α} (h : item.IsTame) : (parenthesized item).IsTame := by
  apply (isQuiet_expect "(").discard.isTame.bind
  intro _
  apply (isQuiet_skip ")").isTame.bind
  intro isEmpty
  cases isEmpty with
  | true => exact (IsQuiet.pure []).isTame
  | false =>
    apply h.commaSeparated.bind
    intro items
    exact ((isQuiet_expect ")").discard.bind fun _ => .pure items).isTame

end Repetition

section Once

variable {rule : Rule (Option Query)} {cursor : Cursor}

theorem attempt_apply {α : Type} (rule : Rule (Option α)) (cursor : Cursor) :
    attempt rule cursor =
      match rule cursor with
      | .ok none after => .ok none (after.reset cursor.mark)
      | .ok (some value) after => .ok (some value) after
      | .error failure after => .error failure after := by
  have hmark : (mark : Rule Mark) cursor = .ok cursor.mark cursor := rfl
  unfold attempt keepIf
  simp only [bind_apply, hmark]
  cases hrun : rule cursor with
  | error failure after => rfl
  | ok value after => cases value <;> rfl

theorem once_apply (rule : Rule (Option Query)) (cursor : Cursor) :
    once rule cursor =
      match cursor.outcome? with
      | some none => .ok none cursor
      | some (some (query, stop)) => .ok (some query) (cursor.reset stop)
      | none =>
        match attempt rule cursor with
        | .ok value after => (do keepOutcome cursor.pos value; return value) after
        | .error failure after => .error failure after := by
  have hmark : (mark : Rule Mark) cursor = .ok cursor.mark cursor := rfl
  unfold once onceWith
  rw [map_eq_bind, bind_apply, bind_apply, replay?]
  cases hkept : cursor.outcome? with
  | some kept =>
    cases kept with
    | none => rfl
    | some kept => rfl
  | none =>
    simp only []
    rw [bind_of_ok (ask_apply _ _)]
    unfold attempt keepIf
    simp only [bind_apply, hmark, map_eq_bind]
    cases hrun : rule cursor with
    | error failure after => rfl
    | ok value after =>
      simp only [pure_apply]
      cases value with
      | none =>
        simp only [Option.isSome_none]
        cases hkeeps : keepOutcome cursor.pos none (after.reset cursor.mark) <;>
          simp [hkeeps, Rule.reset, pure_apply, bind_apply]
      | some value =>
        simp only [Option.isSome_some]
        cases hkeeps : keepOutcome cursor.pos (some value) after <;>
          simp [hkeeps, pure_apply]

theorem once_congr {rule other : Rule (Option Query)} {cursor : Cursor} (h : rule cursor = other cursor) :
    once rule cursor = once other cursor := by
  rw [once_apply, once_apply, attempt_apply, attempt_apply, h]

theorem keepOutcome_apply (start : Nat) (outcome : Option Query)
    (hkeeps : cursor.keepsOutcomes = true) :
    keepOutcome start outcome cursor =
      .ok () (cursor.keep start (outcome.map fun query => (query, cursor.mark))) := by
  rw [keepOutcome, if_pos hkeeps]
  rfl

/-- Where nothing is kept, reading once is a plain attempt. -/
theorem once_of_not_keeps (hkept : cursor.outcome? = none)
    (hkeeps : ∀ value after, rule cursor = .ok value after → after.keepsOutcomes = false) :
    once rule cursor = attempt rule cursor := by
  rw [once_apply, hkept, attempt_apply]
  cases hrun : rule cursor with
  | error failure after => rfl
  | ok value after =>
    have hflag := hkeeps value after hrun
    cases value <;> simp [keepOutcome, Cursor.reset, pure_apply, bind_apply, hflag]

/-- The first time a place is come to, the outcome is kept for it. -/
theorem AgreesAt.once {post goal : Option Query → Cursor → Prop} (hfresh : cursor.IsFresh)
    (h : rule.AgreesAt cursor post)
    (hfollows : ∀ value after, post value after → after.Follows cursor)
    (hsome : ∀ query after, post (some query) after →
      goal (some query) (after.keep cursor.pos (some (query, after.mark))))
    (hnone : ∀ after, post none after → goal none ((after.reset cursor.mark).keep cursor.pos none)) :
    (once rule).AgreesAt cursor goal := by
  have hkept : cursor.outcome? = none := hfresh.lookup_eq cursor.pos (Nat.le_refl _)
  have hplain : cursor.forgetful.outcome? = none := rfl
  unfold AgreesAt at h ⊢
  rw [once_apply, once_apply, hkept, hplain, attempt_apply, attempt_apply]
  cases hrun : rule cursor with
  | error failure after =>
    rw [hrun] at h
    obtain ⟨other, hother⟩ := h
    exact ⟨other, by rw [hother]⟩
  | ok value after =>
    rw [hrun] at h
    rw [h.1]
    have hkeeps : after.keepsOutcomes = true :=
      (hfollows value after h.2).keeps_eq.trans hfresh.keeps_eq
    cases value with
    | none =>
      have hkeeps' : (after.reset cursor.mark).keepsOutcomes = true := hkeeps
      simp only [bind_of_ok (keepOutcome_apply cursor.pos none hkeeps')]
      exact ⟨rfl, hnone after h.2⟩
    | some query =>
      simp only [bind_of_ok (keepOutcome_apply cursor.pos (some query) hkeeps)]
      exact ⟨rfl, hsome query after h.2⟩

end Once

end Rule

end SqlLayout
