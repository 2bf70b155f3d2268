import SqlLayout.Proofs.Cursor.Ensures
import SqlLayout.Proofs.Syntax.Verbatim

/-!
# What a Rule Stores

A rule stores the verbatim texts of the tokens it takes when the value it gives holds these texts, each
once and in order. The pieces of a value are read one after the other, so a rule inside another one is
described together with the texts that are held already.
-/

namespace SqlLayout

open Token

namespace Cursor

/-- The verbatim texts of the tokens before the cursor. -/
def read (cursor : Cursor) : List String :=
  (cursor.tokens.toList.take cursor.pos).flatMap Token.verbatims

variable {cursor : Cursor}

theorem read_advance_one {token : Token} (h : cursor.token? 0 = some token) :
    (cursor.advance 1).read = cursor.read ++ token.verbatims := by
  have htoken : cursor.tokens.toList[cursor.pos]? = some token := by
    simpa [token?] using h
  simp only [read, advance, List.take_add_one, htoken, List.flatMap_append, Option.toList_some,
    List.flatMap_cons, List.flatMap_nil, List.append_nil]

theorem verbatims_of_fits {pattern : String} {token : Token} (h : fits pattern token = true) :
    token.verbatims = [] := by
  have hkind : token.kind.isVerbatim = false := by
    rcases kind_of_fits h with hword | hsymbol
    · rw [hword]
      rfl
    · revert hsymbol
      cases token.kind <;> decide
  rw [Token.verbatims, Glyph.verbatims, Token.glyph, hkind]
  rfl

theorem read_advance_of_sees {pattern : String} (h : cursor.sees pattern = true) :
    (cursor.advance 1).read = cursor.read := by
  obtain ⟨token, htoken, hfits⟩ := token_of_seesAt h
  rw [read_advance_one htoken, verbatims_of_fits hfits, List.append_nil]

theorem seesAllAt_advance (patterns : List String) (ahead : Nat) :
    (cursor.advance 1).seesAllAt ahead patterns = cursor.seesAllAt (ahead + 1) patterns := by
  induction patterns generalizing ahead with
  | nil => rfl
  | cons pattern patterns ih =>
    have hsees : (cursor.advance 1).seesAt ahead pattern = cursor.seesAt (ahead + 1) pattern := by
      simp only [seesAt, token?, advance, Nat.add_assoc, Nat.add_comm 1]
    rw [seesAllAt, seesAllAt, hsees, ih]

theorem read_advance_of_seesAll {patterns : List String} (h : cursor.seesAll patterns = true) :
    (cursor.advance patterns.length).read = cursor.read := by
  induction patterns generalizing cursor with
  | nil => rfl
  | cons pattern patterns ih =>
    obtain ⟨hfirst, hrest⟩ := Bool.and_eq_true_iff.mp h
    rw [← seesAllAt_advance] at hrest
    have hadvance : cursor.advance (pattern :: patterns).length =
        (cursor.advance 1).advance patterns.length := by
      simp only [advance, List.length_cons, Nat.add_assoc, Nat.add_comm 1]
    rw [hadvance, ih hrest, read_advance_of_sees hfirst]

theorem read_of_atEnd (h : cursor.atEnd = true) :
    cursor.read = cursor.tokens.toList.flatMap Token.verbatims := by
  have hsize : cursor.tokens.toList.length ≤ cursor.pos := by
    simpa [atEnd] using h
  rw [read, List.take_of_length_le hsize]

end Cursor

namespace Rule

variable {α β : Type}

/-- With some texts held already, the rule gives a value of these and of the texts it takes. -/
def StoresAfter (held : List String) (rule : Rule α) (texts : α → List String) : Prop :=
  ∀ cursor before, cursor.read = before ++ held →
    rule.Ensures cursor fun value after => after.read = before ++ texts value

/-- The rule gives a value of the texts it takes. -/
abbrev Stores (rule : Rule α) (texts : α → List String) : Prop :=
  rule.StoresAfter [] texts

/-- The same of a rule that may give nothing, and takes no texts then. -/
abbrev MayStore (rule : Rule (Option α)) (texts : α → List String) : Prop :=
  rule.Stores (verbatims? texts)

/-- The rule takes no texts. -/
abbrev StoresNothing (rule : Rule α) : Prop :=
  rule.Stores fun _ => []

/-- With some texts held already, the rule gives a value of these and of the texts it takes, if it gives
one at all; otherwise its texts are lost. -/
def FindsAfter (held : List String) (rule : Rule (Option α)) (texts : α → List String) : Prop :=
  ∀ cursor before, cursor.read = before ++ held →
    rule.Ensures cursor fun value after => ∀ found ∈ value, after.read = before ++ texts found

section Steps

variable {held : List String} {rule : Rule α} {next : α → Rule β} {texts : α → List String}
  {goal : β → List String}

theorem Stores.ensures (h : rule.Stores texts) (cursor : Cursor) :
    rule.Ensures cursor fun value after => after.read = cursor.read ++ texts value :=
  h cursor cursor.read (List.append_nil _).symm

theorem Stores.of_ensures
    (h : ∀ cursor, rule.Ensures cursor fun value after => after.read = cursor.read ++ texts value) :
    rule.Stores texts := by
  intro cursor before hread
  rw [List.append_nil] at hread
  rw [← hread]
  exact h cursor

theorem StoresNothing.of_ensures
    (h : ∀ cursor, rule.Ensures cursor fun _ after => after.read = cursor.read) :
    rule.StoresNothing := by
  apply Stores.of_ensures
  simpa using h

theorem StoresAfter.pure {value : α} (h : held = texts value) :
    (Pure.pure value : Rule α).StoresAfter held texts := by
  intro cursor before hread
  apply Ensures.pure
  rw [hread, h]

theorem mayStore_none : (Pure.pure none : Rule (Option α)).MayStore texts :=
  .pure rfl

theorem stores_nil : (Pure.pure [] : Rule (List α)).Stores (List.flatMap texts) :=
  .pure rfl

theorem Stores.bind (h : rule.Stores texts)
    (hnext : ∀ value, (next value).StoresAfter (held ++ texts value) goal) :
    (rule >>= next).StoresAfter held goal := by
  intro cursor before hread
  apply (h.ensures cursor).bind
  intro value after hafter
  apply hnext value after before
  rw [hafter, hread, List.append_assoc]

/-- What is held goes into the value of the first rule, and only that value is held afterwards. -/
theorem StoresAfter.bindAfter (h : rule.StoresAfter held texts)
    (hnext : ∀ value, (next value).StoresAfter (texts value) goal) :
    (rule >>= next).StoresAfter held goal := by
  intro cursor before hread
  apply (h cursor before hread).bind
  intro value after hafter
  exact hnext value after before hafter

/-- Nothing is added to what is held. -/
theorem StoresNothing.bind (h : rule.StoresNothing)
    (hnext : ∀ value, (next value).StoresAfter held goal) : (rule >>= next).StoresAfter held goal := by
  apply Stores.bind h
  intro value
  rw [List.append_nil]
  exact hnext value

theorem StoresAfter.ite {condition : Prop} [Decidable condition] {other : Rule α}
    (h : rule.StoresAfter held texts) (hother : other.StoresAfter held texts) :
    (if condition then rule else other).StoresAfter held texts := by
  split
  · exact h
  · exact hother

/-- One rule or another comes first, and then the same in both cases. -/
theorem StoresAfter.iteBind {condition : Prop} [Decidable condition] {other : Rule α}
    (h : rule.Stores texts) (hother : other.Stores texts)
    (hnext : ∀ value, (next value).StoresAfter (held ++ texts value) goal) :
    (if condition then rule >>= next else other >>= next).StoresAfter held goal :=
  StoresAfter.ite (h.bind hnext) (hother.bind hnext)

theorem Stores.map (h : rule.Stores texts) (change : α → β)
    (htexts : ∀ value, texts value = goal (change value)) : (change <$> rule).Stores goal := by
  rw [map_eq_bind]
  exact h.bind fun value => .pure (htexts value)

theorem StoresNothing.discard (h : rule.StoresNothing) : (Functor.discard rule).StoresNothing := by
  rw [discard_eq_bind]
  exact h.bind fun _ => .pure rfl

theorem storesAfter_expected (what : String) : (expected what : Rule α).StoresAfter held texts :=
  fun _ _ _ => ensures_expected what

theorem storesAfter_tooDeep : (tooDeep : Rule α).StoresAfter held texts :=
  fun _ _ _ => ensures_tooDeep

theorem storesNothing_ask (question : Cursor → α) : (ask question).StoresNothing :=
  .of_ensures fun _ => .ask rfl

theorem FindsAfter.bind {next : α → Rule (Option β)} {goal : β → List String} (h : rule.Stores texts)
    (hnext : ∀ value, (next value).FindsAfter (held ++ texts value) goal) :
    (rule >>= next).FindsAfter held goal := by
  intro cursor before hread
  apply (h.ensures cursor).bind
  intro value after hafter
  apply hnext value after before
  rw [hafter, hread, List.append_assoc]

theorem FindsAfter.bindFound {rule : Rule (Option α)} {next : Option α → Rule (Option β)}
    {goal : β → List String} (h : rule.FindsAfter held texts) (hnone : next none = Pure.pure none)
    (hnext : ∀ value, (next (some value)).FindsAfter (texts value) goal) :
    (rule >>= next).FindsAfter held goal := by
  intro cursor before hread
  apply (h cursor before hread).bind
  intro value after hafter
  cases value with
  | none =>
    rw [hnone]
    exact .pure (by simp)
  | some value => exact hnext value after before (hafter value rfl)

theorem FindsAfter.none : (Pure.pure none : Rule (Option α)).FindsAfter held texts :=
  fun _ _ _ => .pure (by simp)

theorem StoresAfter.finds {rule : Rule (Option α)} (h : rule.StoresAfter held (verbatims? texts)) :
    rule.FindsAfter held texts := by
  intro cursor before hread
  apply (h cursor before hread).mono
  rintro value after hafter found ⟨⟩
  exact hafter

end Steps

section Taking

variable {held : List String} {goal : α → List String}

theorem storesNothing_skip (pattern : String) : (skip pattern).StoresNothing := by
  apply StoresNothing.of_ensures
  intro cursor
  apply (ensures_skip pattern).mono
  rintro isThere after (⟨-, hsees, rfl⟩ | ⟨-, -, rfl⟩)
  · exact Cursor.read_advance_of_sees hsees
  · rfl

theorem storesNothing_skipAll {patterns : List String} (hne : patterns ≠ []) :
    (skipAll patterns).StoresNothing := by
  apply StoresNothing.of_ensures
  intro cursor _ value after hrun
  rw [skipAll_apply _ _ hne] at hrun
  split at hrun
  · rename_i hsees
    cases hrun
    exact ⟨cursor.passes_advance _, Cursor.read_advance_of_seesAll hsees⟩
  · cases hrun
    exact ⟨.refl cursor, rfl⟩

theorem storesNothing_expect (pattern : String) : (discard (expect pattern)).StoresNothing := by
  apply StoresNothing.of_ensures
  intro cursor _ value after hrun
  cases hsees : cursor.sees pattern with
  | false =>
    rw [discard_expect_of_not hsees] at hrun
    cases hrun
  | true =>
    rw [discard_expect_of_sees hsees] at hrun
    cases hrun
    exact ⟨cursor.passes_advance 1, Cursor.read_advance_of_sees hsees⟩

theorem storesNothing_comments : comments.StoresNothing := by
  apply StoresNothing.of_ensures
  intro cursor _ value after hrun
  cases hrun
  exact ⟨⟨Nat.le_refl _, rfl⟩, rfl⟩

/-- A token that matches a pattern is no text, whoever takes it. -/
theorem ensures_bump_of_sees {cursor : Cursor} {pattern : String} (h : cursor.sees pattern = true) :
    (discard bump).Ensures cursor fun _ after => after.read = cursor.read := by
  intro _ value after hrun
  rw [discard_bump_of_sees h] at hrun
  cases hrun
  exact ⟨cursor.passes_advance 1, Cursor.read_advance_of_sees h⟩

end Taking

section Choices

variable {held : List String} {rule : Rule (Option α)} {texts : α → List String}

theorem FindsAfter.attempt (h : rule.FindsAfter [] texts) : (Rule.attempt rule).MayStore texts := by
  apply Stores.of_ensures
  intro cursor
  apply (h cursor cursor.read (List.append_nil _).symm).attempt
  · intro value after hvalue
    exact hvalue value rfl
  · intro _ _
    exact (List.append_nil _).symm

theorem Stores.attempt (h : rule.MayStore texts) : (Rule.attempt rule).MayStore texts :=
  h.finds.attempt

theorem mayStore_firstOf {rules : List (Rule (Option α))} (h : ∀ rule ∈ rules, rule.MayStore texts) :
    (firstOf rules).MayStore texts := by
  induction rules with
  | nil => exact .pure rfl
  | cons rule rules ih =>
    apply (h rule List.mem_cons_self).attempt.bind
    intro value
    cases value with
    | none => exact ih fun other hother => h other (List.mem_cons_of_mem rule hother)
    | some value => exact .pure rfl

theorem Stores.require (h : rule.MayStore texts) (what : String) :
    (Rule.require what rule).Stores texts := by
  apply Stores.bind h
  intro value
  cases value with
  | none => exact storesAfter_expected what
  | some value => exact .pure rfl

theorem Stores.descend {rule : Rule α} (h : rule.Stores texts) : (Rule.descend rule).Stores texts := by
  apply Stores.of_ensures
  intro cursor
  exact (h.ensures { cursor with depth := cursor.depth + 1 }).descend fun _ _ hafter => hafter

theorem Stores.many (h : rule.MayStore texts) : (Rule.many rule).Stores (List.flatMap texts) := by
  have hrepeat (steps : Nat) : (repeatUpTo steps rule).Stores (List.flatMap texts) := by
    induction steps with
    | zero => exact .pure rfl
    | succ steps ih =>
      apply Stores.bind h
      intro value
      cases value with
      | none => exact .pure rfl
      | some value => exact ih.bind fun values => .pure rfl
  exact .of_ensures fun cursor => (hrepeat (cursor.remaining + 1)).ensures cursor

end Choices

section Lists

variable {item : Rule α} {texts : α → List String}

theorem Stores.commaSeparated (h : item.Stores texts) :
    (Rule.commaSeparated item).Stores (List.flatMap texts) := by
  have hfurther : MayStore (do if ← skip "," then return some (← item) else return none) texts :=
    (storesNothing_skip ",").bind fun _ => StoresAfter.ite (h.bind fun _ => .pure rfl) mayStore_none
  apply h.bind
  intro first
  exact hfurther.many.bind fun rest => .pure rfl

theorem Stores.parenthesized (h : item.Stores texts) :
    (Rule.parenthesized item).Stores (List.flatMap texts) := by
  apply (storesNothing_expect "(").bind
  intro _
  apply (storesNothing_skip ")").bind
  intro _
  apply StoresAfter.ite stores_nil
  apply h.commaSeparated.bind
  intro items
  exact (storesNothing_expect ")").bind fun _ => .pure rfl

end Lists

end Rule

end SqlLayout
