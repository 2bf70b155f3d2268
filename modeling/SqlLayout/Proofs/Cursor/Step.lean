import SqlLayout.Cursor.Rule

/-!
# Single Steps

What the basic rules do at a cursor, by what the cursor sees there. A token that matches one pattern
matches no other one that is spelled differently, so whatever is seen decides which rules decline.
-/

namespace SqlLayout

/-- Whether a token stands right after another one. -/
def Token.touches (token next : Token) : Bool :=
  token.stop == next.start

namespace Cursor

/-- Whether no token matches both patterns. -/
def excludes (pattern other : String) : Bool :=
  if isWordPattern pattern then !isWordPattern other || !Text.sameWord pattern other
  else isWordPattern other || pattern != other

theorem fits_eq_false {pattern other : String} {token : Token} (h : fits pattern token = true)
    (hother : excludes pattern other = true) : fits other token = false := by
  unfold fits at *
  unfold excludes at hother
  by_cases hword : isWordPattern pattern = true
  · rw [if_pos hword] at h hother
    rw [Bool.and_eq_true, decide_eq_true_eq] at h
    by_cases hword' : isWordPattern other = true
    · have hne : Text.sameWord pattern other = false := by simpa [hword'] using hother
      rw [if_pos hword']
      have hsame := (Text.sameWord_iff _ _).mp h.2
      unfold Text.sameWord at *
      rw [hsame, hne, Bool.and_false]
    · rw [if_neg hword', h.1]
      rfl
  · rw [if_neg hword] at h hother
    rw [Bool.and_eq_true, beq_iff_eq] at h
    by_cases hword' : isWordPattern other = true
    · rw [if_pos hword']
      have hkind : token.kind ≠ .word := by
        intro hkind
        rw [hkind] at h
        exact absurd h.1 (by decide)
      simp [hkind]
    · have hne : pattern ≠ other := by simpa [hword'] using hother
      rw [if_neg hword', h.2]
      simp [hne]

theorem kind_of_fits {pattern : String} {token : Token} (h : fits pattern token = true) :
    token.kind = .word ∨ token.kind.isSymbol = true := by
  unfold fits at h
  split at h
  · rw [Bool.and_eq_true, decide_eq_true_eq] at h
    exact .inl h.1
  · rw [Bool.and_eq_true] at h
    exact .inr h.1

theorem token_of_seesAt {cursor : Cursor} {ahead : Nat} {pattern : String}
    (h : cursor.seesAt ahead pattern = true) :
    ∃ token, cursor.token? ahead = some token ∧ fits pattern token = true := by
  unfold seesAt at h
  cases htoken : cursor.token? ahead with
  | none => simp [htoken] at h
  | some token =>
    rw [htoken] at h
    exact ⟨token, rfl, h⟩

/-- A token that matches a pattern is no literal. -/
theorem kind?_of_seesAt {cursor : Cursor} {ahead : Nat} {pattern : String}
    (h : cursor.seesAt ahead pattern = true) :
    ∃ kind, cursor.kind? ahead = some kind ∧ (kind = .word ∨ kind.isSymbol = true) := by
  obtain ⟨token, htoken, hfits⟩ := token_of_seesAt h
  exact ⟨token.kind, by rw [kind?, htoken]; rfl, kind_of_fits hfits⟩

theorem seesAt_eq_false {cursor : Cursor} {ahead : Nat} {pattern other : String}
    (h : cursor.seesAt ahead pattern = true) (hother : excludes pattern other = true) :
    cursor.seesAt ahead other = false := by
  unfold seesAt at *
  cases htoken : cursor.token? ahead with
  | none => rfl
  | some token =>
    rw [htoken] at h
    exact fits_eq_false h hother

theorem sees_eq_false {cursor : Cursor} {pattern other : String} (h : cursor.sees pattern = true)
    (hother : excludes pattern other = true) : cursor.sees other = false :=
  seesAt_eq_false h hother

theorem seesAll_eq_false {cursor : Cursor} {pattern : String} {patterns : List String}
    (h : cursor.sees pattern = false) : cursor.seesAll (pattern :: patterns) = false := by
  unfold sees at h
  simp [seesAll, seesAllAt, h]

theorem text?_isSome_of_sees {cursor : Cursor} {pattern : String} (h : cursor.sees pattern = true) :
    cursor.text?.isSome := by
  unfold sees seesAt at h
  unfold text?
  cases htoken : cursor.token? 0 with
  | none => simp [htoken] at h
  | some token => rfl

/-- Two closing angle brackets make a shift when they are seen and touch. -/
theorem touching_one (cursor : Cursor) :
    cursor.touching 1 =
      match cursor.token? 0, cursor.token? 1 with
      | some token, some next => token.stop == next.start
      | _, _ => false :=
  Bool.and_true _

theorem seesJoined_iff {cursor : Cursor} :
    cursor.seesJoined [">", ">"] = true ↔
      ∃ first next, cursor.token? 0 = some first ∧ cursor.token? 1 = some next ∧
        fits ">" first = true ∧ fits ">" next = true ∧ first.touches next = true := by
  have hjoined : cursor.seesJoined [">", ">"] =
      ((cursor.seesAt 0 ">" && (cursor.seesAt 1 ">" && true)) && cursor.touching 1) := rfl
  rw [hjoined, touching_one]
  unfold seesAt
  cases cursor.token? 0 <;> cases cursor.token? 1 <;> simp [Token.touches, and_assoc]

end Cursor

namespace Rule

variable {α β : Type}

theorem bind_apply (rule : Rule α) (next : α → Rule β) (cursor : Cursor) :
    (rule >>= next) cursor =
      match rule cursor with
      | .ok value after => next value after
      | .error failure after => .error failure after := by
  cases h : rule cursor <;> simp [bind, EStateM.bind, h]

theorem pure_apply (value : α) (cursor : Cursor) : (pure value : Rule α) cursor = .ok value cursor :=
  rfl

theorem map_eq_bind (change : α → β) (rule : Rule α) :
    change <$> rule = rule >>= fun value => pure (change value) := by
  funext cursor
  rw [bind_apply]
  cases h : rule cursor <;> simp [Functor.map, EStateM.map, pure_apply, h]

theorem discard_eq_bind (rule : Rule α) : discard rule = rule >>= fun _ => pure () := by
  rw [← map_eq_bind]
  rfl

theorem bind_of_ok {rule : Rule α} {next : α → Rule β} {cursor after : Cursor} {value : α}
    (h : rule cursor = .ok value after) : (rule >>= next) cursor = next value after := by
  rw [bind_apply, h]

theorem map_of_ok {rule : Rule α} {change : α → β} {cursor after : Cursor} {value : α}
    (h : rule cursor = .ok value after) : (change <$> rule) cursor = .ok (change value) after := by
  rw [map_eq_bind, bind_of_ok h, pure_apply]

theorem ask_apply (question : Cursor → α) (cursor : Cursor) :
    ask question cursor = .ok (question cursor) cursor :=
  rfl

theorem sees_apply (pattern : String) (cursor : Cursor) :
    sees pattern cursor = .ok (cursor.sees pattern) cursor :=
  rfl

section Taking

variable {cursor : Cursor} {pattern : String}

theorem take?_of_not (h : cursor.sees pattern = false) : take? pattern cursor = .ok none cursor := by
  rw [take?, bind_of_ok (sees_apply pattern cursor), h]
  rfl

theorem bump_of_sees (h : cursor.sees pattern = true) :
    bump cursor = .ok cursor.text? (cursor.advance 1) := by
  obtain ⟨text, htext⟩ := Option.isSome_iff_exists.mp (Cursor.text?_isSome_of_sees h)
  rw [bump, htext]

theorem discard_bump_of_sees (h : cursor.sees pattern = true) :
    (discard bump) cursor = .ok () (cursor.advance 1) := by
  rw [discard_eq_bind, bind_of_ok (bump_of_sees h), pure_apply]

theorem take?_of_sees (h : cursor.sees pattern = true) :
    take? pattern cursor = .ok cursor.text? (cursor.advance 1) := by
  rw [take?, bind_of_ok (sees_apply pattern cursor), h, if_pos rfl, bump_of_sees h]

theorem skip_of_not (h : cursor.sees pattern = false) : skip pattern cursor = .ok false cursor :=
  map_of_ok (take?_of_not h)

theorem skip_of_sees (h : cursor.sees pattern = true) :
    skip pattern cursor = .ok true (cursor.advance 1) := by
  rw [skip, map_of_ok (take?_of_sees h), Cursor.text?_isSome_of_sees h]

theorem expect_of_not (h : cursor.sees pattern = false) :
    expect pattern cursor = expected (Cause.quote pattern) cursor := by
  rw [expect, bind_of_ok (take?_of_not h)]

theorem discard_expect_of_not (h : cursor.sees pattern = false) :
    (discard (expect pattern)) cursor = expected (Cause.quote pattern) cursor := by
  rw [discard_eq_bind, bind_apply, expect_of_not h]
  rfl

theorem discard_expect_of_sees (h : cursor.sees pattern = true) :
    (discard (expect pattern)) cursor = .ok () (cursor.advance 1) := by
  obtain ⟨text, htext⟩ := Option.isSome_iff_exists.mp (Cursor.text?_isSome_of_sees h)
  rw [discard_eq_bind, expect, bind_assoc, bind_of_ok (take?_of_sees h), htext]
  rfl

theorem skipAll_of_seesAll {patterns : List String} (h : cursor.seesAll (pattern :: patterns) = true) :
    skipAll (pattern :: patterns) cursor = .ok true (cursor.advance (patterns.length + 1)) := by
  have htake : takeAll? (pattern :: patterns) cursor =
      .ok cursor.text? (cursor.advance (patterns.length + 1)) := by
    rw [takeAll?, h]
    rfl
  have hsees : cursor.sees pattern = true := by
    rw [Cursor.seesAll, Cursor.seesAllAt, Bool.and_eq_true] at h
    exact h.1
  rw [skipAll, map_of_ok htake, Cursor.text?_isSome_of_sees hsees]

theorem skipAll_of_not_seesAll {patterns : List String} (h : cursor.seesAll patterns = false) :
    skipAll patterns cursor = .ok false cursor := by
  have htake : takeAll? patterns cursor = .ok none cursor := by
    rw [takeAll?, h, Bool.not_false, Bool.or_true]
    rfl
  exact map_of_ok htake

theorem skipAll_of_not {patterns : List String} (h : cursor.sees pattern = false) :
    skipAll (pattern :: patterns) cursor = .ok false cursor :=
  skipAll_of_not_seesAll (Cursor.seesAll_eq_false h)

end Taking

/-- The rule finds nothing of its own at the cursor and leaves it there. -/
def Declines (rule : Rule (Option α)) (cursor : Cursor) : Prop :=
  rule cursor = .ok none cursor

section Declines

variable {rule : Rule (Option α)} {cursor : Cursor}

theorem Declines.attempt (h : rule.Declines cursor) : (attempt rule).Declines cursor := by
  have hmark : (mark : Rule Mark) cursor = .ok cursor.mark cursor := rfl
  unfold Declines Rule.attempt keepIf
  rw [bind_of_ok hmark, bind_of_ok h]
  rfl

theorem Declines.map (h : rule.Declines cursor) (change : α → β) :
    Declines (Option.map change <$> rule) cursor :=
  map_of_ok h

theorem Declines.firstOf_cons {rules : List (Rule (Option α))} (h : rule.Declines cursor) :
    Rule.firstOf (rule :: rules) cursor = Rule.firstOf rules cursor := by
  rw [Rule.firstOf, bind_of_ok h.attempt]

theorem Declines.repeatUpTo (h : rule.Declines cursor) (steps : Nat) :
    repeatUpTo steps rule cursor = .ok [] cursor := by
  cases steps with
  | zero => rfl
  | succ steps =>
    unfold Rule.repeatUpTo
    rw [bind_of_ok h]
    rfl

theorem Declines.many (h : rule.Declines cursor) : many rule cursor = .ok [] cursor :=
  h.repeatUpTo _

end Declines

end Rule

end SqlLayout
