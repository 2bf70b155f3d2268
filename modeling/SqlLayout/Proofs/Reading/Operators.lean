import SqlLayout.Proofs.Reading.Loop

/-!
# Operators Are Read Back

From the signs up to `OR`, each level reads what the spelling of an expression of that level is the
spelling of. An expression grows from its first operand, by induction on the expression: whatever is
attached to the operand on its left is read by one step of the loop of its level.
-/

namespace SqlLayout

open Rule

/-- The pattern of the first token of an operator. -/
def BinaryOp.start : BinaryOp → String
  | .notLike => "NOT"
  | .shiftRight => ">"
  | op => op.text

/-- Where an expression is spelled and ends, the rule reads it. -/
def Rule.ReadsBack (rule : Rule (Option Expr)) (levels level : Nat) (expr : Expr) : Prop :=
  ∀ cursor after, cursor.IsReady levels → cursor.Spells expr.spelling after → after.Ends level →
    rule cursor = .ok (some expr) after

theorem Cursor.HasNext.sees_of {cursor : Cursor} {glyph : Glyph} (h : cursor.HasNext glyph)
    {pattern : String} (hfits : fits pattern { kind := glyph.kind, text := glyph.text, start := 0 } = true) :
    cursor.sees pattern = true :=
  (h.sees pattern).trans hfits

theorem Cursor.HasNext.skip {cursor : Cursor} {glyph : Glyph} (h : cursor.HasNext glyph)
    {pattern : String} (hfits : fits pattern { kind := glyph.kind, text := glyph.text, start := 0 } = true) :
    Rule.skip pattern cursor = .ok true (cursor.advance 1) :=
  skip_of_sees (h.sees_of hfits)

namespace Cursor

/-- The patterns an expression can start with, and the highest level that starts so. -/
def openers : List (String × Nat) :=
  [("NOT", 3), ("-", 11), ("+", 11), ("~", 11), ("(", 12)]

/-- An expression of a level can start at the cursor: with a number, a word that is not reserved, a sign
or a parenthesis. -/
def Opens (cursor : Cursor) (level : Nat) : Prop :=
  ∃ token, cursor.token? 0 = some token ∧
    (token.kind = .number ∨ (token.kind = .word ∧ Keyword.isReserved token.text = false) ∨
      ∃ opener ∈ openers, level ≤ opener.2 ∧ fits opener.1 token = true)

namespace Opens

variable {cursor : Cursor} {level : Nat} (h : cursor.Opens level)

include h

theorem mono {lower : Nat} (hle : lower ≤ level) : cursor.Opens lower := by
  obtain ⟨token, htoken, hclass⟩ := h
  refine ⟨token, htoken, hclass.imp_right (Or.imp_right ?_)⟩
  rintro ⟨opener, hmem, hlevel, hfits⟩
  exact ⟨opener, hmem, hle.trans hlevel, hfits⟩

/-- A reserved word or a symbol that starts no expression of the level is not what is next. -/
theorem sees_eq_false {pattern : String}
    (hpattern : isWordPattern pattern = false ∨ Keyword.isReserved pattern = true)
    (hopeners : ∀ opener ∈ openers, level ≤ opener.2 → excludes opener.1 pattern = true) :
    cursor.sees pattern = false := by
  obtain ⟨token, htoken, hclass⟩ := h
  have hsees : cursor.sees pattern = fits pattern token := by
    simp only [sees, seesAt, htoken]
  rw [hsees]
  rcases hclass with hnumber | ⟨hword, hreserved⟩ | ⟨opener, hmem, hlevel, hfits⟩
  · unfold fits
    split <;> simp [hnumber, Token.Kind.isSymbol]
  · unfold fits
    rcases hpattern with hsymbol | hpattern
    · rw [if_neg (by simp [hsymbol]), hword]
      rfl
    · split
      · by_contra hfits
        simp only [Bool.not_eq_false, Bool.and_eq_true] at hfits
        have hsame := Keyword.isReserved_congr hfits.2
        rw [hreserved, hpattern] at hsame
        cases hsame
      · rw [hword]
        rfl
  · exact fits_eq_false hfits (hopeners opener hmem hlevel)

theorem sees_angle : cursor.sees ">" = false := by
  have hexcludes : ∀ opener ∈ openers, excludes opener.1 ">" = true := by decide
  exact h.sees_eq_false (by decide) fun opener hmem _ => hexcludes opener hmem

end Opens

end Cursor

namespace Grammar

variable {cursor middle after : Cursor} {levels level : Nat} {good : Expr → Prop} {nested : Nested}

section Binary

theorem opOf?_declines_of_sees {ops : List (String × BinaryOp)} {pattern : String}
    (h : cursor.sees pattern = true) (hops : ∀ op ∈ ops, Cursor.excludes pattern op.1 = true) :
    (opOf? ops).Declines cursor :=
  opOf?_declines fun op hop => Cursor.sees_eq_false h (hops op hop)

/-- The operator whose spelling is next, if no other one is spelled the same. -/
theorem opOf?_of_sees {ops : List (String × BinaryOp)} {op : String × BinaryOp} (hmem : op ∈ ops)
    (h : cursor.sees op.1 = true)
    (hops : ∀ other ∈ ops, other = op ∨ Cursor.excludes op.1 other.1 = true) :
    opOf? ops cursor = .ok (some op.2) (cursor.advance 1) := by
  induction ops with
  | nil => cases hmem
  | cons first ops ih =>
    unfold opOf?
    rcases hops first List.mem_cons_self with rfl | hexcludes
    · rw [bind_of_ok (skip_of_sees h)]
      rfl
    · rw [bind_of_ok (skip_of_not (Cursor.sees_eq_false h hexcludes))]
      have hrest : op ∈ ops := by
        rcases List.mem_cons.mp hmem with rfl | hrest
        · have hself := Cursor.sees_eq_false h hexcludes
          rw [h] at hself
          cases hself
        · exact hrest
      exact ih hrest fun other hother => hops other (List.mem_cons_of_mem first hother)

theorem sees_start {op : BinaryOp} (h : cursor.Spells op.spelling middle) :
    cursor.sees op.start = true := by
  cases op <;> exact h.1.sees_of (by decide)

/-- All operators but two are spelled by one token. -/
theorem advance_of_spells {op : BinaryOp} (hop : op.start = op.text)
    (h : cursor.Spells op.spelling middle) : middle = cursor.advance 1 := by
  cases op with
  | notLike | shiftRight => exact absurd hop (by decide)
  | _ => exact h.2

/-- An operator ends the operand on its left. -/
theorem ends_of_operator {op : BinaryOp} (h : cursor.Spells op.spelling middle)
    (hangle : middle.sees ">" = false) : cursor.Ends (op.level + 1) := by
  apply Cursor.ends_of_sees (sees_start h)
  · cases op <;> decide
  · intro hlevel
    by_cases hop : op = .gt
    · subst hop
      obtain ⟨-, rfl⟩ := h
      have hsecond : cursor.seesAt 1 ">" = false := hangle
      simp [Cursor.seesJoined, Cursor.seesAll, Cursor.seesAllAt, hsecond]
    · apply Cursor.seesJoined_of_not (Cursor.sees_eq_false (sees_start h) _)
      cases op <;> first | exact absurd rfl hop | exact absurd hlevel (by decide) | decide

/-- The operators of a level, each by a token of its own. -/
structure AreOpsOf (ops : List (String × BinaryOp)) (level : Nat) : Prop where
  mem : ∀ op : BinaryOp, op.level = level → op.start = op.text ∧ (op.text, op) ∈ ops
  excludes : ∀ op ∈ ops, ∀ other ∈ ops, other = op ∨ Cursor.excludes op.1 other.1 = true
  attachments : ∀ op ∈ ops, (op.1, level) ∈ Cursor.attachments

namespace AreOpsOf

variable {ops : List (String × BinaryOp)} (h : AreOpsOf ops level)

include h

theorem reads {op : BinaryOp} (hlevel : op.level = level) (hspells : cursor.Spells op.spelling middle) :
    opOf? ops cursor = .ok (some op) middle := by
  obtain ⟨hstart, hmem⟩ := h.mem op hlevel
  have hsees := sees_start hspells
  rw [hstart] at hsees
  rw [advance_of_spells hstart hspells]
  exact opOf?_of_sees hmem hsees (h.excludes _ hmem)

theorem declines (hends : cursor.Ends level) : (opOf? ops).Declines cursor :=
  opOf?_declines fun op hop => hends.sees _ (h.attachments op hop) (Nat.le_refl level)

end AreOpsOf

end Binary

def operate (left : Expr) : BinaryOp × Expr → Expr
  | (op, right) => .binary op left right

/-- Expressions whose operands are of the same kind and bind tightly enough, and that start with a token
that can start them. -/
structure HasOperands (good : Expr → Prop) : Prop where
  binary : ∀ op left right, good (.binary op left right) →
    (good left ∧ op.level ≤ left.level) ∧ good right ∧ op.level < right.level
  between : ∀ operand isNegated low high, good (.between operand isNegated low high) →
    (good operand ∧ 4 ≤ operand.level) ∧ (good low ∧ 5 ≤ low.level) ∧ good high ∧ 5 ≤ high.level
  isValue : ∀ operand isNegated value, good (.isValue operand isNegated value) →
    good operand ∧ 4 ≤ operand.level
  member : ∀ operand isNegated target, good (.member operand isNegated target) →
    good operand ∧ 4 ≤ operand.level
  opens : ∀ (expr : Expr) (cursor after : Cursor), good expr → cursor.Spells expr.spelling after →
    cursor.Opens expr.level ∧ after.remaining < cursor.remaining

namespace HasOperands

variable (h : HasOperands good)

include h

theorem sees_angle {expr : Expr} (hgood : good expr) (hspells : cursor.Spells expr.spelling after) :
    cursor.sees ">" = false :=
  (h.opens expr cursor after hgood hspells).1.sees_angle

theorem remaining_lt {expr : Expr} (hgood : good expr) (hspells : cursor.Spells expr.spelling after) :
    after.remaining < cursor.remaining :=
  (h.opens expr cursor after hgood hspells).2

/-- Operators of one level, by induction on what is spelled. -/
theorem grows_leftAssoc {operand? : Rule (Option Expr)} {op? : Rule (Option BinaryOp)}
    (hoperand : ∀ expr, good expr → level < expr.level → operand?.ReadsBack levels (level + 1) expr)
    (hop : ∀ op : BinaryOp, op.level = level → ∀ cursor middle, cursor.Spells op.spelling middle →
      op? cursor = .ok (some op) middle)
    (hbinary : ∀ expr : Expr, expr.level = level → ∃ op left right, expr = .binary op left right)
    (expr : Expr) (hgood : good expr) (hlevel : level ≤ expr.level) {cursor after : Cursor}
    (hready : cursor.IsReady levels) (hspells : cursor.Spells expr.spelling after)
    (hends : after.Ends (level + 1)) :
    Grows operand? (operation? operand? op?) operate cursor expr after := by
  by_cases hhigher : level < expr.level
  · exact .start (hoperand expr hgood hhigher cursor after hready hspells hends)
  · obtain ⟨op, left, right, rfl⟩ := hbinary expr (by omega)
    have hopLevel : op.level = level := Nat.le_antisymm (Nat.not_lt.mp hhigher) hlevel
    obtain ⟨⟨hleft, hleftLevel⟩, hright, hrightLevel⟩ := h.binary op left right hgood
    rw [hopLevel] at hleftLevel hrightLevel
    obtain ⟨first, second, hspellsLeft, hspellsOp, hspellsRight⟩ := Cursor.spells_infix.mp hspells
    have hendsLeft : first.Ends (level + 1) := by
      rw [← hopLevel]
      exact ends_of_operator hspellsOp (h.sees_angle hright hspellsRight)
    have hgrows := grows_leftAssoc hoperand hop hbinary left hleft hleftLevel hready hspellsLeft hendsLeft
    have hreadyRight := (hready.later hspellsLeft).later hspellsOp
    have hrightRun := hoperand right hright hrightLevel second after hreadyRight hspellsRight hends
    have hrun : operation? operand? op? first = .ok (some (op, right)) after := by
      refine (bind_of_ok (hop op hopLevel first second hspellsOp)).trans ?_
      exact bind_of_ok (require_of_ok hrightRun _)
    exact hgrows.more hrun (Nat.lt_of_lt_of_le (h.remaining_lt hright hspellsRight) hspellsOp.remaining_le)
termination_by sizeOf expr

theorem readsBack_leftAssoc {operand? : Rule (Option Expr)} {op? : Rule (Option BinaryOp)}
    (hoperand : ∀ expr, good expr → level < expr.level → operand?.ReadsBack levels (level + 1) expr)
    (hop : ∀ op : BinaryOp, op.level = level → ∀ cursor middle, cursor.Spells op.spelling middle →
      op? cursor = .ok (some op) middle)
    (hbinary : ∀ expr : Expr, expr.level = level → ∃ op left right, expr = .binary op left right)
    (hend : ∀ cursor : Cursor, cursor.Ends level → op?.Declines cursor) (expr : Expr)
    (hgood : good expr) (hlevel : level ≤ expr.level) :
    (leftAssoc operand? op?).ReadsBack levels level expr := by
  intro cursor after hready hspells hends
  have hgrows := h.grows_leftAssoc hoperand hop hbinary expr hgood hlevel hready hspells
    (hends.mono (Nat.le_succ level))
  have hdeclines : (operation? operand? op?).Declines after := bind_of_ok (hend after hends)
  obtain ⟨start, middle, pieces, hstart, hpieces, rfl⟩ := hgrows.stop hdeclines
  unfold leftAssoc
  rw [bind_of_ok hstart]
  exact bind_of_ok hpieces

end HasOperands

end Grammar

end SqlLayout
