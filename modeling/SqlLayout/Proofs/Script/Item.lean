import SqlLayout.Proofs.Grammar.Built

/-!
# Items of a Script

A script is read item by item: semicolons may come before a statement, and one has to come after it unless
nothing does. The same is done for whatever rule stands for the statement.
-/

namespace SqlLayout.Grammar

open Rule Cursor

section Items

variable {α : Type}

def semicolon? : Rule (Option Unit) := do
  return if ← skip ";" then some () else none

/-- What stands after an item: a semicolon, or nothing. -/
def itemEnd (value : α) : Rule (Option α) := do
  if !(← skip ";") then
    if !(← ask (·.atEnd)) then
      return ← expected "\x60;\x60 or end of input"
  return some value

/-- The next item, with the semicolons before it and the one after it. -/
def itemOf (rule : Rule (Option α)) : Rule (Option α) := do
  discard <| many semicolon?
  if ← ask (·.atEnd) then return none
  else require "a statement" rule >>= itemEnd

theorem scriptItem?_eq (nested : Nested) : nested.scriptItem? = itemOf nested.statement? :=
  rfl

theorem isBuilt_semicolons : (many semicolon?).IsBuilt :=
  IsBuilt.many ((isBuilt_skip ";").bind fun _ => .pure _)

theorem isBuilt_atEnd : (ask (·.atEnd)).IsBuilt :=
  .ask isLook_atEnd

theorem isBuilt_itemEnd (value : α) : (itemEnd value).IsBuilt := by
  apply (isBuilt_skip ";").bind
  intro isClosed
  apply IsBuilt.ite _ (.pure _)
  apply (isBuilt_atEnd).bind
  intro isDone
  exact (IsBuilt.expected _).ite (.pure _)

section Ends

variable {value : α} {cursor : Cursor}

theorem itemEnd_of_sees (h : cursor.sees ";" = true) :
    itemEnd value cursor = .ok (some value) (cursor.advance 1) := by
  rw [itemEnd, bind_of_ok (skip_of_sees h)]
  rfl

theorem itemEnd_of_atEnd (h : cursor.sees ";" = false) (hend : cursor.atEnd = true) :
    itemEnd value cursor = .ok (some value) cursor := by
  rw [itemEnd, bind_of_ok (skip_of_not h)]
  simp only [Bool.not_false, if_true]
  rw [bind_of_ok (ask_apply _ _), hend]
  rfl

/-- An item is followed by a semicolon, which is taken, or by the end. -/
theorem itemEnd_of_ok {found : Option α} {after : Cursor} (h : itemEnd value cursor = .ok found after) :
    found = some value ∧
      ((cursor.sees ";" = true ∧ after = cursor.advance 1) ∨
        (cursor.sees ";" = false ∧ cursor.atEnd = true ∧ after = cursor)) := by
  cases hsees : cursor.sees ";" with
  | true =>
    rw [itemEnd_of_sees hsees] at h
    cases h
    exact ⟨rfl, .inl ⟨rfl, rfl⟩⟩
  | false =>
    cases hend : cursor.atEnd with
    | true =>
      rw [itemEnd_of_atEnd hsees hend] at h
      cases h
      exact ⟨rfl, .inr ⟨rfl, rfl, rfl⟩⟩
    | false =>
      rw [itemEnd, bind_of_ok (skip_of_not hsees)] at h
      simp only [Bool.not_false, if_true] at h
      rw [bind_of_ok (ask_apply _ _), hend] at h
      cases h

end Ends

end Items

end SqlLayout.Grammar
