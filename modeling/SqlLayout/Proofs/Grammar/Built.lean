import SqlLayout.Proofs.Grammar.Closed

/-!
# The Grammar Is Built from Looking and Taking

Being built is a closed property. So each rule up to the statements is put together from looking at tokens
and taking them, and whatever holds of every built rule holds of the grammar; only the comments, which are
handed out at the end of a statement, are left to the rules for scripts.
-/

namespace SqlLayout

namespace Rule

/-- To take a token with a value is to look at it and to go on by one. -/
theorem takeIf_eq {α : Type} (value : Token.Kind × String → Option α) :
    takeIf value = (ask (fun cursor => (cursor.look? 0).bind value) >>= fun found =>
      match found with
      | some found => do
        (fun cursor => .ok () (cursor.advance 1) : Rule Unit)
        return some found
      | none => return none) := by
  funext cursor
  rw [bind_of_ok (ask_apply _ _), takeIf]
  cases (cursor.look? 0).bind value <;> rfl

theorem isBuilt_takeIf {α : Type} (value : Token.Kind × String → Option α) : (takeIf value).IsBuilt := by
  rw [takeIf_eq]
  apply (IsBuilt.ask ((Cursor.isLook_look? 0).comp (Option.bind · value))).bind
  intro found
  cases found with
  | none => exact .pure none
  | some found => exact (IsBuilt.advance 1).bind fun _ => .pure _

/-- Being built asks nothing of the values, and nothing of the questions but that they look at tokens. -/
theorem isClosed_isBuilt : IsClosed fun _ rule => rule.IsBuilt where
  weaken h _ := h
  pure _ := .pure _
  bind h hnext _ := h.bind hnext
  expected := .expected
  tooDeep := .tooDeep
  ask hlook _ := .ask hlook
  take? pattern _ := isBuilt_take? pattern
  takeAll? patterns _ := isBuilt_takeAll? patterns
  takeIf _ := isBuilt_takeIf _
  takeJoined? := isBuilt_takeJoined?
  slash hyes hno _ := (isBuilt_skip "/").bind fun _ => hyes.ite hno
  ahead pattern _ hyes hno := (IsBuilt.ask (Cursor.isLook_seesAt 1 pattern)).bind fun _ => hyes.ite hno
  attempt := .attempt
  descend := .descend
  once := .once
  many := .many
  steps h _ := (IsBuilt.ask (Cursor.isLook_remaining.comp (· + 1))).bind h

end Rule

namespace Grammar.Nested

/-- Nested rules that are built. -/
structure IsBuilt (nested : Nested) : Prop where
  expr? : nested.expr?.IsBuilt
  notOperand : nested.notOperand.IsBuilt
  signOperand : nested.signOperand.IsBuilt
  query? : nested.query?.IsBuilt
  type? : nested.type?.IsBuilt
  fields : nested.fields.IsBuilt

theorem IsBuilt.action? {nested : Nested} (h : nested.IsBuilt) : nested.action?.IsBuilt := by
  have hsatisfies : nested.Satisfies fun _ rule => rule.IsBuilt :=
    ⟨h.expr?, h.notOperand, h.signOperand, h.query?, h.type?, h.fields⟩
  exact hsatisfies.action? Rule.isClosed_isBuilt

theorem isBuilt_nestedAt (levels : Nat) : (nestedAt levels).IsBuilt := by
  have hsatisfies := satisfies_nestedAt Rule.isClosed_isBuilt levels
  exact ⟨hsatisfies.expr?, hsatisfies.notOperand, hsatisfies.signOperand, hsatisfies.query?, hsatisfies.type?,
    hsatisfies.fields⟩

end Grammar.Nested

end SqlLayout
