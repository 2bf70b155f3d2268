import SqlLayout.Proofs.Cursor.Closed
import SqlLayout.Proofs.Cursor.Ensures

/-!
# Rules That Restore the Cursor

An alternative that finds nothing leaves the cursor where it was, with the comments that were handed out
before. Some rules see to that by going back, like the tried ones; the others have taken nothing by the
time they find nothing, and find something once they have.
-/

namespace SqlLayout.Rule

variable {α β : Type}

/-- A rule that gives something unless it fails. -/
def Finds (rule : Rule (Option α)) : Prop :=
  ∀ cursor after, rule cursor ≠ .ok none after

/-- A rule that has handed out no token and no comment when it finds nothing. -/
def Restores (rule : Rule (Option α)) : Prop :=
  ∀ cursor after, rule cursor = .ok none after → after.mark = cursor.mark

section Finds

theorem finds_some (value : α) : Finds (pure (some value)) := by
  intro cursor after hrun
  cases hrun

theorem finds_bind {rule : Rule β} {next : β → Rule (Option α)} (h : ∀ value, (next value).Finds) :
    (rule >>= next).Finds := by
  intro cursor after hrun
  rw [bind_apply] at hrun
  cases hfirst : rule cursor with
  | error failure middle =>
    rw [hfirst] at hrun
    cases hrun
  | ok value middle =>
    rw [hfirst] at hrun
    exact h value middle after hrun

theorem Finds.restores {rule : Rule (Option α)} (h : rule.Finds) : rule.Restores :=
  fun cursor after hrun => absurd hrun (h cursor after)

end Finds

section Restores

variable {rule yes no : Rule (Option α)}

theorem restores_none : Restores (pure none : Rule (Option α)) := by
  intro cursor after hrun
  cases hrun
  rfl

theorem restores_tooDeep : Restores (tooDeep : Rule (Option α)) := by
  intro cursor after hrun
  cases hrun

/-- Something that was found is not lost, and where nothing was found the rest has to restore. -/
theorem Restores.found {next : Option α → Rule (Option β)} (h : rule.Restores)
    (hsome : ∀ value, (next (some value)).Finds) (hnone : (next none).Restores) :
    (rule >>= next).Restores := by
  intro cursor after hrun
  rw [bind_apply] at hrun
  cases hfirst : rule cursor with
  | error failure middle =>
    rw [hfirst] at hrun
    cases hrun
  | ok value middle =>
    rw [hfirst] at hrun
    cases value with
    | some value => exact absurd hrun (hsome value middle after)
    | none =>
      calc after.mark
        _ = middle.mark := hnone middle after hrun
        _ = cursor.mark := h cursor middle hfirst

theorem Restores.map (h : rule.Restores) (change : α → β) : (Option.map change <$> rule).Restores := by
  rw [map_eq_bind]
  exact h.found (fun _ => finds_some _) restores_none

theorem restores_ask {question : Cursor → β} {next : β → Rule (Option α)}
    (h : ∀ answer, (next answer).Restores) : (ask question >>= next).Restores := by
  intro cursor after hrun
  rw [bind_of_ok (ask_apply question cursor)] at hrun
  exact h _ cursor after hrun

theorem Restores.ite {condition : Prop} [Decidable condition] (hyes : yes.Restores) (hno : no.Restores) :
    (if condition then yes else no).Restores := by
  split
  · exact hyes
  · exact hno

theorem Restores.skip (pattern : String) (hyes : yes.Finds) (hno : no.Restores) :
    (Rule.skip pattern >>= fun isThere => if isThere = true then yes else no).Restores := by
  intro cursor after hrun
  cases hsees : cursor.sees pattern with
  | true =>
    rw [bind_of_ok (skip_of_sees hsees)] at hrun
    exact absurd hrun (hyes _ after)
  | false =>
    rw [bind_of_ok (skip_of_not hsees)] at hrun
    exact hno cursor after hrun

/-- Words that match all at once or not at all. -/
theorem skipAll_cases (patterns : List String) (cursor : Cursor) :
    (∃ after, skipAll patterns cursor = .ok true after) ∨ skipAll patterns cursor = .ok false cursor := by
  cases patterns with
  | nil => exact .inr rfl
  | cons pattern patterns =>
    rw [skipAll_apply _ _ (List.cons_ne_nil _ _)]
    split
    · exact .inl ⟨_, rfl⟩
    · exact .inr rfl

theorem Restores.skipAll (patterns : List String) (hyes : yes.Finds) (hno : no.Restores) :
    (Rule.skipAll patterns >>= fun areThere => if areThere = true then yes else no).Restores := by
  intro cursor after hrun
  obtain ⟨middle, hskip⟩ | hskip := skipAll_cases patterns cursor
  · rw [bind_of_ok hskip] at hrun
    exact absurd hrun (hyes middle after)
  · rw [bind_of_ok hskip] at hrun
    exact hno cursor after hrun

theorem restores_takeIf (value : Token.Kind × String → Option α) : (takeIf value).Restores := by
  intro cursor after hrun
  rw [takeIf] at hrun
  split at hrun
  · cases hrun
  · cases hrun
    rfl

/-- Whatever a rule did, an attempt of it is undone. -/
theorem restores_attempt (rule : Rule (Option α)) : (attempt rule).Restores := by
  intro cursor after hrun
  rw [attempt_apply] at hrun
  cases hfirst : rule cursor with
  | error failure middle =>
    rw [hfirst] at hrun
    cases hrun
  | ok value middle =>
    rw [hfirst] at hrun
    cases value with
    | some value => cases hrun
    | none =>
      cases hrun
      rfl

theorem restores_firstOf (rules : List (Rule (Option α))) : (firstOf rules).Restores := by
  induction rules with
  | nil => exact restores_none
  | cons rule rules ih => exact (restores_attempt rule).found (fun _ => finds_some _) ih

/-- An outcome that is kept and replayed restores the cursor as the attempt did. -/
theorem restores_once (rule : Rule (Option Query)) : (once rule).Restores := by
  intro cursor after hrun
  rw [once_apply] at hrun
  cases hkept : cursor.outcome? with
  | some kept =>
    rw [hkept] at hrun
    cases kept with
    | some kept => cases hrun
    | none =>
      cases hrun
      rfl
  | none =>
    rw [hkept] at hrun
    cases hfirst : attempt rule cursor with
    | error failure middle =>
      rw [hfirst] at hrun
      cases hrun
    | ok value middle =>
      rw [hfirst] at hrun
      dsimp only at hrun
      have hkeeps : ∃ kept, keepOutcome cursor.pos value middle = .ok () kept ∧ kept.mark = middle.mark := by
        rw [keepOutcome]
        split
        · exact ⟨_, rfl, rfl⟩
        · exact ⟨_, rfl, rfl⟩
      obtain ⟨kept, hkeep, hmark⟩ := hkeeps
      rw [bind_of_ok hkeep] at hrun
      cases hrun
      exact hmark.trans (restores_attempt rule cursor middle hfirst)

theorem Restores.descend (h : rule.Restores) : (Rule.descend rule).Restores := by
  intro cursor after hrun
  rw [Rule.descend] at hrun
  split at hrun
  · cases hrun
  · cases hfirst : rule { cursor with depth := cursor.depth + 1 } with
    | error failure middle =>
      rw [hfirst] at hrun
      cases hrun
    | ok value middle =>
      rw [hfirst] at hrun
      cases hrun
      have hmark := h _ middle hfirst
      exact hmark

end Restores

end SqlLayout.Rule
