import SqlLayout.Proofs.Grammar.Replay
import SqlLayout.Proofs.Script.Item
import SqlLayout.Proofs.Token.Stream

/-!
# Comments of a Script

Built rules hand out no comments, so only the ends of statements and the end of the script do. What has
been handed out is at any time a beginning of the list of comments, and a script is read to its last
token, where all of them have been.
-/

namespace SqlLayout

namespace Cursor

/-- The comments handed out so far. -/
def handedOut (cursor : Cursor) : List String :=
  (cursor.comments.toList.take cursor.drained).map Comment.text

/-- A later place of the same stream, up to which some more comments have been handed out. -/
structure HandsOver (later earlier : Cursor) (texts : List String) : Prop where
  tokens_eq : later.tokens = earlier.tokens
  comments_eq : later.comments = earlier.comments
  plain : later.forgetful = later
  pos_le : earlier.pos ≤ later.pos
  handedOut_eq : later.handedOut = earlier.handedOut ++ texts

theorem HandsOver.refl {cursor : Cursor} (h : cursor.forgetful = cursor) : cursor.HandsOver cursor [] :=
  ⟨rfl, rfl, h, Nat.le_refl _, by simp⟩

theorem HandsOver.trans {first second third : Cursor} {texts others : List String}
    (h : second.HandsOver first texts) (hnext : third.HandsOver second others) :
    third.HandsOver first (texts ++ others) where
  tokens_eq := hnext.tokens_eq.trans h.tokens_eq
  comments_eq := hnext.comments_eq.trans h.comments_eq
  plain := hnext.plain
  pos_le := Nat.le_trans h.pos_le hnext.pos_le
  handedOut_eq := by rw [hnext.handedOut_eq, h.handedOut_eq, List.append_assoc]

theorem HandsOver.moveTo {cursor : Cursor} (h : cursor.forgetful = cursor) {pos : Nat}
    (hpos : cursor.pos ≤ pos) : (cursor.moveTo pos).HandsOver cursor [] :=
  ⟨rfl, rfl, congrArg (Cursor.moveTo · pos) h, hpos, by simp [handedOut, Cursor.moveTo]⟩

/-- At the end no comment is left. -/
theorem handedOut_comments {cursor : Cursor}
    (h : ∀ comment ∈ cursor.comments.toList, comment.before ≤ cursor.pos) :
    handedOut { cursor with drained := cursor.drained + cursor.pending.length } =
      cursor.comments.toList.map Comment.text := by
  have hpending : cursor.pending = cursor.comments.toList.drop cursor.drained := by
    rw [pending, List.takeWhile_eq_self_iff]
    intro comment hcomment
    simpa using h comment (List.mem_of_mem_drop hcomment)
  rw [handedOut, hpending, List.take_of_length_le]
  simp
  omega

end Cursor

namespace Rule

open Cursor

variable {α β : Type}

/-- Whatever a rule gives, the comments in it are the ones handed out on the way. -/
def Delivers (rule : Rule α) (texts : α → List String) : Prop :=
  ∀ cursor, cursor.forgetful = cursor → ∀ value after, rule cursor = .ok value after →
    after.HandsOver cursor (texts value)

theorem IsBuilt.handsOver {rule : Rule α} (h : rule.IsBuilt) {cursor after : Cursor} {value : α}
    (hplain : cursor.forgetful = cursor) (hrun : rule cursor = .ok value after) :
    after.HandsOver cursor [] := by
  cases h.runsAlike (.refl cursor) hplain hplain with
  | gives found pos hpos hfound =>
    rw [hfound] at hrun
    cases hrun
    exact .moveTo hplain hpos
  | fails cause index last last' hfails =>
    rw [hfails] at hrun
    cases hrun

theorem comments_delivers : comments.Delivers id := by
  intro cursor hplain texts after hrun
  cases hrun
  refine ⟨rfl, rfl, ?_, Nat.le_refl _, ?_⟩
  · exact congrArg (fun plain : Cursor =>
      { plain with drained := cursor.drained + cursor.pending.length }) hplain
  · have htake : (cursor.comments.toList.drop cursor.drained).take cursor.pending.length =
        cursor.pending :=
      List.prefix_iff_eq_take.mp (List.takeWhile_prefix _) |>.symm
    rw [handedOut, List.take_add, htake, List.map_append]
    rfl

/-- A built rule first. -/
theorem IsBuilt.bind_delivers {rule : Rule α} {next : α → Rule β} {texts : β → List String}
    (h : rule.IsBuilt) (hnext : ∀ value, (next value).Delivers texts) :
    (rule >>= next).Delivers texts := by
  intro cursor hplain value after hrun
  rw [bind_apply] at hrun
  cases hfirst : rule cursor with
  | error failure last =>
    rw [hfirst] at hrun
    cases hrun
  | ok found last =>
    rw [hfirst] at hrun
    have hfound := h.handsOver hplain hfirst
    exact hfound.trans (hnext found last hfound.plain value after hrun)

/-- A built rule afterwards that keeps the comments as they are. -/
theorem Delivers.bind_built {rule : Rule α} {next : α → Rule β} {texts : α → List String}
    {others : β → List String} (h : rule.Delivers texts) (hnext : ∀ value, (next value).IsBuilt)
    (hkeeps : ∀ value cursor last after, next value cursor = .ok last after →
      others last = texts value) : (rule >>= next).Delivers others := by
  intro cursor hplain value after hrun
  rw [bind_apply] at hrun
  cases hfirst : rule cursor with
  | error failure last =>
    rw [hfirst] at hrun
    cases hrun
  | ok found last =>
    rw [hfirst] at hrun
    have hfound := h cursor hplain found last hfirst
    have hlast := hfound.trans ((hnext found).handsOver hfound.plain hrun)
    rw [List.append_nil, ← hkeeps found last value after hrun] at hlast
    exact hlast

theorem Delivers.repeatUpTo {rule : Rule (Option α)} {texts : α → List String}
    (h : rule.Delivers fun value => value.toList.flatMap texts) (steps : Nat) :
    (repeatUpTo steps rule).Delivers fun values => values.flatMap texts := by
  induction steps with
  | zero =>
    intro cursor hplain values after hrun
    cases hrun
    exact .refl hplain
  | succ steps ih =>
    intro cursor hplain values after hrun
    rw [Rule.repeatUpTo, bind_apply] at hrun
    cases hfirst : rule cursor with
    | error failure last =>
      rw [hfirst] at hrun
      cases hrun
    | ok found last =>
      rw [hfirst] at hrun
      have hfound := h cursor hplain found last hfirst
      cases found with
      | none =>
        cases hrun
        exact hfound
      | some found =>
        dsimp only at hrun
        rw [bind_apply] at hrun
        cases hrest : Rule.repeatUpTo steps rule last with
        | error failure last =>
          rw [hrest] at hrun
          cases hrun
        | ok rest final =>
          rw [hrest] at hrun
          cases hrun
          have hvalues := hfound.trans (ih last hfound.plain rest after hrest)
          simpa using hvalues

end Rule

namespace Grammar

open Rule Cursor

variable {nested : Nested}

theorem statement?_delivers (h : nested.IsBuilt) :
    nested.statement?.Delivers fun value => value.toList.flatMap Statement.comments := by
  apply h.action?.bind_delivers
  intro action
  cases action with
  | none =>
    intro cursor hplain value after hrun
    cases hrun
    exact .refl hplain
  | some action =>
    apply comments_delivers.bind_built fun _ => .pure _
    intro texts cursor last after hrun
    cases hrun
    simp

section Items

variable {α : Type} {rule : Rule (Option α)} {texts : α → List String} {cursor after : Cursor}

theorem require_delivers (what : String) (h : rule.Delivers fun value => value.toList.flatMap texts) :
    (require what rule).Delivers texts := by
  apply h.bind_built
  · intro value
    cases value with
    | none => exact .expected _
    | some value => exact .pure value
  · intro value cursor last after hrun
    cases value with
    | none => cases hrun
    | some value =>
      cases hrun
      simp

theorem itemOf_delivers (h : rule.Delivers fun value => value.toList.flatMap texts) :
    (itemOf rule).Delivers fun value => value.toList.flatMap texts := by
  rw [itemOf]
  apply (isBuilt_semicolons).discard.bind_delivers
  intro _
  apply (isBuilt_atEnd).bind_delivers
  intro isDone
  cases isDone with
  | true =>
    intro cursor hplain value after hrun
    cases hrun
    exact .refl hplain
  | false =>
    apply (require_delivers _ h).bind_built isBuilt_itemEnd
    intro value cursor last after hrun
    obtain ⟨rfl, -⟩ := itemEnd_of_ok hrun
    simp

/-- An item takes something; without one the script is at its end. -/
theorem itemOf_progress (h : rule.Delivers fun value => value.toList.flatMap texts) {value : Option α}
    (hplain : cursor.forgetful = cursor) (hrun : itemOf rule cursor = .ok value after) :
    (value = none → after.atEnd = true) ∧ (value.isSome → after.remaining < cursor.remaining) := by
  rw [itemOf, bind_apply] at hrun
  cases hsemicolons : Functor.discard (many semicolon?) cursor with
  | error failure last =>
    rw [hsemicolons] at hrun
    cases hrun
  | ok _ start =>
    have hstart := (isBuilt_semicolons).discard.handsOver hplain hsemicolons
    rw [hsemicolons] at hrun
    dsimp only at hrun
    rw [bind_of_ok (ask_apply _ _)] at hrun
    cases hend : start.atEnd with
    | true =>
      rw [hend] at hrun
      cases hrun
      exact ⟨fun _ => hend, by simp⟩
    | false =>
      rw [hend, if_neg (by simp), bind_apply] at hrun
      cases hstatement : require "a statement" rule start with
      | error failure last =>
        rw [hstatement] at hrun
        cases hrun
      | ok statement last =>
        have hlast := hstart.trans (require_delivers _ h start hstart.plain statement last hstatement)
        rw [hstatement] at hrun
        obtain ⟨rfl, hafter⟩ := itemEnd_of_ok hrun
        refine ⟨by simp, fun _ => ?_⟩
        -- The item started before the end, and the cursor is past its start or at the end now.
        have hstartPos := hstart.pos_le
        have hlastPos := hlast.pos_le
        have hsize := hlast.tokens_eq
        have hsize' := hstart.tokens_eq
        simp only [atEnd, decide_eq_false_iff_not, hsize'] at hend
        rcases hafter with ⟨-, rfl⟩ | ⟨-, hdone, rfl⟩
        · simp only [remaining, advance, hsize]
          omega
        · simp only [atEnd, decide_eq_true_eq, hsize] at hdone
          simp only [remaining, hsize]
          omega

/-- The items go on to the end. -/
theorem repeatUpTo_itemOf_atEnd (h : rule.Delivers fun value => value.toList.flatMap texts) {steps : Nat}
    {values : List α} (hplain : cursor.forgetful = cursor) (hsteps : cursor.remaining < steps)
    (hrun : repeatUpTo steps (itemOf rule) cursor = .ok values after) : after.atEnd = true := by
  induction steps generalizing cursor values with
  | zero => omega
  | succ steps ih =>
    rw [repeatUpTo, bind_apply] at hrun
    cases hitem : itemOf rule cursor with
    | error failure last =>
      rw [hitem] at hrun
      cases hrun
    | ok value last =>
      have hlast := itemOf_delivers h cursor hplain value last hitem
      obtain ⟨hnone, hsome⟩ := itemOf_progress h hplain hitem
      rw [hitem] at hrun
      cases value with
      | none =>
        cases hrun
        exact hnone rfl
      | some value =>
        dsimp only at hrun
        rw [bind_apply] at hrun
        cases hrest : repeatUpTo steps (itemOf rule) last with
        | error failure last =>
          rw [hrest] at hrun
          cases hrun
        | ok rest _ =>
          rw [hrest] at hrun
          cases hrun
          have hless := hsome rfl
          exact ih hlast.plain (by omega) hrest

end Items

theorem script_atEnd (h : nested.IsBuilt) {cursor after : Cursor} {script : Script}
    (hplain : cursor.forgetful = cursor) (hrun : nested.script cursor = .ok script after) :
    after.atEnd = true := by
  rw [Nested.script, scriptItem?_eq, bind_apply] at hrun
  cases hitems : many (itemOf nested.statement?) cursor with
  | error failure last =>
    rw [hitems] at hrun
    cases hrun
  | ok statements last =>
    have hend := repeatUpTo_itemOf_atEnd (statement?_delivers h) hplain (Nat.lt_succ_self _) hitems
    rw [hitems] at hrun
    cases hrun
    exact hend

/-- A script hands out every comment. -/
theorem script_delivers (h : nested.IsBuilt) {cursor after : Cursor} {script : Script}
    (hplain : cursor.forgetful = cursor)
    (hbefore : ∀ comment ∈ cursor.comments.toList, comment.before ≤ cursor.tokens.size)
    (hrun : nested.script cursor = .ok script after) :
    cursor.handedOut ++ script.comments = cursor.comments.toList.map Comment.text := by
  rw [Nested.script, scriptItem?_eq, bind_apply] at hrun
  cases hitems : many (itemOf nested.statement?) cursor with
  | error failure last =>
    rw [hitems] at hrun
    cases hrun
  | ok statements last =>
    have hlast := (itemOf_delivers (statement?_delivers h)).repeatUpTo _ cursor hplain statements last hitems
    have hend := repeatUpTo_itemOf_atEnd (statement?_delivers h) hplain (Nat.lt_succ_self _) hitems
    simp only [atEnd, decide_eq_true_eq, hlast.tokens_eq] at hend
    rw [hitems] at hrun
    cases hrun
    have hdrained := @handedOut_comments last fun comment hcomment => by
      rw [hlast.comments_eq] at hcomment
      exact Nat.le_trans (hbefore comment hcomment) hend
    rw [← hlast.comments_eq, ← hdrained]
    have hall := hlast.trans (comments_delivers last hlast.plain _ _ rfl)
    rw [hall.handedOut_eq]
    rfl

end Grammar

/-- The comments of a script are those of its source, each once and in their order, without the blanks
at their ends. -/
theorem Script.comments_of_ofSource {source : String} {script : Script}
    (h : Script.ofSource source = .ok script) :
    script.comments = ((Token.lex source).filter fun token => token.kind.isComment).map
      fun token => Text.trimEnd token.text := by
  rw [Script.ofSource, Grammar.runOn_eq_runAfreshOn (Grammar.isTame_atDepth Grammar.isTame_script)] at h
  obtain ⟨stream, after, hstream, hrun⟩ := Grammar.exists_run_of_runAfreshOn h
  obtain ⟨rfl, -⟩ := TokenStream.eq_sort_of_ofSource hstream
  have hcomments := Grammar.script_delivers (Grammar.Nested.isBuilt_nestedAt _) rfl ?_ hrun
  · rw [← TokenStream.sort_comments_text 0]
    simpa [Cursor.handedOut, Cursor.forgetful, Cursor.ofStream] using hcomments
  · intro comment hcomment
    have hmem : comment ∈ (TokenStream.sort 0 (Token.lex source)).comments := by
      simpa [Cursor.forgetful, Cursor.ofStream] using hcomment
    simpa [Cursor.forgetful, Cursor.ofStream] using TokenStream.before_le_of_mem_sort hmem

end SqlLayout
