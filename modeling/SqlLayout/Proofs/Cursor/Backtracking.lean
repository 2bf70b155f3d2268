import SqlLayout.Proofs.Cursor.Procedure

/-!
# Backtracking

Saving the place of a cursor and going back to it undoes whatever was done in between, as long as no
outcomes are kept on the way: a procedure that keeps nothing moves the cursor and hands out comments, and
changes nothing else. Even a failure in the midst of alternatives and deeper rules leaves the cursor as deep
as it was. All the while the cursor stays within its tokens, its comments and the depth allowed.
-/

namespace SqlLayout

namespace Cursor

/-- The cursor stands at a token or at the end, has handed out comments that are there, and is not too
deep. -/
structure InBounds (cursor : Cursor) : Prop where
  pos_le : cursor.pos ≤ cursor.tokens.size
  drained_le : cursor.drained ≤ cursor.comments.size
  depth_le : cursor.depth ≤ maxDepth

/-- The place is one of this cursor's stream. -/
structure HasPlace (cursor : Cursor) (mark : Mark) : Prop where
  pos_le : mark.pos ≤ cursor.tokens.size
  drained_le : mark.drained ≤ cursor.comments.size

/-- The cursor is in the stream of another one, and within its bounds. -/
structure StaysIn (start cursor : Cursor) : Prop extends start.SharesStream cursor, cursor.InBounds

/-- The same cursor at another place, with more or fewer comments handed out. -/
def IsMovedFrom (after cursor : Cursor) : Prop :=
  after.reset cursor.mark = cursor

theorem inBounds_ofStream (size : Nat) (stream : TokenStream) : (ofStream size stream).InBounds :=
  ⟨Nat.zero_le _, Nat.zero_le _, Nat.zero_le _⟩

theorem length_pending_le (cursor : Cursor) :
    cursor.pending.length ≤ cursor.comments.size - cursor.drained := by
  have hlength : cursor.pending.length ≤ (cursor.comments.toList.drop cursor.drained).length :=
    (List.takeWhile_sublist _).length_le
  rwa [List.length_drop, Array.length_toList] at hlength

namespace StaysIn

variable {start cursor : Cursor}

theorem refl (h : cursor.InBounds) : cursor.StaysIn cursor :=
  ⟨.refl cursor, h⟩

theorem hasPlace_mark (h : start.StaysIn cursor) : start.HasPlace cursor.mark :=
  ⟨h.tokens_eq ▸ h.pos_le, h.comments_eq ▸ h.drained_le⟩

theorem reset (h : start.StaysIn cursor) {mark : Mark} (hmark : start.HasPlace mark) :
    start.StaysIn (cursor.reset mark) :=
  ⟨h.toSharesStream.moved _ _ _ _, h.tokens_eq ▸ hmark.pos_le, h.comments_eq ▸ hmark.drained_le, h.depth_le⟩

theorem advance (h : start.StaysIn cursor) {count : Nat} (hcount : count ≤ cursor.remaining) :
    start.StaysIn (cursor.advance count) := by
  have hpos : cursor.pos + count ≤ cursor.tokens.size := by
    have hle := h.pos_le
    rw [remaining] at hcount
    omega
  exact ⟨h.toSharesStream.moved _ _ _ _, hpos, h.drained_le, h.depth_le⟩

theorem comments (h : start.StaysIn cursor) : start.StaysIn (Rule.comments.leaves cursor) := by
  have hdrained : cursor.drained + cursor.pending.length ≤ cursor.comments.size := by
    have hle := h.drained_le
    have hlength := cursor.length_pending_le
    omega
  exact ⟨h.toSharesStream.moved _ _ _ _, h.pos_le, hdrained, h.depth_le⟩

theorem atDepth (h : start.StaysIn cursor) {depth : Nat} (hdepth : depth ≤ maxDepth) :
    start.StaysIn { cursor with depth } :=
  ⟨h.toSharesStream.moved _ _ _ _, h.pos_le, h.drained_le, hdepth⟩

end StaysIn

namespace IsMovedFrom

variable {cursor middle after : Cursor}

theorem refl (cursor : Cursor) : cursor.IsMovedFrom cursor :=
  rfl

theorem trans (h : middle.IsMovedFrom cursor) (h' : after.IsMovedFrom middle) :
    after.IsMovedFrom cursor :=
  (congrArg (Cursor.reset · cursor.mark) h').trans h

theorem reset (h : after.IsMovedFrom cursor) (mark : Mark) : (after.reset mark).IsMovedFrom cursor :=
  h

theorem depth_eq (h : after.IsMovedFrom cursor) : after.depth = cursor.depth := by
  have hdepth : (after.reset cursor.mark).depth = cursor.depth := congrArg Cursor.depth h
  exact hdepth

/-- What is done one level deeper is undone one level less deep. -/
theorem undeepen (h : after.IsMovedFrom { cursor with depth := cursor.depth + 1 }) :
    IsMovedFrom { after with depth := after.depth - 1 } cursor := by
  have hdepth : after.depth = cursor.depth + 1 := h.depth_eq
  have hframe := congrArg (fun last : Cursor => { last with depth := cursor.depth }) h
  rw [hdepth]
  exact hframe

end IsMovedFrom

end Cursor

namespace Procedure

variable {α β : Type}

/-- No outcome of a parenthesised query is kept or replayed. -/
def KeepsNothing (procedure : Procedure α) : Prop :=
  procedure.KeepsOnly fun _ => False

/-- Runs a procedure, whether it fails or not, and goes back to where it started. -/
def undone (marks : List Mark) (procedure : Procedure α) : Rule Unit := do
  let start ← Rule.mark
  discard (procedure.run marks).caught
  Rule.reset start

section Frame

/-- A procedure that keeps nothing moves the cursor and changes nothing else of it. -/
theorem lands_isMovedFrom {procedure : Procedure α} (h : procedure.KeepsNothing) (marks : List Mark)
    (cursor : Cursor) :
    (procedure.run marks).Lands cursor (·.IsMovedFrom cursor) fun _ => True := by
  induction procedure generalizing marks cursor with
  | give value => exact .pure (.refl cursor) trivial
  | andThen first next ih ihnext =>
    rw [run]
    apply (ih h.1 marks cursor).bind
    rintro ⟨value, saved⟩ middle hrun hmiddle -
    exact (ihnext value (h.2 value) saved middle).mono (fun after hafter => hmiddle.trans hafter) fun _ h => h
  | fail reason => exact .refl cursor
  | recover inner ih =>
    rw [run]
    apply (ih h marks cursor).caught.bind
    rintro (reason | ⟨value, saved⟩) middle hrun hmiddle -
    · exact .pure hmiddle trivial
    · exact .pure hmiddle trivial
  | ask question =>
    have hafter : ((Rule.ask question).leaves cursor).IsMovedFrom cursor := .refl cursor
    exact (Rule.Lands.of_leaves hafter).map _ fun _ _ => trivial
  | take rule htaking =>
    obtain ⟨count, hcount, hleaves⟩ := htaking.exists_advance cursor
    have hafter : (rule.leaves cursor).IsMovedFrom cursor := hleaves ▸ .refl cursor
    exact (Rule.Lands.of_leaves hafter).map _ fun _ _ => trivial
  | comments =>
    have hafter : (Rule.comments.leaves cursor).IsMovedFrom cursor := .refl cursor
    exact (Rule.Lands.of_leaves hafter).map _ fun _ _ => trivial
  | mark => exact ⟨.refl cursor, trivial⟩
  | reset number =>
    rw [run]
    cases marks[number]? with
    | none => exact ⟨.refl cursor, trivial⟩
    | some saved => exact ⟨.refl cursor, trivial⟩
  | attempt isMatch alternative ih =>
    rw [run]
    exact (ih h marks cursor).keepIf (fun after hafter => hafter.reset cursor.mark) _
  | descend inner ih =>
    rw [run]
    apply Rule.Lands.descend (.refl cursor)
    intro _
    exact (ih h marks _).mono (fun after hafter => hafter.undeepen) fun _ h => h
  | once rule => exact h.elim

theorem isMovedFrom_leaves {procedure : Procedure α} (h : procedure.KeepsNothing) (marks : List Mark)
    (cursor : Cursor) : ((procedure.run marks).leaves cursor).IsMovedFrom cursor :=
  (lands_isMovedFrom h marks cursor).leaves

/-- So does everything it involves. -/
theorem Performs.isMovedFrom {procedure : Procedure α} (h : procedure.KeepsNothing) {marks : List Mark}
    {cursor before after : Cursor} (hdone : procedure.Performs marks cursor before after) :
    after.IsMovedFrom before := by
  induction hdone with
  | self marks procedure cursor => exact isMovedFrom_leaves h marks cursor
  | first hdone ih => exact ih h.1
  | next hrun hdone ih => exact ih (h.2 _)
  | recover hdone ih => exact ih h
  | attempt hdone ih => exact ih h
  | descend hdepth hdone ih => exact ih h

theorem undone_apply {procedure : Procedure α} (h : procedure.KeepsNothing) (marks : List Mark)
    (cursor : Cursor) : procedure.undone marks cursor = .ok () cursor := by
  have hmark : (Rule.mark : Rule Mark) cursor = .ok cursor.mark cursor := rfl
  have hback := isMovedFrom_leaves h marks cursor
  rw [undone, Rule.bind_of_ok hmark, Rule.discard_eq_bind, Rule.bind_apply, Rule.bind_apply, Rule.caught]
  unfold Rule.leaves at hback
  cases hrun : procedure.run marks cursor with
  | ok value after =>
    rw [hrun] at hback
    exact congrArg (EStateM.Result.ok ()) hback
  | error reason after =>
    rw [hrun] at hback
    exact congrArg (EStateM.Result.ok ()) hback

end Frame

section Bounds

theorem isInvariant_staysIn (start : Cursor) :
    IsInvariant (fun _ => False) (fun _ => True) start.StaysIn where
  advance h hcount := h.advance hcount
  comments h := h.comments
  reset h hother := h.reset hother.hasPlace_mark
  deepen h hdepth := h.atDepth hdepth
  undeepen h := h.atDepth (Nat.le_trans (Nat.sub_le _ _) h.depth_le)
  once _ _ hrule := hrule.elim

theorem Performs.inBounds {procedure : Procedure α} (h : procedure.KeepsNothing) {marks : List Mark}
    {cursor before after : Cursor} (hdone : procedure.Performs marks cursor before after)
    (hcursor : cursor.InBounds) (hmarks : ∀ mark ∈ marks, cursor.HasPlace mark) :
    before.InBounds ∧ after.InBounds := by
  have hsaves : Saves cursor.StaysIn marks := fun mark hmark _ hother => hother.reset (hmarks mark hmark)
  obtain ⟨hbefore, hafter⟩ := (isInvariant_staysIn cursor).performs h hsaves (.refl hcursor)
    (fun _ _ _ => trivial) hdone
  exact ⟨hbefore.toInBounds, hafter.toInBounds⟩

end Bounds

/-- Going back after a procedure makes it as if nothing had been done: what comes next gives the same answers
or the same failure, and ends at the same cursor. Everything that both involve ends as deep as it started,
and stays within bounds if the cursor and the places saved before are, as a new cursor is. -/
theorem run_after_undone {tried : Procedure α} {procedure : Procedure β} (htried : tried.KeepsNothing)
    (hprocedure : procedure.KeepsNothing) (marks : List Mark) (cursor : Cursor) :
    (tried.undone marks >>= fun _ => procedure.run marks) cursor = procedure.run marks cursor ∧
      (∀ size stream, (Cursor.ofStream size stream).InBounds) ∧
      ∀ before after, tried.Performs marks cursor before after ∨ procedure.Performs marks cursor before after →
        after.depth = before.depth ∧
          (cursor.InBounds → (∀ mark ∈ marks, cursor.HasPlace mark) → before.InBounds ∧ after.InBounds) := by
  refine ⟨Rule.bind_of_ok (undone_apply htried marks cursor), Cursor.inBounds_ofStream, ?_⟩
  rintro before after (hdone | hdone)
  · exact ⟨(hdone.isMovedFrom htried).depth_eq, hdone.inBounds htried⟩
  · exact ⟨(hdone.isMovedFrom hprocedure).depth_eq, hdone.inBounds hprocedure⟩

section Failing

/-- A word after a comment. -/
def commentedWord : TokenStream :=
  { tokens := [⟨.word, "a", 8⟩], comments := [⟨0, .blockComment, "/* c */", 0⟩] }

/-- An alternative that hands out comments and takes a token a level deeper, and then misses a bracket. -/
def missesBracket : Procedure String :=
  let inner := comments.andThen fun _ => (take Rule.bump .bump).andThen fun _ =>
    take (Rule.expect ")") (.expect ")")
  inner.descend.attempt fun _ => true

/-- The alternative fails behind the word, and the comment is handed out nevertheless. -/
theorem run_after_undone_missesBracket :
    (∃ reason, missesBracket.run [] (Cursor.ofStream 9 commentedWord) =
      .error reason { Cursor.ofStream 9 commentedWord with pos := 1, drained := 1 }) ∧
    (missesBracket.undone [] >>= fun _ => comments.run []) (Cursor.ofStream 9 commentedWord) =
      .ok (["/* c */"], []) { Cursor.ofStream 9 commentedWord with drained := 1 } := by
  have htried : missesBracket.KeepsNothing := ⟨trivial, fun _ => ⟨trivial, fun _ => trivial⟩⟩
  have hcomments : comments.KeepsNothing := trivial
  exact ⟨⟨_, rfl⟩, (run_after_undone htried hcomments [] (Cursor.ofStream 9 commentedWord)).1.trans rfl⟩

end Failing

end Procedure

end SqlLayout
