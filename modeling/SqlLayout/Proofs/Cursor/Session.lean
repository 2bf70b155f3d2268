import SqlLayout.Cursor.Session
import SqlLayout.Proofs.Cursor.Backtracking

/-!
# Sessions Are Procedures

Every session that keeps no outcomes is a procedure whose failures are all recovered from, so a session can
be undone as well: going back to where it started makes it as if nothing had been done.
-/

namespace SqlLayout

namespace Operation

mutual

/-- The operation and those it holds keep and replay no outcome. -/
def KeepsNothing : Operation → Prop
  | attempt _ inner | descend inner => AllKeepNothing inner
  | once _ _ => False
  | _ => True

def AllKeepNothing : List Operation → Prop
  | [] => True
  | operation :: operations => operation.KeepsNothing ∧ AllKeepNothing operations

end

/-- There is a procedure that does the same, whatever places were saved before. -/
def IsProcedure {α : Type} (action : List Mark → Rule (α × List Mark)) : Prop :=
  ∃ procedure : Procedure α, procedure.KeepsNothing ∧ ∀ marks, procedure.run marks = action marks

namespace IsProcedure

variable {α β : Type} {action : List Mark → Rule (α × List Mark)}

theorem of_eq {other : List Mark → Rule (α × List Mark)} (h : IsProcedure action)
    (heq : ∀ marks cursor, action marks cursor = other marks cursor) : IsProcedure other := by
  obtain ⟨procedure, hkeeps, hrun⟩ := h
  exact ⟨procedure, hkeeps, fun marks => (hrun marks).trans (funext (heq marks))⟩

theorem pure (value : α) : IsProcedure fun marks => return (value, marks) :=
  ⟨.give value, trivial, fun _ => rfl⟩

theorem bind {after : α → List Mark → Rule (β × List Mark)} (h : IsProcedure action)
    (hafter : ∀ value, IsProcedure (after value)) :
    IsProcedure fun marks => action marks >>= fun result => after result.1 result.2 := by
  obtain ⟨procedure, hkeeps, hrun⟩ := h
  have hrest (value : α) := (hafter value).choose_spec
  refine ⟨procedure.andThen fun value => (hafter value).choose, ⟨hkeeps, fun value => (hrest value).1⟩,
    fun marks => ?_⟩
  simp only [Procedure.run, hrun, (hrest _).2]

theorem ask (question : Cursor → Answer) : IsProcedure fun marks => answering marks (Rule.ask question) :=
  ⟨.ask question, trivial, fun _ => rfl⟩

/-- What is answered about the value of a rule that leaves the saved places alone. -/
theorem plain {rule : List Mark → Rule α} (h : IsProcedure fun marks => (·, marks) <$> rule marks)
    (change : α → Answer) : IsProcedure fun marks => answering marks (change <$> rule marks) := by
  refine (h.bind fun value => pure (change value)).of_eq fun marks cursor => ?_
  simp only [answering, Rule.map_eq_bind, Rule.bind_apply]
  cases rule marks cursor <;> rfl

theorem take {rule : Rule α} (h : rule.IsTaking) (change : α → Answer) :
    IsProcedure fun marks => answering marks (change <$> rule) :=
  plain ⟨.take rule h, trivial, fun _ => rfl⟩ change

/-- What is answered where a failure is an answer too. -/
theorem catching {action : List Mark → Rule Outcome} (h : IsProcedure action) :
    IsProcedure fun marks => Operation.catching marks (action marks) := by
  obtain ⟨procedure, hkeeps, hrun⟩ := h
  have hcaught : IsProcedure fun marks => procedure.recover.run marks := ⟨_, hkeeps, fun _ => rfl⟩
  refine (hcaught.bind fun result => pure (match result with
    | .ok answer => answer
    | .error reason => .failure reason)).of_eq fun marks cursor => ?_
  simp only [Procedure.run, hrun, Operation.catching, Rule.bind_apply, Rule.caught]
  cases action marks cursor <;> rfl

end IsProcedure

mutual

theorem isProcedure_run : ∀ operation : Operation, operation.KeepsNothing →
    IsProcedure fun marks => run marks operation
  | atEnd, _ => .ask fun cursor => .flag cursor.atEnd
  | kindAt ahead, _ => .ask fun cursor => .kind (cursor.kind? ahead)
  | text, _ => .ask fun cursor => .text cursor.text?
  | span, _ => .ask fun cursor => .span cursor.span
  | seesAt ahead pattern, _ => .ask fun cursor => .flag (cursor.seesAt ahead pattern)
  | seesAll patterns, _ => .ask fun cursor => .flag (cursor.seesAll patterns)
  | seesAny patterns, _ => .ask fun cursor => .flag (cursor.seesAny patterns)
  | seesJoined patterns, _ => .ask fun cursor => .flag (cursor.seesJoined patterns)
  | bump, _ => .take .bump .text
  | take pattern, _ => .take (.take? pattern) .text
  | takeAll patterns, _ => .take (.takeAll? patterns) .text
  | takeAny patterns, _ => .take (.takeAny? patterns) .text
  | takeKind kind, _ => .take (.takeKind? kind) .text
  | takeJoined patterns, _ => .take (.takeJoined? patterns) .text
  | expect pattern, _ => (IsProcedure.take (.expect pattern) fun text => .text (some text)).catching
  | failure what, _ => .ask fun cursor => .failure (cursor.failure what)
  | comments, _ => .plain ⟨.comments, trivial, fun _ => rfl⟩ .comments
  | mark, _ => by
    have hmark : IsProcedure fun marks => Procedure.mark.run marks := ⟨.mark, trivial, fun _ => rfl⟩
    exact (hmark.bind fun number => .pure (.mark number)).of_eq fun _ _ => rfl
  | reset number, _ => by
    have hreset : IsProcedure fun marks => (Procedure.reset number).run marks :=
      ⟨.reset number, trivial, fun _ => rfl⟩
    refine (hreset.bind fun _ => .pure .done).of_eq fun marks cursor => ?_
    simp only [Procedure.run, run, answering, resetTo]
    cases marks[number]? <;> rfl
  | attempt isMatch inner, h => by
    obtain ⟨procedure, hkeeps, hrun⟩ := isProcedure_runAll inner h
    have htried : IsProcedure fun marks => Rule.keepIf (fun _ => isMatch) (runAll marks inner) :=
      ⟨procedure.attempt fun _ => isMatch, hkeeps, fun marks => by rw [Procedure.run, hrun]⟩
    exact htried.bind fun answers => .pure (Answer.attempt isMatch answers)
  | descend inner, h => by
    obtain ⟨procedure, hkeeps, hrun⟩ := isProcedure_runAll inner h
    have hdeeper : IsProcedure fun marks => Rule.descend (runAll marks inner) :=
      ⟨procedure.descend, hkeeps, fun marks => by rw [Procedure.run, hrun]⟩
    exact (hdeeper.bind fun answers => .pure (Answer.descend answers)).catching

theorem isProcedure_runAll : ∀ operations : List Operation, AllKeepNothing operations →
    IsProcedure fun marks => runAll marks operations
  | [], _ => .pure []
  | operation :: operations, h => by
    have hoffset : IsProcedure fun marks => (·, marks) <$> Rule.ask Cursor.offset :=
      ⟨.ask Cursor.offset, trivial, fun _ => rfl⟩
    have hrest := isProcedure_runAll operations h.2
    exact (isProcedure_run operation h.1).bind fun answer => hoffset.bind fun offset =>
      hrest.bind fun answers => .pure ((answer, offset) :: answers)

end

/-- Going back to where a session started undoes it, and the session itself ends as deep as it started. -/
theorem undone_runAll {operations : List Operation} (h : AllKeepNothing operations) (marks : List Mark)
    (cursor : Cursor) :
    (do
      let start ← Rule.mark
      discard (runAll marks operations).caught
      Rule.reset start) cursor = .ok () cursor ∧
      ((runAll marks operations).leaves cursor).depth = cursor.depth := by
  obtain ⟨procedure, hkeeps, hrun⟩ := isProcedure_runAll operations h
  have hundone := Procedure.undone_apply hkeeps marks cursor
  have hmoved := Procedure.isMovedFrom_leaves hkeeps marks cursor
  rw [Procedure.undone, hrun] at hundone
  rw [hrun] at hmoved
  exact ⟨hundone, hmoved.depth_eq⟩

/-- A session on a new cursor ends within bounds. -/
theorem inBounds_runAll {operations : List Operation} (h : AllKeepNothing operations) (size : Nat)
    (stream : TokenStream) : ((runAll [] operations).leaves (Cursor.ofStream size stream)).InBounds := by
  obtain ⟨procedure, hkeeps, hrun⟩ := isProcedure_runAll operations h
  have hbounds := (Procedure.Performs.self [] procedure _).inBounds hkeeps
    (Cursor.inBounds_ofStream size stream) fun _ hmark => absurd hmark List.not_mem_nil
  rw [hrun] at hbounds
  exact hbounds.2

end Operation

end SqlLayout
