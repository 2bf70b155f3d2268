import SqlLayout.Cursor.Rule

/-!
# Sessions on a Cursor

A session is a list of operations on one cursor. Every operation gives an answer and leaves the cursor at
some offset. Operations can hold others: those tried as an alternative, those read one level deeper, and
those that stand for the rule of a parenthesised query.
-/

namespace SqlLayout

inductive Operation where
  | atEnd
  | kindAt (ahead : Nat)
  | text
  | span
  | seesAt (ahead : Nat) (pattern : String)
  | seesAll (patterns : List String)
  | seesAny (patterns : List String)
  | seesJoined (patterns : List String)
  | bump
  | take (pattern : String)
  | takeAll (patterns : List String)
  | takeAny (patterns : List String)
  | takeKind (kind : Token.Kind)
  | takeJoined (patterns : List String)
  | expect (pattern : String)
  | failure (what : String)
  | comments
  /-- Saves the place of the cursor under the next number. -/
  | mark
  | reset (number : Nat)
  /-- An alternative that matches or not, whatever its operations answer. -/
  | attempt (isMatch : Bool) (inner : List Operation)
  | descend (inner : List Operation)
  /-- A rule for a parenthesised query and the query it gives. -/
  | once (query : Option Query) (inner : List Operation)

/-- What an operation answers; those of inner operations come with the offsets after them. -/
inductive Operation.Answer where
  | flag (value : Bool)
  | kind (kind : Option Token.Kind)
  | text (text : Option String)
  | span (span : Span)
  | failure (failure : Failure)
  | comments (comments : List String)
  | mark (number : Nat)
  | done
  | attempt (isMatch : Bool) (inner : List (Answer × Nat))
  | descend (inner : List (Answer × Nat))
  /-- The inner answers are missing when the outcome was a kept one. -/
  | once (query : Option Query) (inner : Option (List (Answer × Nat)))

namespace Operation

/-- An answer, and the marks saved so far. -/
abbrev Outcome := Answer × List Mark

def answering (marks : List Mark) (rule : Rule Answer) : Rule Outcome :=
  (·, marks) <$> rule

/-- Restores a saved place; a number that was never given out changes nothing. -/
def resetTo (marks : List Mark) (number : Nat) : Rule Answer := do
  if let some saved := marks[number]? then Rule.reset saved
  return .done

/-- Turns a failure into an answer. -/
def catching (marks : List Mark) (rule : Rule Outcome) : Rule Outcome := fun cursor =>
  match rule cursor with
  | .ok outcome after => .ok outcome after
  | .error reason after => .ok (.failure reason, marks) after

mutual

/-- Runs one operation. -/
def run (marks : List Mark) : Operation → Rule Outcome
  | atEnd => answering marks (.flag <$> Rule.ask (·.atEnd))
  | kindAt ahead => answering marks (.kind <$> Rule.ask (·.kind? ahead))
  | text => answering marks (.text <$> Rule.ask (·.text?))
  | span => answering marks (.span <$> Rule.ask (·.span))
  | seesAt ahead pattern => answering marks (.flag <$> Rule.ask (·.seesAt ahead pattern))
  | seesAll patterns => answering marks (.flag <$> Rule.ask (·.seesAll patterns))
  | seesAny patterns => answering marks (.flag <$> Rule.ask (·.seesAny patterns))
  | seesJoined patterns => answering marks (.flag <$> Rule.ask (·.seesJoined patterns))
  | bump => answering marks (.text <$> Rule.bump)
  | take pattern => answering marks (.text <$> Rule.take? pattern)
  | takeAll patterns => answering marks (.text <$> Rule.takeAll? patterns)
  | takeAny patterns => answering marks (.text <$> Rule.takeAny? patterns)
  | takeKind kind => answering marks (.text <$> Rule.takeKind? kind)
  | takeJoined patterns => answering marks (.text <$> Rule.takeJoined? patterns)
  | expect pattern =>
    catching marks (answering marks ((fun text => .text (some text)) <$> Rule.expect pattern))
  | failure what => answering marks (.failure <$> Rule.ask (·.failure what))
  | comments => answering marks (.comments <$> Rule.comments)
  | mark => do return (.mark marks.length, marks ++ [← Rule.mark])
  | reset number => answering marks (resetTo marks number)
  | attempt isMatch inner => do
    let (answers, marks) ← Rule.keepIf (fun _ => isMatch) (runAll marks inner)
    return (.attempt isMatch answers, marks)
  | descend inner =>
    catching marks do
      let (answers, marks) ← Rule.descend (runAll marks inner)
      return (.descend answers, marks)
  | once query inner => do
    match ← Rule.onceWith ((query, ·) <$> runAll marks inner) with
    | (outcome, some (answers, marks)) => return (.once outcome (some answers), marks)
    | (outcome, none) => return (.once outcome none, marks)

/-- Runs operations in order. -/
def runAll (marks : List Mark) : List Operation → Rule (List (Answer × Nat) × List Mark)
  | [] => return ([], marks)
  | operation :: operations => do
    let (answer, marks) ← run marks operation
    let offset ← Rule.ask (·.offset)
    let (answers, marks) ← runAll marks operations
    return ((answer, offset) :: answers, marks)

end

/-- The answers of a session on a source. -/
def answers (source : String) (session : List Operation) :
    Except Failure (List (Answer × Nat)) :=
  Rule.runOn (Prod.fst <$> runAll [] session) source

end Operation

end SqlLayout
