import SqlLayout.Cursor.Basic

/-!
# Rules

A rule reads from a cursor. Giving a value means that it matched and the cursor stands after it; giving
`none` means that it is not this alternative, and whoever tries alternatives restores the cursor; a
failure ends the whole reading. The cursor is also known after a failure, so that every outcome can be
described.
-/

namespace SqlLayout

abbrev Rule (α : Type) := EStateM Failure Cursor α

namespace Rule

variable {α : Type}

/-- Fails at the next token. -/
def expected (what : String) : Rule α := fun cursor =>
  .error (cursor.failure what) cursor

/-- Asks the cursor something. -/
def ask (question : Cursor → α) : Rule α := fun cursor =>
  .ok (question cursor) cursor

def sees (pattern : String) : Rule Bool :=
  ask (·.sees pattern)

def kind? : Rule (Option Token.Kind) :=
  ask (·.kind?)

/-- Takes the next token and gives its text. -/
def bump : Rule (Option String) := fun cursor =>
  match cursor.text? with
  | some text => .ok text (cursor.advance 1)
  | none => .ok none cursor

/-- Takes the next token if it matches a pattern. -/
def take? (pattern : String) : Rule (Option String) := do
  if ← sees pattern then bump else return none

/-- Takes the next token if it matches a pattern, and tells whether it did. -/
def skip (pattern : String) : Rule Bool :=
  Option.isSome <$> take? pattern

/-- Takes as many tokens as there are patterns if all of them match, and gives the first text. -/
def takeAll? (patterns : List String) : Rule (Option String) := fun cursor =>
  if patterns.isEmpty || !cursor.seesAll patterns then .ok none cursor
  else .ok cursor.text? (cursor.advance patterns.length)

def skipAll (patterns : List String) : Rule Bool :=
  Option.isSome <$> takeAll? patterns

/-- Takes the next token by the first of the patterns that matches it. -/
def takeAny? : List String → Rule (Option String)
  | [] => return none
  | pattern :: patterns => do
    match ← take? pattern with
    | some text => return some text
    | none => takeAny? patterns

def takeKind? (kind : Token.Kind) : Rule (Option String) := do
  if (← kind?) = some kind then bump else return none

/-- Takes tokens that match the patterns and touch each other, as one text. -/
def takeJoined? (patterns : List String) : Rule (Option String) := fun cursor =>
  if patterns.isEmpty || !cursor.seesJoined patterns then .ok none cursor
  else
    let tokens := (List.range patterns.length).filterMap cursor.token?
    .ok (String.join (tokens.map Token.text)) (cursor.advance patterns.length)

/-- Takes the next token, which has to match a pattern. -/
def expect (pattern : String) : Rule String := do
  match ← take? pattern with
  | some text => return text
  | none => expected (Cause.quote pattern)

/-- Runs a rule that has to match. -/
def require (what : String) (rule : Rule (Option α)) : Rule α := do
  match ← rule with
  | some value => return value
  | none => expected what

/-- Hands out the comments before the cursor. -/
def comments : Rule (List String) := fun cursor =>
  let pending := cursor.pending
  .ok (pending.map Comment.text) { cursor with drained := cursor.drained + pending.length }

def mark : Rule Mark :=
  ask (·.mark)

def reset (mark : Mark) : Rule Unit := fun cursor =>
  .ok () (cursor.reset mark)

/-- Runs a rule and restores the cursor unless the outcome is good. -/
def keepIf (good : α → Bool) (rule : Rule α) : Rule α := do
  let start ← mark
  let value ← rule
  unless good value do reset start
  return value

/-- Runs one alternative and restores the cursor if it does not match. -/
def attempt (rule : Rule (Option α)) : Rule (Option α) :=
  keepIf Option.isSome rule

/-- Runs alternatives in order until one matches. -/
def firstOf : List (Rule (Option α)) → Rule (Option α)
  | [] => return none
  | rule :: rules => do
    match ← attempt rule with
    | some value => return some value
    | none => firstOf rules

/-- Fails because the next token would nest too deeply. -/
def tooDeep : Rule α := fun cursor =>
  .error { span := cursor.span, cause := .tooDeep Cursor.maxDepth } cursor

/-- Runs a rule one level deeper. -/
def descend (rule : Rule α) : Rule α := fun cursor =>
  if Cursor.maxDepth ≤ cursor.depth then tooDeep cursor
  else
    match rule { cursor with depth := cursor.depth + 1 } with
    | .ok value after => .ok value { after with depth := after.depth - 1 }
    | .error failure after => .error failure { after with depth := after.depth - 1 }

/-- Replays the outcome kept for the parenthesised query at the cursor, if there is one. -/
def replay? : Rule (Option (Option Query)) := fun cursor =>
  match cursor.outcome? with
  | none => .ok none cursor
  | some none => .ok (some none) cursor
  | some (some (query, stop)) => .ok (some (some query)) (cursor.reset stop)

/-- Keeps an outcome for the parenthesised query that starts at a position. -/
def keepOutcome (start : Nat) (outcome : Option Query) : Rule Unit := fun cursor =>
  if cursor.keepsOutcomes then
    let entry := (start, outcome.map fun query => (query, cursor.mark))
    .ok () { cursor with outcomes := entry :: cursor.outcomes }
  else .ok () cursor

/-- Runs the rule for a parenthesised query at most once at every position, and gives what the rule gave
besides only when it did run. Only one rule may be run through this one, since the position alone tells
the outcomes apart. -/
def onceWith (rule : Rule (Option Query × α)) : Rule (Option Query × Option α) := do
  match ← replay? with
  | some outcome => return (outcome, none)
  | none =>
    let start ← ask (·.pos)
    let (outcome, besides) ← keepIf (·.1.isSome) rule
    keepOutcome start outcome
    return (outcome, some besides)

def once (rule : Rule (Option Query)) : Rule (Option Query) :=
  Prod.fst <$> onceWith ((·, ()) <$> rule)

/-- Runs a rule until it gives nothing, at most `steps` times. -/
def repeatUpTo : Nat → Rule (Option α) → Rule (List α)
  | 0, _ => return []
  | steps + 1, rule => do
    match ← rule with
    | some value => return value :: (← repeatUpTo steps rule)
    | none => return []

/-- Runs a rule until it gives nothing. The rule takes a token whenever it gives something, so it runs
at most once more than there are tokens left. -/
def many (rule : Rule (Option α)) : Rule (List α) := fun cursor =>
  repeatUpTo (cursor.remaining + 1) rule cursor

/-- One item or more, separated by commas. -/
def commaSeparated (item : Rule α) : Rule (List α) := do
  let first ← item
  let rest ← many do
    if ← skip "," then return some (← item) else return none
  return first :: rest

/-- Items in parentheses, separated by commas; possibly none. -/
def parenthesized (item : Rule α) : Rule (List α) := do
  discard <| expect "("
  if ← skip ")" then return []
  let items ← commaSeparated item
  discard <| expect ")"
  return items

/-- Runs a rule from the start of a source. -/
def runOn (rule : Rule α) (source : String) : Except Failure α := do
  match rule (← Cursor.ofSource source) with
  | .ok value _ => return value
  | .error failure _ => throw failure

end Rule

end SqlLayout
