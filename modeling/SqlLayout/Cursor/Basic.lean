import SqlLayout.Syntax.Query
import SqlLayout.Token.Stream

/-!
# Cursors

A cursor is a place in a token stream. It knows how many comments have been handed out, how deep the
rule that is being read is nested, and what became of the parenthesised queries tried so far.

Patterns are plain texts. One that starts with a letter or an underscore matches a word without regard
to case; any other one matches an operator or a delimiter that is spelled the same. Literals and
backquoted names match no pattern.
-/

namespace SqlLayout

/-- A position to come back to. -/
structure Mark where
  pos : Nat
  drained : Nat
deriving DecidableEq, Inhabited

structure Cursor where
  tokens : Array Token
  comments : Array Comment
  /-- The size of the source in bytes. -/
  size : Nat
  /-- The index of the next token. -/
  pos : Nat := 0
  /-- How many comments have been handed out. -/
  drained : Nat := 0
  depth : Nat := 0
  /-- Whether the outcome of a parenthesised query is kept for the next time it is tried. -/
  keepsOutcomes : Bool := true
  /-- The outcomes kept, by the position of the opening parenthesis. -/
  outcomes : List (Nat × Option (Query × Mark)) := []

namespace Cursor

/-- How deep expressions, queries and types may nest. -/
def maxDepth : Nat := 32

def ofStream (size : Nat) (stream : TokenStream) : Cursor :=
  { tokens := stream.tokens.toArray, comments := stream.comments.toArray, size }

def ofSource (source : String) : Except Failure Cursor := do
  return ofStream source.utf8ByteSize (← TokenStream.ofSource source)

/-- The token some steps ahead. -/
def token? (cursor : Cursor) (ahead : Nat) : Option Token :=
  cursor.tokens[cursor.pos + ahead]?

def atEnd (cursor : Cursor) : Bool :=
  cursor.tokens.size ≤ cursor.pos

/-- How many tokens are left. -/
def remaining (cursor : Cursor) : Nat :=
  cursor.tokens.size - cursor.pos

def kind? (cursor : Cursor) (ahead : Nat := 0) : Option Token.Kind :=
  (cursor.token? ahead).map Token.kind

def text? (cursor : Cursor) : Option String :=
  (cursor.token? 0).map Token.text

/-- The span of the next token, or the empty one at the end. -/
def span (cursor : Cursor) : Span :=
  match cursor.token? 0 with
  | some token => token.span
  | none => { start := cursor.size, stop := cursor.size }

def offset (cursor : Cursor) : Nat :=
  cursor.span.start

def isWordPattern (pattern : String) : Bool :=
  match pattern.toList with
  | c :: _ => c.isAlpha || c == '_'
  | [] => false

/-- Whether a token matches a pattern. -/
def fits (pattern : String) (token : Token) : Bool :=
  if isWordPattern pattern then token.kind = .word && Text.sameWord token.text pattern
  else token.kind.isSymbol && token.text == pattern

/-- Whether the token some steps ahead matches a pattern. -/
def seesAt (cursor : Cursor) (ahead : Nat) (pattern : String) : Bool :=
  match cursor.token? ahead with
  | some token => fits pattern token
  | none => false

def sees (cursor : Cursor) (pattern : String) : Bool :=
  cursor.seesAt 0 pattern

/-- Whether the tokens from some steps ahead on match the patterns one for one. -/
def seesAllAt (cursor : Cursor) (ahead : Nat) : List String → Bool
  | [] => true
  | pattern :: patterns =>
    cursor.seesAt ahead pattern && cursor.seesAllAt (ahead + 1) patterns

def seesAll (cursor : Cursor) (patterns : List String) : Bool :=
  cursor.seesAllAt 0 patterns

/-- Whether the token some steps ahead matches one of the patterns. -/
def seesAnyAt (cursor : Cursor) (ahead : Nat) (patterns : List String) : Bool :=
  patterns.any (cursor.seesAt ahead)

def seesAny (cursor : Cursor) (patterns : List String) : Bool :=
  cursor.seesAnyAt 0 patterns

/-- Whether the next tokens touch each other, `count` times. -/
def touching (cursor : Cursor) (count : Nat) : Bool :=
  (List.range count).all fun i =>
    match cursor.token? i, cursor.token? (i + 1) with
    | some token, some next => token.stop == next.start
    | _, _ => false

/-- Whether the next tokens match the patterns and touch each other. -/
def seesJoined (cursor : Cursor) (patterns : List String) : Bool :=
  cursor.seesAll patterns && cursor.touching (patterns.length - 1)

/-- What is wrong with the next token where something else was expected. -/
def failure (cursor : Cursor) (what : String) : Failure :=
  { span := cursor.span, cause := .expected what cursor.text? }

def mark (cursor : Cursor) : Mark :=
  { pos := cursor.pos, drained := cursor.drained }

def reset (cursor : Cursor) (mark : Mark) : Cursor :=
  { cursor with pos := mark.pos, drained := mark.drained }

def advance (cursor : Cursor) (count : Nat) : Cursor :=
  { cursor with pos := cursor.pos + count }

/-- The comments that stand before the next token and have not been handed out. -/
def pending (cursor : Cursor) : List Comment :=
  (cursor.comments.toList.drop cursor.drained).takeWhile fun comment => comment.before ≤ cursor.pos

/-- The outcome kept for the parenthesised query at the cursor. -/
def outcome? (cursor : Cursor) : Option (Option (Query × Mark)) :=
  cursor.outcomes.lookup cursor.pos

end Cursor

end SqlLayout
