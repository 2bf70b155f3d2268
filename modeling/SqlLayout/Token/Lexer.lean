import SqlLayout.Text.Position
import SqlLayout.Token.Scan

/-!
# Tokens of a Source

The tokens follow each other without gaps: put together again, their texts are the source. Garbage next
to garbage is one token.
-/

namespace SqlLayout

/-- A piece of a source and the byte offset where it starts. -/
structure Token where
  kind : Token.Kind
  text : String
  start : Nat
deriving DecidableEq, Inhabited

namespace Token

def stop (token : Token) : Nat :=
  token.start + token.text.utf8ByteSize

def span (token : Token) : Span :=
  { start := token.start, stop := token.stop }

/-- The tokens of some characters that start at a byte offset. Every token takes at least one of them,
so as many steps as there are characters are enough. -/
def scan : Nat → Nat → List Char → List Token
  | 0, _, _ => []
  | _ + 1, _, [] => []
  | steps + 1, start, c :: cs =>
    let lexeme := Scan.next (c :: cs)
    let text := String.ofList ((c :: cs).take lexeme.length)
    { kind := lexeme.kind, text, start }
      :: scan steps (start + text.utf8ByteSize) ((c :: cs).drop lexeme.length)

/-- Puts a token in front of others; garbage takes in the garbage that follows it. -/
def cover (token : Token) : List Token → List Token
  | [] => [token]
  | next :: rest =>
    if token.kind = .garbage && next.kind = .garbage then
      { token with text := token.text ++ next.text } :: rest
    else token :: next :: rest

/-- All tokens of a source, blanks and comments included. -/
def lex (source : String) : List Token :=
  let cs := source.toList
  (scan cs.length 0 cs).foldr cover []

end Token

end SqlLayout
