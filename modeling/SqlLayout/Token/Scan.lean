import SqlLayout.Token.Kind

/-!
# Scanning One Token

Every kind of token is a pattern that takes a number of characters from the front of the input, and the
pattern that takes the most wins. Where no pattern matches, the characters that some pattern could still
have gone on from are skipped as garbage, at least one. An opener of three quotes is committed: when
nothing closes it, the opener is garbage and no shorter reading of the quotes is tried.
-/

namespace SqlLayout.Token

/-- A kind of token and the number of characters it takes. -/
structure Lexeme where
  kind : Kind
  length : Nat
deriving DecidableEq, Inhabited

namespace Scan

def backquote : Char := '\x60'

def isWordStart (c : Char) : Bool :=
  c.isAlpha || c == '_'

def isWordRest (c : Char) : Bool :=
  c.isAlphanum || c == '_'

def isGap (c : Char) : Bool :=
  c == ' ' || c == '\t' || c == '\r' || c == '\n' || c == '\x0c'

def isHexDigit (c : Char) : Bool :=
  c.isDigit || ('a' ≤ c && c ≤ 'f') || ('A' ≤ c && c ≤ 'F')

/-- The letters that may stand before the quote of a literal. -/
def isPrefixLetter (c : Char) : Bool :=
  c == 'r' || c == 'R' || c == 'b' || c == 'B'

/-- The number of leading characters in a class. -/
def run (p : Char → Bool) (cs : List Char) : Nat :=
  (cs.takeWhile p).length

def word : List Char → Nat
  | [] => 0
  | c :: cs => if isWordStart c then 1 + run isWordRest cs else 0

def gap (cs : List Char) : Nat :=
  run isGap cs

/-- A comment up to the end of its line. -/
def lineComment : List Char → Nat
  | '#' :: cs => 1 + run (· ≠ '\n') cs
  | '-' :: '-' :: cs => 2 + run (· ≠ '\n') cs
  | _ => 0

/-- The characters up to the end of a block comment. Inside it a star always goes together with the
character after it, so a star that follows another one cannot end the comment. -/
def blockEnd? : List Char → Option Nat
  | '*' :: '/' :: _ => some 2
  | '*' :: _ :: cs => (blockEnd? cs).map (· + 2)
  | ['*'] => none
  | _ :: cs => (blockEnd? cs).map (· + 1)
  | [] => none

def blockComment : List Char → Nat
  | '/' :: '*' :: cs => ((blockEnd? cs).map (· + 2)).getD 0
  | _ => 0

/-- An exponent with at least one digit. -/
def exponent : List Char → Nat
  | c :: cs =>
    if c == 'e' || c == 'E' then
      match cs with
      | [] => 0
      | d :: ds =>
        if d == '+' || d == '-' then
          if run Char.isDigit ds = 0 then 0 else 2 + run Char.isDigit ds
        else if run Char.isDigit cs = 0 then 0
        else 1 + run Char.isDigit cs
    else 0
  | [] => 0

/-- A point and the digits after it, if a point is next. -/
def fraction : List Char → Nat
  | '.' :: cs => 1 + run Char.isDigit cs
  | _ => 0

/-- Digits, perhaps a fraction, perhaps an exponent. -/
def decimal (cs : List Char) : Nat :=
  let whole := run Char.isDigit cs
  if whole = 0 then 0
  else
    let upToFraction := whole + fraction (cs.drop whole)
    upToFraction + exponent (cs.drop upToFraction)

/-- A number that starts with its point. -/
def pointFirst (cs : List Char) : Nat :=
  let upToFraction := fraction cs
  if upToFraction < 2 then 0 else upToFraction + exponent (cs.drop upToFraction)

def hexadecimal : List Char → Nat
  | '0' :: c :: cs =>
    if (c == 'x' || c == 'X') && run isHexDigit cs ≠ 0 then 2 + run isHexDigit cs else 0
  | _ => 0

def number (cs : List Char) : Nat :=
  max (max (decimal cs) (pointFirst cs)) (hexadecimal cs)

/-- What follows an opening quote: whether the closing quote is found, and how many characters were
read up to it, or up to the place where none can be found any more. A backslash takes the next
character with it, but never a newline; some quotes do not reach over a newline at all. -/
def quoted (quote : Char) (multiline : Bool) : List Char → Bool × Nat
  | [] => (false, 0)
  | ['\\'] => (false, 1)
  | '\\' :: c :: cs =>
    if c = '\n' then (false, 1)
    else let (closed, count) := quoted quote multiline cs; (closed, count + 2)
  | c :: cs =>
    if c = quote then (true, 1)
    else if c = '\n' && !multiline then (false, 0)
    else let (closed, count) := quoted quote multiline cs; (closed, count + 1)

/-- The characters up to the end of the three quotes that close a literal. A backslash takes the next
character with it, whatever it is. -/
def tripleEnd? (quote : Char) : List Char → Option Nat
  | '\\' :: _ :: cs => (tripleEnd? quote cs).map (· + 2)
  | ['\\'] => none
  | c :: cs =>
    if [quote, quote, quote].isPrefixOf (c :: cs) then some 3
    else (tripleEnd? quote cs).map (· + 1)
  | [] => none

/-- A backquoted name. -/
def quotedIdent : List Char → Nat
  | c :: cs =>
    if c = backquote then
      match quoted backquote true cs with
      | (true, count) => count + 1
      | (false, _) => 0
    else 0
  | [] => 0

/-- The body of a literal that starts with a quote. -/
def literalBody : List Char → Option Lexeme
  | c :: cs =>
    if c = '\x22' || c = '\x27' then
      if [c, c].isPrefixOf cs then
        match tripleEnd? c (cs.drop 2) with
        | some count => some { kind := .string, length := count + 3 }
        | none => some { kind := .garbage, length := 3 }
      else
        match quoted c false cs with
        | (true, count) => some { kind := .string, length := count + 1 }
        | (false, _) => none
    else none
  | [] => none

/-- A string or bytes literal with at most two letters before its quote. -/
def literal (cs : List Char) : Option Lexeme :=
  let letters := run isPrefixLetter cs
  if letters ≤ 2 then
    (literalBody (cs.drop letters)).map fun body => { body with length := letters + body.length }
  else none

/-- A pattern of one kind as a lexeme, if it takes anything. -/
def lexeme? (kind : Kind) (length : Nat) : Option Lexeme :=
  if length = 0 then none else some { kind, length }

def symbol? (cs : List Char) (symbol : Kind × String) : Option Lexeme :=
  if symbol.2.toList.isPrefixOf cs then some { kind := symbol.1, length := symbol.2.length } else none

/-- Everything that matches at the front of the input. -/
def candidates (cs : List Char) : List Lexeme :=
  [lexeme? .word (word cs), lexeme? .quotedIdent (quotedIdent cs), literal cs,
   lexeme? .number (number cs), lexeme? .whitespace (gap cs), lexeme? .lineComment (lineComment cs),
   lexeme? .blockComment (blockComment cs)].filterMap id
    ++ Kind.symbols.filterMap (symbol? cs)

/-- The first of the longest lexemes. -/
def longest : List Lexeme → Option Lexeme
  | [] => none
  | lexeme :: lexemes =>
    match longest lexemes with
    | none => some lexeme
    | some other => if lexeme.length < other.length then some other else some lexeme

/-- How far a pattern could have gone on where none matches. -/
def hopeless : List Char → Nat
  | c :: cs =>
    if c = backquote then 1 + (quoted backquote true cs).2
    else if c = '\x22' || c = '\x27' then 1 + (quoted c false cs).2
    else 1
  | [] => 1

/-- The token at the front of an input that is not empty. -/
def next (cs : List Char) : Lexeme :=
  (longest (candidates cs)).getD { kind := .garbage, length := hopeless cs }

end Scan

end SqlLayout.Token
