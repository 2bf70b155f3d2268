import SqlLayout.Text.Position

/-!
# Constants

A constant keeps the exact text it was written with. The text of a string or bytes literal decodes to a
value: what stands between its quotes, with the escapes resolved unless the literal is raw.
-/

namespace SqlLayout

inductive ConstantKind where
  | string | bytes | number | boolean | null
deriving DecidableEq, Inhabited

def ConstantKind.label : ConstantKind → String
  | string => "String"
  | bytes => "Bytes"
  | number => "Number"
  | boolean => "Boolean"
  | null => "Null"

structure Constant where
  kind : ConstantKind
  text : String
deriving DecidableEq, Inhabited

namespace Constant

def isQuote (c : Char) : Bool :=
  c == '\x22' || c == '\x27'

/-- The character a backslash and the character after it stand for. -/
def escaped : Char → Char
  | 'n' => '\n'
  | 't' => '\t'
  | 'r' => '\r'
  | '0' => '\x00'
  | c => c

/-- Resolves the escapes; a backslash at the very end stands for itself. -/
def unescape : List Char → List Char
  | [] => []
  | ['\\'] => ['\\']
  | '\\' :: c :: cs => escaped c :: unescape cs
  | c :: cs => c :: unescape cs

/-- The letters before the first quote. -/
def letters (text : List Char) : List Char :=
  text.takeWhile fun c => !isQuote c

/-- The text from the first quote on. -/
def body (text : List Char) : List Char :=
  text.dropWhile fun c => !isQuote c

/-- How many quotes open a body: three, or one. -/
def quoteCount : List Char → Nat
  | a :: b :: c :: _ => if a = b && b = c then 3 else 1
  | _ => 1

/-- What is left of a body without its quotes. The quotes at the end are taken for granted and counted
off in bytes, which can fail in the middle of a character. -/
def interior? (body : List Char) : Option (List Char) :=
  let count := quoteCount body
  if Text.byteSize body < 2 * count then none
  else Text.takeBytes? (Text.byteSize body - 2 * count) (body.drop count)

def isRaw (text : List Char) : Bool :=
  (letters text).any fun c => c == 'r' || c == 'R'

/-- The contents of a string or bytes literal. -/
def value? (constant : Constant) : Option String :=
  let text := constant.text.toList
  match constant.kind with
  | .string | .bytes =>
    if (body text).isEmpty then none
    else (interior? (body text)).map fun inner =>
      String.ofList (if isRaw text then inner else unescape inner)
  | _ => none

/-- Literals with a `b` before the quotes are bytes. -/
def ofLiteral (text : String) : Constant :=
  if (letters text.toList).any fun c => c == 'b' || c == 'B' then { kind := .bytes, text }
  else { kind := .string, text }

end Constant

end SqlLayout
