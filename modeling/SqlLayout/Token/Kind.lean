/-!
# Kinds of Tokens

Keywords have no kinds of their own: every keyword is a word, which leaves the words that are not
reserved free to be names. A symbol is a kind with a single spelling.
-/

namespace SqlLayout.Token

inductive Kind where
  | parenOpen | parenClose | bracketOpen | bracketClose | braceOpen | braceClose
  | comma | semicolon | dot | plus | minus | star | slash | percent
  | eq | notEq | ltGt | lt | gt | ltEq | gtEq | shiftLeft
  | concat | pipe | ampersand | caret | tilde | atSign | question | colon
  | word | quotedIdent | string | number
  | whitespace | lineComment | blockComment | garbage
deriving DecidableEq, Inhabited

namespace Kind

/-- The symbols and their spellings. A lone `>` is a token of its own even before another one, so that
two of them can close two brackets; a shift to the right is put together from two that touch. -/
def symbols : List (Kind × String) :=
  [(parenOpen, "("), (parenClose, ")"), (bracketOpen, "["), (bracketClose, "]"),
   (braceOpen, "\x7b"), (braceClose, "\x7d"), (comma, ","), (semicolon, ";"), (dot, "."),
   (plus, "+"), (minus, "-"), (star, "*"), (slash, "/"), (percent, "%"), (eq, "="), (notEq, "!="),
   (ltGt, "<>"), (lt, "<"), (gt, ">"), (ltEq, "<="), (gtEq, ">="), (shiftLeft, "<<"),
   (concat, "||"), (pipe, "|"), (ampersand, "&"), (caret, "^"), (tilde, "~"), (atSign, "@"),
   (question, "?"), (colon, ":")]

def isComment : Kind → Bool
  | lineComment | blockComment => true
  | _ => false

/-- Blanks and comments, which separate tokens and carry no meaning. -/
def isTrivia : Kind → Bool
  | whitespace | lineComment | blockComment => true
  | _ => false

/-- Operators and delimiters. -/
def isSymbol : Kind → Bool
  | word | quotedIdent | string | number | whitespace | lineComment | blockComment | garbage => false
  | _ => true

def name : Kind → String
  | parenOpen => "ParenOpen" | parenClose => "ParenClose"
  | bracketOpen => "BracketOpen" | bracketClose => "BracketClose"
  | braceOpen => "BraceOpen" | braceClose => "BraceClose"
  | comma => "Comma" | semicolon => "Semicolon" | dot => "Dot"
  | plus => "Plus" | minus => "Minus" | star => "Star" | slash => "Slash" | percent => "Percent"
  | eq => "Eq" | notEq => "NotEq" | ltGt => "LtGt" | lt => "Lt" | gt => "Gt"
  | ltEq => "LtEq" | gtEq => "GtEq" | shiftLeft => "ShiftLeft"
  | concat => "Concat" | pipe => "Pipe" | ampersand => "Ampersand" | caret => "Caret"
  | tilde => "Tilde" | atSign => "At" | question => "Question" | colon => "Colon"
  | word => "Word" | quotedIdent => "QuotedIdent" | string => "String" | number => "Number"
  | whitespace => "Whitespace" | lineComment => "LineComment" | blockComment => "BlockComment"
  | garbage => "Garbage"

def all : List Kind :=
  symbols.map Prod.fst
    ++ [word, quotedIdent, string, number, whitespace, lineComment, blockComment, garbage]

def ofName? (text : String) : Option Kind :=
  all.find? fun kind => kind.name == text

theorem mem_all (kind : Kind) : kind ∈ all := by
  cases kind <;> decide

theorem mem_symbols_iff (kind : Kind) : kind ∈ symbols.map Prod.fst ↔ kind.isSymbol := by
  cases kind <;> decide

theorem isTrivia_of_isComment (kind : Kind) (h : kind.isComment) : kind.isTrivia := by
  cases kind <;> simp_all [isComment, isTrivia]

end Kind

end SqlLayout.Token
