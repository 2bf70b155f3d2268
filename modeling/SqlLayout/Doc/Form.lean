import SqlLayout.Doc.Layout

/-!
# The Two Forms of a Piece of Syntax

Every piece of syntax has a compact form, which leaves nothing to choose, and a full one, which chooses
between the compact form and an expanded, indented one. Both are built from the forms of its parts, and
both spell the same tokens: only blanks and line breaks differ.
-/

namespace SqlLayout

structure Form where
  compact : Doc
  full : Doc
deriving Inhabited

namespace Form

def text (content : String) : Form :=
  { compact := .text content, full := .text content }

/-- The forms of parts side by side. -/
def line (parts : List Form) : Form :=
  { compact := .line (parts.map compact), full := .line (parts.map full) }

/-- A compact form, and an expanded one for where it does not fit. -/
def choose (compact expanded : Doc) : Form :=
  { compact, full := .choice compact expanded }

def append (form : Form) (suffix : String) : Form :=
  { compact := form.compact.append (.text suffix), full := form.full.append (.text suffix) }

/-- Parts on one line with single blanks between them. -/
def spaced (parts : List Doc) : Doc :=
  .line (parts.intersperse (.text " "))

/-- Parts on one line with commas between them. -/
def commaLine (parts : List Doc) : Doc :=
  .line (parts.intersperse (.text ", "))

/-- A comma after every part but the last, and `tail` after that one. -/
def withCommas (tail : String) : List Doc → List Doc
  | [] => []
  | [last] => [if tail.isEmpty then last else last.append (.text tail)]
  | part :: next :: parts => part.append (.text ",") :: withCommas tail (next :: parts)

/-- Parts joined on one line when they fit, and one per line otherwise. -/
def commaWrap (parts : List Doc) (tail : String) : Doc :=
  if parts.isEmpty then .text tail else .wrap (withCommas tail parts) " "

def commaStack (parts : List Doc) : Doc :=
  .stack (withCommas "" parts)

/-- Parts on one line with single blanks between them, or one below the other. -/
def phrases (parts : List Form) : Form :=
  choose (spaced (parts.map compact)) (.stack (parts.map full))

/-- Parts with commas between them, on one line or one per line. -/
def commas (parts : List Form) : Form :=
  { compact := commaLine (parts.map compact), full := commaStack (parts.map full) }

/-- Arguments between `head` and `tail`; where they do not fit they stand below each other at the column
after the head. -/
def call (head tail : String) (args : List Form) : Form :=
  choose (.line [.text head, commaLine (args.map compact), .text tail])
    (.line [.text head, commaWrap (args.map full) tail])

/-- A keyword and its body on one line, or the keyword above its indented body. -/
def clause (keyword : String) (body : Form) : Form :=
  choose (.line [.text (keyword ++ " "), body.compact])
    (.stack [.text keyword, .indent body.full])

/-- A keyword and a list. -/
def listClause (keyword : String) (items : List Form) : Form :=
  clause keyword (commas items)

/-- A body between `head` and `tail` on one line, or indented between them. -/
def enclosed (head : String) (body : Form) (tail : String) : Form :=
  choose (.line [.text head, body.compact, .text tail])
    (.stack [.text head, .indent body.full, .text tail])

/-- An aggregate with its modifiers after the argument. -/
def aggregate (head : String) (parts : List Form) : Form :=
  choose (.line [.text head, spaced (parts.map compact), .text ")"])
    (.stack [.text head, .indent (.stack (parts.map full)), .text ")"])

/-- Changes the first of some forms. -/
def modifyFirst (change : Form → Form) : List Form → List Form
  | [] => []
  | form :: forms => change form :: forms

/-- Changes the last of some forms. -/
def modifyLast (change : Form → Form) : List Form → List Form
  | [] => []
  | [last] => [change last]
  | form :: next :: forms => form :: modifyLast change (next :: forms)

def distinct (isDistinct : Bool) (form : Form) : Form :=
  if isDistinct then line [text "DISTINCT ", form] else form

end Form

end SqlLayout
