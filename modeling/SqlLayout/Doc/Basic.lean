/-!
# Layout Documents

A document says which characters are printed and leaves open where the lines break. Text is never
broken; a line puts parts side by side and a stack puts them one below the other; a wrap joins its items
by a separator when they fit and stacks them otherwise; a choice prefers its compact side when that side
fits where it lands.
-/

namespace SqlLayout

inductive Doc where
  | text (content : String)
  | line (parts : List Doc)
  | stack (parts : List Doc)
  | indent (body : Doc)
  | wrap (items : List Doc) (sep : String)
  | choice (compact full : Doc)
deriving Inhabited

namespace Doc

def empty : Doc := .text ""

/-- Puts `suffix` after the end of a document, inside the line when the document already is one. -/
def append (doc suffix : Doc) : Doc :=
  match doc with
  | .line parts => .line (parts ++ [suffix])
  | other => .line [other, suffix]

mutual

/-- Whether a document leaves any layout open to a choice. -/
def hasChoice : Doc → Bool
  | .text _ => false
  | .line parts => anyChoice parts
  | .stack parts => anyChoice parts
  | .indent body => body.hasChoice
  | .wrap items _ => anyChoice items
  | .choice _ _ => true

/-- Whether some part of a list leaves a layout open to a choice. -/
def anyChoice : List Doc → Bool
  | [] => false
  | part :: parts => part.hasChoice || anyChoice parts

end

theorem anyChoice_eq_any (parts : List Doc) : anyChoice parts = parts.any hasChoice := by
  induction parts with
  | nil => rfl
  | cons part parts ih => simp [anyChoice, ih]

end Doc

end SqlLayout
