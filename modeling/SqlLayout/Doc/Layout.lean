import SqlLayout.Doc.Basic
import SqlLayout.Doc.Block

/-!
# Laying Out Documents

A document is laid out from the top down at a known column, so a choice sees whether its compact side
fits in the place where it really lands. A wrap is measured without deciding anything: `flat` is the form
of a document on a single line, with every choice on its compact side where that side has one.
-/

namespace SqlLayout

/-- The room on a page: the longest line allowed and the step of an indentation. -/
structure Page where
  width : Nat := 80
  indent : Nat := 2
deriving DecidableEq, Inhabited

/-- The greatest width a page can be given. -/
def Page.maxWidth : Nat := UInt64.size - 1

/-- A page so wide that a choice takes its compact side. -/
def Page.unbounded : Page := { width := Page.maxWidth }

namespace Doc

mutual

/-- The form of a document on one line, if it has one. -/
def flat (page : Page) : Doc → Option String
  | .text content => if content.toList.contains '\n' then none else some content
  | .line parts => (flats page parts).map String.join
  | .stack [] => some ""
  | .stack [only] => only.flat page
  | .stack (_ :: _ :: _) => none
  | .indent body => (body.flat page).map (Block.padLine page.indent)
  | .wrap items sep => (flats page items).map sep.intercalate
  | .choice compact full => (compact.flat page).or (full.flat page)

/-- The one-line forms of a list of documents, if all of them have one. -/
def flats (page : Page) : List Doc → Option (List String)
  | [] => some []
  | part :: parts => do return (← part.flat page) :: (← flats page parts)

end

mutual

/-- The lines of a document that starts at column `col`. -/
def layout (page : Page) : Doc → Nat → Block
  | .text content, _ => .ofText content
  | .line parts, col => layoutLine page parts col
  | .stack parts, col => .stack col (layouts page parts col)
  | .indent body, col => (body.layout page (col + page.indent)).padFirst page.indent
  | .wrap items sep, col =>
    match (flats page items).map sep.intercalate with
    | some joined =>
      if col + joined.length ≤ page.width then { first := joined }
      else .stack col (layouts page items col)
    | none => .stack col (layouts page items col)
  | .choice compact full, col =>
    let block := compact.layout page col
    if block.fits page.width col then block else full.layout page col

/-- Parts side by side: each starts where the one before it ended. -/
def layoutLine (page : Page) : List Doc → Nat → Block
  | [], _ => { first := "" }
  | part :: parts, col =>
    let block := part.layout page col
    block.append (layoutLine page parts (block.endColumn col))

/-- Parts that all start at the same column. -/
def layouts (page : Page) : List Doc → Nat → List Block
  | [], _ => []
  | part :: parts, col => part.layout page col :: layouts page parts col

end

/-- The text of a document on a page. -/
def render (page : Page) (doc : Doc) : String :=
  (doc.layout page 0).toText

end Doc

end SqlLayout
