import SqlLayout.Text.Blank
import SqlLayout.Text.Width

/-!
# Margins

A line that is indented deeply or too long for a report is shown in part, with an ellipsis where something
was left out. A deep indentation is shortened first. If the line still has too much in it, the part that is
shown is chosen so that the marked characters and the message beside them stay in sight.
-/

namespace SqlLayout

/-- What decides which part of a line is shown, in columns from the start of the line. -/
structure Extent where
  /-- Where the line's text starts, or what is marked if that comes first. -/
  indent : Nat
  /-- Where the marked characters start and stop. -/
  start : Nat
  stop : Nat
  /-- Where the message beside them stops. -/
  reach : Nat
  /-- Where the line stops. -/
  width : Nat
deriving DecidableEq, Inhabited

/-- The part of a line that is shown. -/
structure Margin where
  /-- How many columns can be shown. -/
  room : Nat
  /-- Where the part starts. -/
  left : Nat
  /-- Where the part stops, unless the rest of the line can be shown. -/
  right : Nat
deriving DecidableEq, Inhabited

/-- A line with ellipses for what was left out. -/
structure Cut where
  before : String
  text : String
  after : String
  /-- How many columns were left out at the start. -/
  skipped : Nat
deriving DecidableEq, Inhabited

namespace Extent

/-- What is kept free beside the parts of a line that should stay in sight. -/
def slack : Nat := 6

/-- The indentation from which on it is shortened. -/
def deepIndent : Nat := 20

/-- How much of a deep indentation is kept. -/
def keptIndent : Nat := 16

/-- How many columns the leading blanks of a line take; a line of blanks alone has none. -/
def leadingBlanks (line : List Char) : Nat :=
  if line.all Text.isBlank then 0
  else (line.takeWhile Text.isBlank).foldl
    (fun columns c => columns + if c = '\t' then Text.tabWidth else 1) 0

/-- The margin that leaves `room` columns. -/
def margin (extent : Extent) (room : Nat) : Margin :=
  let indent := extent.indent - slack
  let start := extent.start - slack
  let stop := extent.stop + slack
  let reach := extent.reach + slack
  let shortened := if deepIndent < indent then indent - keptIndent else 0
  let startingAt (left : Nat) : Margin := { room, left, right := left + room }
  if extent.width - shortened ≤ room then
    { room, left := shortened, right := max extent.width shortened }
  else if reach - indent ≤ room then startingAt indent
  else if reach - start ≤ room then startingAt (start - (room - (reach - start)) / 2)
  else if stop - start ≤ room then startingAt (start - (room - (stop - start)) / 5 * 2)
  else { room, left := start, right := stop }

end Extent

namespace Margin

def ellipsis : String := "..."

/-- The blanks that fill an ellipsis up to a width. -/
def filler (width : Nat) : String :=
  Text.spaces (width - ellipsis.length)

/-- Cuts a line that holds nothing but characters drawn as they are. An ellipsis stands in the place of
as many characters as it covers. -/
def cut (margin : Margin) (line : List Char) : Cut :=
  let width := Text.displayWidth line
  let left := min margin.left width
  let right := if width - margin.left ≤ margin.room then width else min width margin.right
  let rest := Text.dropColumns left line
  let shown := Text.takeColumns (right - left) rest
  let afterFirst := Text.dropColumns ellipsis.length shown
  let beforeLast := (Text.dropColumns ellipsis.length shown.reverse).reverse
  let covered (kept : List Char) : String := filler (Text.displayWidth shown - Text.displayWidth kept)
  let text := if margin.left = 0 then shown else afterFirst
  { before := if margin.left = 0 then "" else covered afterFirst ++ ellipsis
    text := String.ofList
      (if width ≤ right then text else text.take (text.length - (shown.length - beforeLast.length)))
    after := if width ≤ right then "" else ellipsis ++ covered beforeLast
    skipped := width - Text.displayWidth rest }

end Margin

end SqlLayout
