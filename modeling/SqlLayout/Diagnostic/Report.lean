import SqlLayout.Diagnostic.Basic
import SqlLayout.Diagnostic.Margin
import SqlLayout.Doc.Block

/-!
# Reports

A report shows a diagnostic together with the line of the source it is about: a title, the place in the
source, and the line with carets and the message below it. Carets stand below what is shown, so they are
counted in columns of the terminal, while the place names lines and characters. The title and the line are
shown with pictures for characters that would act on the terminal; the message beside the carets is shown
as it is. A report may be coloured; colours add nothing but escape sequences.
-/

namespace SqlLayout

namespace Report

/-- How a piece of a report is set off from the rest. -/
inductive Tone where
  | plain | bold | alarm | frame
deriving DecidableEq, Inhabited

def Tone.escape : Tone → String
  | plain => ""
  | bold => "\x1b[1m"
  | alarm => "\x1b[1m\x1b[91m"
  | frame => "\x1b[1m\x1b[94m"

/-- A part of a line in one tone. -/
structure Piece where
  tone : Tone
  text : String
deriving DecidableEq, Inhabited

def Piece.render (isColored : Bool) (piece : Piece) : String :=
  if isColored && piece.tone ≠ .plain && !piece.text.isEmpty then
    piece.tone.escape ++ piece.text ++ "\x1b[0m"
  else piece.text

def plain (text : String) : Piece := { tone := .plain, text }

def bold (text : String) : Piece := { tone := .bold, text }

def alarm (text : String) : Piece := { tone := .alarm, text }

def frame (text : String) : Piece := { tone := .frame, text }

/-- How many columns the lines of a report take at most. -/
def columns : Nat := 140

/-- The line of a source that a diagnostic is about. -/
structure Excerpt where
  /-- The characters of the line, without the line break. -/
  line : List Char
  /-- The number of the line. -/
  number : Nat
  /-- The place of the first marked character in its line, counted from one. -/
  column : Nat
  /-- How many columns of the terminal are left of the marked characters. -/
  start : Nat
  /-- How many columns they take. -/
  carets : Nat
deriving DecidableEq, Inhabited

/-- Drops a carriage return before a newline, which belongs to the line break. -/
def trimReturn (line : List Char) : List Char :=
  if line.getLast? = some '\r' then line.dropLast else line

/-- The excerpt around `marked` characters, with those before and those after them. What is marked of the
line break is shown as one caret at the end of the line. -/
def Excerpt.around (before marked after : List Char) : Excerpt :=
  let start := Text.lastLine before
  let rest := marked ++ after
  let line := start ++ rest.takeWhile (· ≠ '\n')
  let line := if rest.contains '\n' then trimReturn line else line
  { line
    number := (Text.endPosition before).1
    column := (Text.endPosition before).2
    start := Text.displayWidth (line.take start.length)
    carets := max 1 (Text.displayWidth ((line.drop start.length).take marked.length)) }

/-- The excerpt around the last character of a source. -/
def Excerpt.atLast (source : List Char) : Excerpt :=
  around source.dropLast (source.drop (source.length - 1)) []

/-- The excerpt around the end of a source. What comes after a final newline is still shown on the line
before it, as its second column past the text. -/
def Excerpt.atEnd (source : List Char) : Excerpt :=
  if source.getLast? = some '\n' then
    let last := atLast source
    { last with column := last.line.length + 2 }
  else around source [] []

/-- The excerpt for a span. An empty span stands for the character after it, or at the end of the source
for the last one. -/
def Excerpt.ofSpan (source : List Char) (span : Span) : Excerpt :=
  let before := Text.before source span.start
  match source.drop before.length with
  | [] => if span.isEmpty then atLast source else atEnd source
  | c :: rest =>
    let marked := if span.isEmpty then [c] else Text.before (c :: rest) (span.stop - span.start)
    around before marked ((c :: rest).drop marked.length)

/-- How many columns the number of the line takes. -/
def Excerpt.gutter (excerpt : Excerpt) : Nat :=
  (toString excerpt.number).length

/-- What decides which part of the line is shown beside a message. -/
def Excerpt.extent (message : String) (excerpt : Excerpt) : Extent :=
  let stop := excerpt.start + excerpt.carets
  { indent := min (Extent.leadingBlanks excerpt.line) excerpt.start
    start := excerpt.start
    stop
    reach := stop + Text.displayWidth message.toList + 1
    width := Text.displayWidth excerpt.line }

/-- The part of the line that is shown beside a message, right of the gutter and a bar. -/
def Excerpt.cut (message : String) (excerpt : Excerpt) : Cut :=
  ((excerpt.extent message).margin (columns - (excerpt.gutter + 3))).cut (Text.pictured excerpt.line)

/-- The title; the later lines of a message stand below its first one. -/
def titleLines (message : String) : List (List Piece) :=
  let title := Block.ofText (String.ofList (Text.pictured message.toList))
  [alarm "error", bold (": " ++ title.first)]
    :: title.rest.map fun line => [plain (Text.spaces "error: ".length), bold line]

def placeLine (gutter path : String) (excerpt : Excerpt) : List Piece :=
  [plain gutter, frame "--> ",
    plain (path ++ ":" ++ toString excerpt.number ++ ":" ++ toString excerpt.column)]

def sourceLine (cut : Cut) (excerpt : Excerpt) : List Piece :=
  let shown := [frame cut.before, plain cut.text, frame cut.after]
  [frame (toString excerpt.number), plain " ", frame "|"]
    ++ if shown.all (·.text.isEmpty) then [] else plain " " :: shown

def caretLine (gutter message : String) (cut : Cut) (excerpt : Excerpt) : List Piece :=
  [plain (gutter ++ " "), frame "|", plain (" " ++ Text.spaces (excerpt.start - cut.skipped)),
    alarm (String.ofList (List.replicate excerpt.carets '^'))]
    ++ if message.isEmpty then [] else [plain " ", alarm message]

/-- The lines of a report; the place is left out when the source has no name. -/
def lines (path : Option String) (message : String) (excerpt : Excerpt) : List (List Piece) :=
  let gutter := Text.spaces excerpt.gutter
  let cut := excerpt.cut message
  titleLines message
    ++ path.toList.map (placeLine gutter · excerpt)
    ++ [[plain (gutter ++ " "), frame "|"], sourceLine cut excerpt,
      caretLine gutter message cut excerpt]

def render (isColored : Bool) (lines : List (List Piece)) : String :=
  "\n".intercalate (lines.map fun pieces => String.join (pieces.map (Piece.render isColored)))

end Report

/-- The report on a diagnostic about a source. -/
def Diagnostic.report (source : String) (path : Option String) (isColored : Bool)
    (diagnostic : Diagnostic) : String :=
  let excerpt := Report.Excerpt.ofSpan source.toList diagnostic.span
  Report.render isColored (Report.lines path diagnostic.message excerpt)

/-- The reports on some diagnostics about a source, one below the other. -/
def Diagnostic.reports (source : String) (path : Option String) (isColored : Bool)
    (diagnostics : List Diagnostic) : String :=
  "\n".intercalate (diagnostics.map (report source path isColored))

end SqlLayout
