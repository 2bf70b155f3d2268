import SqlLayout.Text.Blank

/-!
# Blocks of Lines

A block is what a document becomes: at least one line. Its first line continues whatever stands before
it, so it is measured from the column where the block starts; the later lines stand on their own and
already carry their leading blanks. Only the first line is ever padded, which keeps the lines of a text
that spans several of them as they were written.
-/

namespace SqlLayout

structure Block where
  first : String
  rest : List String := []
deriving DecidableEq, Inhabited

namespace Block

def lines (block : Block) : List String :=
  block.first :: block.rest

/-- Breaks characters at the newlines: the first line, then the later ones. -/
def breakLines : List Char → List Char × List (List Char)
  | [] => ([], [])
  | c :: cs =>
    let (first, rest) := breakLines cs
    if c = '\n' then ([], first :: rest) else (c :: first, rest)

/-- The lines of a text. -/
def ofText (text : String) : Block :=
  let (first, rest) := breakLines text.toList
  { first := String.ofList first, rest := rest.map String.ofList }

/-- The column after the last character of a block that starts at `col`. -/
def endColumn (block : Block) (col : Nat) : Nat :=
  match block.rest.getLast? with
  | none => col + block.first.length
  | some last => last.length

/-- Appends `tail` to the last line of `lines`, where `first` is the line before them. -/
def joinLines (first : String) (lines : List String) (tail : Block) : Block :=
  match lines with
  | [] => { first := first ++ tail.first, rest := tail.rest }
  | line :: lines => { first, rest := (joinLines line lines tail).lines }

/-- Continues the last line of a block with the first line of the next one. -/
def append (block tail : Block) : Block :=
  joinLines block.first block.rest tail

/-- Puts `pad` blanks before a line, except before an empty one, which stays empty. -/
def padLine (pad : Nat) (line : String) : String :=
  if line.isEmpty then line else Text.spaces pad ++ line

def padFirst (pad : Nat) (block : Block) : Block :=
  { block with first := padLine pad block.first }

/-- Puts blocks one below the other; every block but the first moves to column `col`. -/
def stack (col : Nat) : List Block → Block
  | [] => { first := "" }
  | block :: blocks =>
    { block with rest := block.rest ++ blocks.flatMap fun later => (later.padFirst col).lines }

/-- Whether no line of a block that starts at `col` goes beyond `width`. -/
def fits (width col : Nat) (block : Block) : Bool :=
  col + block.first.length ≤ width && block.rest.all fun line => line.length ≤ width

def toText (block : Block) : String :=
  "\n".intercalate block.lines

end Block

end SqlLayout
