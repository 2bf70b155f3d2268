import SqlLayout.Text.Blank

/-!
# Outlines

An outline is a tree of labels. It is written one label per line, each two blanks further in than the one
above it in the tree.
-/

namespace SqlLayout

inductive Outline where
  | node (label : String) (children : List Outline)
deriving Inhabited

namespace Outline

def leaf (label : String) : Outline :=
  .node label []

/-- A label above a single outline. -/
def above (label : String) (child : Outline) : Outline :=
  .node label [child]

def margin (depth : Nat) : String :=
  Text.spaces (2 * depth)

mutual

/-- The lines of an outline at a depth. -/
def lines (depth : Nat) : Outline → List String
  | .node label children => (margin depth ++ label) :: childLines (depth + 1) children

def childLines (depth : Nat) : List Outline → List String
  | [] => []
  | child :: children => child.lines depth ++ childLines depth children

end

/-- The text of an outline; every line ends with a newline. -/
def render (outline : Outline) : String :=
  String.join ((outline.lines 0).map (· ++ "\n"))

end Outline

end SqlLayout
