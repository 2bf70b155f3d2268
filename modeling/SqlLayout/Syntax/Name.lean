/-!
# Names

A name keeps the spelling it was written with, backquotes included; what it refers to is the spelling
without them. A qualified name has one segment or more.
-/

namespace SqlLayout

structure Identifier where
  raw : String
deriving DecidableEq, Inhabited

namespace Identifier

def backquote : Char := '\x60'

/-- The characters between two backquotes that enclose the whole text. -/
def enclosed? : List Char → Option (List Char)
  | [] => none
  | c :: cs => if c = backquote && cs.getLast? = some backquote then some cs.dropLast else none

def isQuoted (name : Identifier) : Bool :=
  (enclosed? name.raw.toList).isSome

/-- The name without the backquotes around it. -/
def unquoted (name : Identifier) : String :=
  match enclosed? name.raw.toList with
  | some cs => String.ofList cs
  | none => name.raw

end Identifier

/-- A dotted name such as `project.dataset.table`. -/
structure QualifiedName where
  first : Identifier
  rest : List Identifier := []
deriving DecidableEq, Inhabited

namespace QualifiedName

def segments (name : QualifiedName) : List Identifier :=
  name.first :: name.rest

def last (name : QualifiedName) : Identifier :=
  name.rest.getLastD name.first

def isSingle (name : QualifiedName) : Bool :=
  name.rest.isEmpty

/-- The name as written. -/
def dotted (name : QualifiedName) : String :=
  ".".intercalate (name.segments.map Identifier.raw)

/-- The name without any backquotes, which is what two spellings of one table share. -/
def unquoted (name : QualifiedName) : String :=
  ".".intercalate (name.segments.map Identifier.unquoted)

theorem segments_ne_nil (name : QualifiedName) : name.segments ≠ [] :=
  List.cons_ne_nil _ _

theorem getLast_segments (name : QualifiedName) :
    name.segments.getLast name.segments_ne_nil = name.last := by
  exact List.getLast_eq_getLastD _

end QualifiedName

end SqlLayout
