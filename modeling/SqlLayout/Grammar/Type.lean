import SqlLayout.Grammar.Name

/-!
# Types

The element of an array and the fields of a structure are read one level deeper, so a type is described
by the rules for those two, and the rules for a number of levels are built from the innermost outwards.
-/

namespace SqlLayout.Grammar

open Rule

/-- Parameters in parentheses, the first of which is a number. -/
def typeParams : Rule (List Constant) := do
  if (← sees "(") && (← ask (·.kind? 1)) = some .number then
    discard <| expect "("
    let params ← commaSeparated constant
    discard <| expect ")"
    return params
  else return []

/-- A type, by the rules for an element and for the fields after `<`. -/
def typeWith? (element : Rule SqlType) (fields : Rule (List Field)) : Rule (Option SqlType) := do
  if ← skipAll ["ANY", "TYPE"] then return some .any
  if ← skipAll ["ARRAY", "<"] then
    let type ← element
    discard <| expect ">"
    return some (.array type)
  if ← skipAll ["STRUCT", "<>"] then return some (.struct [])
  if ← skipAll ["STRUCT", "<"] then return some (.struct (← fields))
  match ← takeKind? .word with
  | some raw => return some (.named { raw } (← typeParams))
  | none => return none

/-- A field: two names in a row are a name and its type, a lone one is a type. -/
def fieldWith (type : Rule (Option SqlType)) : Rule Field := do
  let isNamed ← ask fun cursor =>
    (cursor.kind? = some .word || cursor.kind? = some .quotedIdent) && cursor.kind? 1 = some .word
  let name ← if isNamed then segment? else pure none
  return { name, type := ← require "a type" type }

/-- Fields after `<`, up to the `>` that closes them. -/
def fieldsWith (type : Rule (Option SqlType)) : Rule (List Field) := do
  if ← skip ">" then return []
  let fields ← commaSeparated (fieldWith type)
  discard <| expect ">"
  return fields

mutual

/-- The element of an array, with a number of levels left. -/
def elementAt : Nat → Rule SqlType
  | 0 => tooDeep
  | levels + 1 => descend (require "a type" (typeWith? (elementAt levels) (nestedFieldsAt levels)))

/-- The fields of a structure, with a number of levels left. -/
def nestedFieldsAt : Nat → Rule (List Field)
  | 0 => tooDeep
  | levels + 1 => descend (fieldsWith (typeWith? (elementAt levels) (nestedFieldsAt levels)))

end

def typeAt? (levels : Nat) : Rule (Option SqlType) :=
  typeWith? (elementAt levels) (nestedFieldsAt levels)

/-- Fields that are not read deeper than what stands before them. -/
def fieldsAt (levels : Nat) : Rule (List Field) :=
  fieldsWith (typeAt? levels)

def declarationWith? (type : Rule (Option SqlType)) : Rule (Option Declaration) := do
  match ← identifier? with
  | some name => return some { name, type := ← require "a type" type }
  | none => return none

end SqlLayout.Grammar
