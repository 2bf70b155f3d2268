import SqlLayout.Syntax.Constant
import SqlLayout.Syntax.Name

/-!
# Types

Scalar types, perhaps with parameters, arrays and structures. A field of a structure may lack a name,
and `ANY TYPE` stands for whatever a parameter of a function is given.
-/

namespace SqlLayout

mutual

inductive SqlType where
  | named (name : Identifier) (params : List Constant)
  | array (element : SqlType)
  | struct (fields : List Field)
  | any

structure Field where
  name : Option Identifier
  type : SqlType

end

instance : Inhabited SqlType := ⟨.any⟩

mutual

/-- The text of a type, always on one line. -/
def SqlType.text : SqlType → String
  | .named name [] => name.raw
  | .named name params => name.raw ++ "(" ++ ", ".intercalate (params.map Constant.text) ++ ")"
  | .array element => "ARRAY<" ++ element.text ++ ">"
  | .struct fields => "STRUCT<" ++ ", ".intercalate (fieldTexts fields) ++ ">"
  | .any => "ANY TYPE"

def fieldTexts : List Field → List String
  | [] => []
  | ⟨none, type⟩ :: fields => type.text :: fieldTexts fields
  | ⟨some name, type⟩ :: fields => (name.raw ++ " " ++ type.text) :: fieldTexts fields

end

/-- The text of a list of fields. -/
def fieldsText (fields : List Field) : String :=
  ", ".intercalate (fieldTexts fields)

/-- A name with its type: a parameter or a column. -/
structure Declaration where
  name : Identifier
  type : SqlType
deriving Inhabited

def Declaration.text (declaration : Declaration) : String :=
  declaration.name.raw ++ " " ++ declaration.type.text

end SqlLayout
