import SqlLayout.Syntax.Query

/-!
# Statements

A statement is what it does together with the comments found while it was read, which are printed above
it. A script is a list of statements and the comments after the last of them.
-/

namespace SqlLayout

/-- `key = value` inside `OPTIONS(…)`. -/
structure OptionItem where
  name : Identifier
  value : Expr
deriving Inhabited

inductive FunctionBody where
  | sql (body : Expr)
  | foreign (language : Identifier) (code : Constant) (options : List OptionItem)

structure FunctionDef where
  orReplace : Bool
  temporary : Option TempKeyword
  name : QualifiedName
  params : List Declaration
  returns : Option SqlType
  body : FunctionBody

structure TableDef where
  orReplace : Bool
  temporary : Option TempKeyword
  ifNotExists : Bool
  name : QualifiedName
  columns : List Declaration
  options : List OptionItem
  query : Option Query

structure ViewDef where
  orReplace : Bool
  ifNotExists : Bool
  name : QualifiedName
  options : List OptionItem
  query : Query

inductive InsertSource where
  | query (query : Query)
  | values (rows : List (List Expr))

structure Insertion where
  table : QualifiedName
  columns : List Identifier
  source : InsertSource

inductive Action where
  | query (query : Query)
  | createFunction (function : FunctionDef)
  | createTable (table : TableDef)
  | createView (view : ViewDef)
  | insert (insertion : Insertion)

namespace Action

def kind : Action → String
  | query _ => "Query"
  | createFunction _ => "CreateFunction"
  | createTable _ => "CreateTable"
  | createView _ => "CreateView"
  | insert _ => "Insert"

/-- The table an action writes. -/
def written? : Action → Option QualifiedName
  | query _ | createFunction _ => none
  | createTable table => some table.name
  | createView view => some view.name
  | insert insertion => some insertion.table

def query? : Action → Option Query
  | query body => some body
  | _ => none

end Action

structure Statement where
  comments : List String
  action : Action

structure Script where
  statements : List Statement
  trailingComments : List String

namespace Script

/-- The first statement of a script that is a query. -/
def firstQuery? (script : Script) : Option Query :=
  script.statements.findSome? fun statement => statement.action.query?

/-- Every comment of a script, in order. -/
def comments (script : Script) : List String :=
  script.statements.flatMap Statement.comments ++ script.trailingComments

end Script

end SqlLayout
