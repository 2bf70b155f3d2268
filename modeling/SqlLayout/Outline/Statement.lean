import SqlLayout.Outline.Query
import SqlLayout.Syntax.Statement
import SqlLayout.Text.Quoted

/-!
# Outlines of Statements and Scripts

Comments come first below their statement, quoted, unless they are left out.
-/

namespace SqlLayout

def optionOutlines (options : List OptionItem) : List Outline :=
  options.map fun item => .above ("Option " ++ item.name.raw) item.value.outline

def declarationOutlines (label : String) (declarations : List Declaration) : List Outline :=
  declarations.map fun declaration => .leaf (label ++ " " ++ declaration.text)

def commentOutlines (comments : List String) : List Outline :=
  comments.map fun comment => .leaf ("Comment " ++ Text.quoted comment)

def FunctionBody.outlines : FunctionBody → List Outline
  | .sql body => [.above "Body" body.outline]
  | .foreign language code options =>
    [.leaf ("Language " ++ language.raw), .leaf ("Code " ++ Text.quoted code.text)]
      ++ optionOutlines options

def InsertSource.outline : InsertSource → Outline
  | .query body => body.outline
  | .values rows => .node "Values" (rows.map fun row => .node "Row" (exprOutlines row))

namespace Action

def label : Action → String
  | query _ => "QueryStatement"
  | createFunction definition =>
    flagged ("CreateFunction " ++ definition.name.dotted)
      [flag definition.orReplace "OR REPLACE", definition.temporary.map TempKeyword.text]
  | createTable definition =>
    flagged ("CreateTable " ++ definition.name.dotted)
      [flag definition.orReplace "OR REPLACE", definition.temporary.map TempKeyword.text,
        flag definition.ifNotExists "IF NOT EXISTS"]
  | createView definition =>
    flagged ("CreateView " ++ definition.name.dotted)
      [flag definition.orReplace "OR REPLACE", flag definition.ifNotExists "IF NOT EXISTS"]
  | insert insertion => "Insert " ++ insertion.table.dotted

def outlines : Action → List Outline
  | query body => [body.outline]
  | createFunction definition =>
    declarationOutlines "Param" definition.params
      ++ (definition.returns.map fun type => Outline.leaf ("Returns " ++ type.text)).toList
      ++ definition.body.outlines
  | createTable definition =>
    declarationOutlines "Column" definition.columns ++ optionOutlines definition.options
      ++ (definition.query.map Query.outline).toList
  | createView definition => optionOutlines definition.options ++ [definition.query.outline]
  | insert insertion =>
    (if insertion.columns.isEmpty then []
      else [.leaf ("Columns " ++ identifierList insertion.columns)])
      ++ [insertion.source.outline]

end Action

def Statement.outline (showsComments : Bool) (statement : Statement) : Outline :=
  .node statement.action.label
    ((if showsComments then commentOutlines statement.comments else [])
      ++ statement.action.outlines)

def Script.outline (script : Script) (showsComments : Bool := true) : Outline :=
  .node "Script"
    (script.statements.map (Statement.outline showsComments)
      ++ if showsComments then commentOutlines script.trailingComments else [])

end SqlLayout
