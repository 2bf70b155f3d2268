import SqlLayout.Doc.Query
import SqlLayout.Syntax.Statement

/-!
# Documents of Statements and Scripts

Statements are separated by semicolons and, unless the layout is compact, by empty lines; the comments
of a statement stand above it. A script with comments after its last statement keeps the semicolon there,
so that those comments cannot belong to the statement when the text is read again.
-/

namespace SqlLayout

/-- How a text is laid out: with as few line breaks as its tokens allow, or on a page. -/
structure Style where
  compact : Bool := false
  page : Page := {}
deriving DecidableEq, Inhabited

namespace Style

/-- The page that documents of a style are laid out on. -/
def effectivePage (style : Style) : Page :=
  if style.compact then Page.unbounded else style.page

/-- The form a style asks for. -/
def pick (style : Style) (form : Form) : Doc :=
  if style.compact then form.compact else form.full

end Style

def createHead (orReplace : Bool) (temporary : Option TempKeyword) (object : String) : String :=
  let head := if orReplace then "CREATE OR REPLACE" else "CREATE"
  let head :=
    match temporary with
    | some keyword => head ++ " " ++ keyword.text
    | none => head
  head ++ " " ++ object

def declarationForms (declarations : List Declaration) : List Form :=
  declarations.map fun declaration => .text declaration.text

def OptionItem.form (item : OptionItem) : Form :=
  .line [.text (item.name.raw ++ " = "), item.value.form.toForm]

def optionForms (options : List OptionItem) : List Form :=
  if options.isEmpty then [] else [.call "OPTIONS(" ")" (options.map OptionItem.form)]

def FunctionBody.forms : FunctionBody → List Form
  | .sql body => [.clause "AS" body.form.toForm]
  | .foreign language code options =>
    [.text ("LANGUAGE " ++ language.raw), .text ("AS " ++ code.text)] ++ optionForms options

def FunctionDef.form (function : FunctionDef) : Form :=
  let head := createHead function.orReplace function.temporary "FUNCTION"
  let returns :=
    match function.returns with
    | some type => [Form.text ("RETURNS " ++ type.text)]
    | none => []
  .phrases
    (.call (head ++ " " ++ function.name.dotted ++ "(") ")" (declarationForms function.params)
      :: returns ++ function.body.forms)

def objectHead (head : String) (ifNotExists : Bool) (name : QualifiedName) : String :=
  (if ifNotExists then head ++ " IF NOT EXISTS" else head) ++ " " ++ name.dotted

def TableDef.form (table : TableDef) : Form :=
  let head :=
    objectHead (createHead table.orReplace table.temporary "TABLE") table.ifNotExists table.name
  let columns :=
    if table.columns.isEmpty then Form.text head
    else .call (head ++ " (") ")" (declarationForms table.columns)
  let query :=
    match table.query with
    | some query => [Form.clause "AS" query.form]
    | none => []
  .phrases (columns :: optionForms table.options ++ query)

def ViewDef.form (view : ViewDef) : Form :=
  let head := objectHead (createHead view.orReplace none "VIEW") view.ifNotExists view.name
  .phrases (.text head :: optionForms view.options ++ [.clause "AS" view.query.form])

def rowForm (row : List Expr) : Form :=
  .call "(" ")" (exprForms row)

def Insertion.form (insertion : Insertion) : Form :=
  let columns :=
    if insertion.columns.isEmpty then ""
    else " (" ++ ", ".intercalate (insertion.columns.map Identifier.raw) ++ ")"
  let head := "INSERT INTO " ++ insertion.table.dotted ++ columns
  match insertion.source with
  | .query query =>
    .choose (.line [.text (head ++ " "), query.form.compact])
      (.stack [.text head, query.form.full])
  | .values rows =>
    let rows := Form.commas (rows.map rowForm)
    .choose (.line [.text (head ++ " VALUES "), rows.compact])
      (.stack [.text head, (Form.clause "VALUES" rows).full])

def Action.form : Action → Form
  | .query body => body.form
  | .createFunction definition => definition.form
  | .createTable definition => definition.form
  | .createView definition => definition.form
  | .insert insertion => insertion.form

def commentDocs (comments : List String) : List Doc :=
  comments.map Doc.text

/-- The comments of a statement and the statement, with a semicolon if one has to follow. -/
def Statement.docs (style : Style) (isTerminated : Bool) (statement : Statement) : List Doc :=
  let doc := style.pick statement.action.form
  commentDocs statement.comments ++ [if isTerminated then doc.append (.text ";") else doc]

/-- What stands between two statements. -/
def Style.gap (style : Style) : List Doc :=
  if style.compact then [] else [Doc.empty]

/-- The documents of statements; the last one is terminated only if it is said to be. -/
def statementDocs (style : Style) (lastIsTerminated : Bool) : List Statement → List Doc
  | [] => []
  | [last] => last.docs style lastIsTerminated
  | statement :: next :: statements =>
    statement.docs style true ++ style.gap
      ++ statementDocs style lastIsTerminated (next :: statements)

def Script.doc (style : Style) (script : Script) : Doc :=
  let isTerminated := !script.trailingComments.isEmpty
  let gap := if script.statements.isEmpty || !isTerminated then [] else style.gap
  .stack (statementDocs style isTerminated script.statements ++ gap
    ++ commentDocs script.trailingComments)

/-- The text of a script. -/
def Script.render (style : Style) (script : Script) : String :=
  (script.doc style).render style.effectivePage

/-- The text of an expression. -/
def Expr.render (style : Style) (expr : Expr) : String :=
  (style.pick expr.form.toForm).render style.effectivePage

/-- The text of a query on as few lines as its tokens allow. -/
def Query.compactText (query : Query) : String :=
  query.form.compact.render Page.unbounded

end SqlLayout
