import SqlLayout.Grammar.Query
import SqlLayout.Syntax.Statement

/-!
# Statements and Scripts

The alternatives for a statement are told apart by their first words. A script is statements separated by
semicolons; empty ones between them are passed over.
-/

namespace SqlLayout.Grammar

open Rule

def temporary? : Rule (Option TempKeyword) := do
  if ← skip "TEMP" then return some .temp
  if ← skip "TEMPORARY" then return some .temporary
  return none

/-- `CREATE [OR REPLACE] [TEMP | TEMPORARY]` and the kind of object. -/
def createHead? (object : String) : Rule (Option (Bool × Option TempKeyword)) := do
  if ← skip "CREATE" then
    let orReplace ← skipAll ["OR", "REPLACE"]
    let temporary ← temporary?
    return if ← skip object then some (orReplace, temporary) else none
  else return none

def ifNotExists : Rule Bool :=
  skipAll ["IF", "NOT", "EXISTS"]

namespace Nested

variable (nested : Nested)

def declaration : Rule Declaration :=
  require "a name and type" (declarationWith? nested.type?)

def optionItem : Rule OptionItem := do
  let name ← identifier
  discard <| expect "="
  return { name, value := ← nested.expr }

def options : Rule (List OptionItem) := do
  if ← skip "OPTIONS" then parenthesized nested.optionItem else return []

/-- Code in another language, after the word `LANGUAGE`. -/
def foreignBody : Rule FunctionBody := do
  let language ← identifier
  discard <| expect "AS"
  if (← kind?) = some .string then
    let code ← constant
    return .foreign language code (← nested.options)
  else expected "a string literal"

def functionBody : Rule FunctionBody := do
  if ← skip "LANGUAGE" then nested.foreignBody
  else
    discard <| expect "AS"
    return .sql (← nested.expr)

def createFunction? : Rule (Option Action) := do
  match ← createHead? "FUNCTION" with
  | none => return none
  | some (orReplace, temporary) =>
    let name ← qualifiedName
    let params ← parenthesized nested.declaration
    let returns ← if ← skip "RETURNS" then some <$> nested.type else pure none
    let body ← nested.functionBody
    return some (.createFunction { orReplace, temporary, name, params, returns, body })

def createTable? : Rule (Option Action) := do
  match ← createHead? "TABLE" with
  | none => return none
  | some (orReplace, temporary) =>
    let ifNotExists ← ifNotExists
    let name ← qualifiedName
    let columns ← if ← sees "(" then parenthesized nested.declaration else pure []
    let options ← nested.options
    let query ← if ← skip "AS" then some <$> nested.query else pure none
    return some
      (.createTable { orReplace, temporary, ifNotExists, name, columns, options, query })

/-- A view; it cannot be a temporary one. -/
def createView? : Rule (Option Action) := do
  match ← createHead? "VIEW" with
  | some (orReplace, none) =>
    let ifNotExists ← ifNotExists
    let name ← qualifiedName
    let options ← nested.options
    discard <| expect "AS"
    return some (.createView { orReplace, ifNotExists, name, options, query := ← nested.query })
  | _ => return none

/-- The columns of an insertion; a parenthesis that starts a query is none of them. -/
def insertColumns : Rule (List Identifier) := do
  let isList ← ask fun cursor =>
    cursor.sees "(" && !cursor.seesAnyAt 1 queryStarts
  if isList then parenthesized identifier else return []

def insertSource : Rule InsertSource := do
  if ← skip "VALUES" then
    return .values (← commaSeparated (parenthesized nested.expr))
  return .query (← nested.query)

def insert? : Rule (Option Action) := do
  if ← skip "INSERT" then
    discard <| skip "INTO"
    let table ← qualifiedName
    let columns ← insertColumns
    return some (.insert { table, columns, source := ← nested.insertSource })
  else return none

def action? : Rule (Option Action) :=
  firstOf
    [nested.createFunction?, nested.createTable?, nested.createView?, nested.insert?,
      Option.map Action.query <$> nested.queryHere?]

/-- An action and the comments up to its end. -/
def statement? : Rule (Option Statement) := do
  match ← nested.action? with
  | none => return none
  | some action => return some { comments := ← comments, action }

/-- The next statement of a script with the semicolon after it, which only the last one may lack. -/
def scriptItem? : Rule (Option Statement) := do
  discard <| many do return if ← skip ";" then some () else none
  if ← ask (·.atEnd) then return none
  let statement ← require "a statement" nested.statement?
  if !(← skip ";") then
    if !(← ask (·.atEnd)) then
      return ← expected "\x60;\x60 or end of input"
  return some statement

def script : Rule Script := do
  let statements ← many nested.scriptItem?
  return { statements, trailingComments := ← comments }

end Nested

/-- An expression that takes up everything that is left. -/
def wholeExpr : Rule Expr := do
  let expr ← atDepth Nested.expr
  if ← ask (·.atEnd) then return expr else expected "end of input"

end SqlLayout.Grammar

namespace SqlLayout

/-- The script a source is the text of. -/
def Script.ofSource (source : String) : Except Failure Script :=
  (Grammar.atDepth Grammar.Nested.script).runOn source

/-- The expression a source is the text of. -/
def Expr.ofSource (source : String) : Except Failure Expr :=
  Grammar.wholeExpr.runOn source

end SqlLayout
