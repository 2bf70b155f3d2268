import SqlLayout.Doc.Form
import SqlLayout.Syntax.Query

/-!
# Forms of Expressions and Queries

Operands of one operator that stand in a chain are printed below each other when the chain does not fit
on a line, so the form of an expression also knows the operands of the chain it ends.
-/

namespace SqlLayout

/-- The form of an expression. If it is a binary one, `chain` holds its operator and the operands of
that operator from the left. -/
structure ExprForm extends Form where
  chain : Option (BinaryOp × List Doc) := none
deriving Inhabited

namespace ExprForm

/-- The operands an expression brings into a chain of an operator. -/
def operands (op : BinaryOp) (form : ExprForm) : List Doc :=
  match form.chain with
  | some (inner, docs) => if inner = op then docs else [form.full]
  | none => [form.full]

/-- Operands below each other, the operator before each but the first. -/
def chainDoc (op : BinaryOp) : List Doc → Doc
  | [] => .stack []
  | first :: rest => .stack (first :: rest.map fun doc => .line [.text (op.text ++ " "), doc])

def binary (op : BinaryOp) (left right : ExprForm) : ExprForm :=
  let docs := left.operands op ++ [right.full]
  { Form.choose (.line [left.compact, .text (" " ++ op.text ++ " "), right.compact])
      (chainDoc op docs) with
    chain := some (op, docs) }

end ExprForm

/-- Whether an expression starts with a sign, which must not touch a sign before it: two of them would
start a comment. -/
def Expr.isSigned : Expr → Bool
  | .unary op _ => op ≠ .not
  | _ => false

/-- What stands before the operand of a unary operator. -/
def unaryHead (op : UnaryOp) (operand : Expr) : String :=
  if op = .not || operand.isSigned then op.text ++ " " else op.text

def aliasSuffix : Option Identifier → String
  | some name => " AS " ++ name.raw
  | none => ""

def aliased (form : Form) : Option Identifier → Form
  | some name => form.append (" AS " ++ name.raw)
  | none => form

def sortSuffix (form : Form) (direction : Option Direction) (nulls : Option NullsOrder) : Form :=
  let directed :=
    match direction with
    | some direction => form.append (" " ++ direction.text)
    | none => form
  match nulls with
  | some nulls => directed.append (" " ++ nulls.text)
  | none => directed

def indexForm (base position : Form) : Option IndexKind → Form
  | some kind => .line [base, .text "[", .text (kind.text ++ "("), position, .text ")]"]
  | none => .line [base, .text "[", position, .text "]"]

def accessorForm (position : Form) : Option Identifier → Form
  | some name => .line [.text ("[" ++ name.raw ++ "("), position, .text ")]"]
  | none => .line [.text "[", position, .text "]"]

/-- The window of an analytic function; an empty one stays on its line. -/
def windowForm (clauses : List Form) : Form :=
  let line := Doc.line [.text "OVER (", Form.spaced (clauses.map Form.compact), .text ")"]
  if clauses.isEmpty then { compact := line, full := line }
  else .choose line
    (.stack [.text "OVER (", .indent (.stack (clauses.map Form.full)), .text ")"])

def callForm (function : QualifiedName) (distinct : Bool) (args : List Form)
    (nulls : Option NullHandling) : Form :=
  let args := Form.modifyFirst (Form.distinct distinct) args
  let args :=
    match nulls with
    | some nulls => Form.modifyLast (Form.append · (" " ++ nulls.text)) args
    | none => args
  .call (function.dotted ++ "(") ")" args

/-- A join; a comma stays at the end of the table before it. -/
def joinForm (left : Form) (kind : JoinKind) (right condition : Form) : Form :=
  if kind = .comma then
    .choose (.line [left.compact, .text ", ", right.compact])
      (.stack [left.full.append (.text ","), right.full])
  else
    .choose (.line [left.compact, .text (" " ++ kind.text ++ " "), right.compact, condition.compact])
      (.stack [left.full, .line [.text (kind.text ++ " "), right.full, condition.full]])

def selectHead (distinct : Bool) (shape : Option SelectAs) : String :=
  let head := if distinct then "SELECT DISTINCT" else "SELECT"
  match shape with
  | some shape => head ++ " " ++ shape.text
  | none => head

def combineText (op : SetOperator) : Option SetQuantifier → String
  | some quantifier => op.text ++ " " ++ quantifier.text
  | none => op.text

def identifierForms (names : List Identifier) : List Form :=
  names.map fun name => .text name.raw

/-- A list in parentheses after a keyword, always on one line; nothing if it is empty. -/
def listSuffix (keyword : String) (items : List Form) : List Form :=
  if items.isEmpty then []
  else
    [.text (" " ++ keyword ++ " ("),
     { compact := Form.commaLine (items.map Form.compact),
       full := Form.commaLine (items.map Form.full) },
     .text ")"]

mutual

def Expr.form : Expr → ExprForm
  | .constant constant => { toForm := .text constant.text }
  | .name name => { toForm := .text name.dotted }
  | .star => { toForm := .text "*" }
  | .call function distinct args nulls =>
    { toForm := callForm function distinct (exprForms args) nulls }
  | .array (some type) items =>
    { toForm := .call ("ARRAY<" ++ type.text ++ ">[") "]" (exprForms items) }
  | .array none items => { toForm := .call "[" "]" (exprForms items) }
  | .arrayQuery query => { toForm := .enclosed "ARRAY(" query.form ")" }
  | .arrayAgg distinct operand nulls order window offset =>
    let nulls := (nulls.map fun nulls => Form.text nulls.text).toList
    let order := match order with | some order => [order.form] | none => []
    let window := match window with | some window => [window.form] | none => []
    let body := Form.aggregate "ARRAY_AGG("
      (Form.distinct distinct operand.form.toForm :: nulls ++ order ++ window)
    match offset with
    | some offset =>
      { toForm := .line [body, .text "[OFFSET(", offset.form.toForm, .text ")]"] }
    | none => { toForm := body }
  | .stringAgg function distinct operand delimiter nulls order window accessor =>
    let operand := Form.distinct distinct operand.form.toForm
    let operand :=
      match delimiter with
      | some delimiter => Form.line [operand, .text (", " ++ delimiter.text)]
      | none => operand
    let nulls := (nulls.map fun nulls => Form.text nulls.text).toList
    let order := match order with | some order => [order.form] | none => []
    let window := match window with | some window => [window.form] | none => []
    let body := Form.aggregate (function.text ++ "(") (operand :: nulls ++ order ++ window)
    match accessor with
    | some ⟨name, position⟩ =>
      { toForm := .line [body, accessorForm position.form.toForm name] }
    | none => { toForm := body }
  | .over operand window =>
    let operand := operand.form
    let window := window.form
    { toForm := .choose (.line [operand.compact, .text " ", window.compact])
        (.stack [operand.full, window.full]) }
  | .binary op left right => .binary op left.form right.form
  | .unary op operand =>
    { toForm := .line [.text (unaryHead op operand), operand.form.toForm] }
  | .paren inner => { toForm := .enclosed "(" inner.form.toForm ")" }
  | .subquery query => { toForm := .enclosed "(" query.form ")" }
  | .existsQuery query => { toForm := .enclosed "EXISTS(" query.form ")" }
  | .struct (some fields) items =>
    { toForm := .call ("STRUCT<" ++ fieldsText fields ++ ">(") ")" (structItemForms items) }
  | .struct none items => { toForm := .call "STRUCT(" ")" (structItemForms items) }
  | .cast safe operand type =>
    { toForm := .call (if safe then "SAFE_CAST(" else "CAST(") ")"
        [.line [operand.form.toForm, .text (" AS " ++ type.text)]] }
  | .extract part operand zone =>
    let zone :=
      match zone with
      | some zone => [.text " AT TIME ZONE ", zone.form.toForm]
      | none => []
    { toForm := .call "EXTRACT(" ")"
        [.line ([part.form.toForm, .text " FROM ", operand.form.toForm] ++ zone)] }
  | .case operand branches otherwise =>
    let head :=
      match operand with
      | some operand => Form.line [.text "CASE ", operand.form.toForm]
      | none => .text "CASE"
    let otherwise :=
      match otherwise with
      | some otherwise => [Form.line [.text "ELSE ", otherwise.form.toForm]]
      | none => []
    let arms := branchForms branches ++ otherwise
    { toForm := .choose
        (Form.spaced (head.compact :: arms.map Form.compact ++ [.text "END"]))
        (.stack [head.full, .indent (.stack (arms.map Form.full)), .text "END"]) }
  | .interval count unit =>
    { toForm := .line [.text "INTERVAL ", count.form.toForm, .text (" " ++ unit.raw)] }
  | .member operand negated target =>
    { toForm := .line
        [operand.form.toForm, .text (if negated then " NOT IN " else " IN "), target.form] }
  | .between operand negated low high =>
    { toForm := .line
        [operand.form.toForm, .text (if negated then " NOT BETWEEN " else " BETWEEN "),
          low.form.toForm, .text " AND ", high.form.toForm] }
  | .isValue operand negated value =>
    { toForm := .line
        [operand.form.toForm, .text (if negated then " IS NOT " else " IS "), .text value.text] }
  | .index base kind position =>
    { toForm := indexForm base.form.toForm position.form.toForm kind }
  | .field base name => { toForm := .line [base.form.toForm, .text ("." ++ name.raw)] }

def exprForms : List Expr → List Form
  | [] => []
  | expr :: exprs => expr.form.toForm :: exprForms exprs

def sortKeyForms : List SortKey → List Form
  | [] => []
  | ⟨expr, direction, nulls⟩ :: keys =>
    sortSuffix expr.form.toForm direction nulls :: sortKeyForms keys

def structItemForms : List StructItem → List Form
  | [] => []
  | ⟨expr, aliasName⟩ :: items => aliased expr.form.toForm aliasName :: structItemForms items

def branchForms : List Branch → List Form
  | [] => []
  | ⟨condition, result⟩ :: branches =>
    .line [.text "WHEN ", condition.form.toForm, .text " THEN ", result.form.toForm]
      :: branchForms branches

def RowOrder.form : RowOrder → Form
  | ⟨keys, limit, offset⟩ =>
    let keys := sortKeyForms keys
    let limit :=
      match limit with
      | some limit => [Form.line [.text "LIMIT ", limit.form.toForm]]
      | none => []
    let offset :=
      match offset with
      | some offset => [Form.line [.text "OFFSET ", offset.form.toForm]]
      | none => []
    .phrases ((if keys.isEmpty then [] else [.listClause "ORDER BY" keys]) ++ limit ++ offset)

def Window.form : Window → Form
  | ⟨partition, order, frame⟩ =>
    let partition := exprForms partition
    let order := sortKeyForms order
    windowForm
      ((if partition.isEmpty then [] else [.listClause "PARTITION BY" partition])
        ++ (if order.isEmpty then [] else [.listClause "ORDER BY" order])
        ++ (frame.map fun frame => Form.text frame.text).toList)

def MemberTarget.form : MemberTarget → Form
  | .list items => .call "(" ")" (exprForms items)
  | .query query => .enclosed "(" query.form ")"
  | .unnest array => .call "UNNEST(" ")" [array.form.toForm]

def Query.form : Query → Form
  | ⟨common, body, order⟩ =>
    let common := match common with | some common => [common.form] | none => []
    let order := match order with | some order => [order.form] | none => []
    .phrases (common ++ body.form :: order)

def CommonTables.form : CommonTables → Form
  | ⟨isRecursive, tables⟩ =>
    let keyword := if isRecursive then "WITH RECURSIVE" else "WITH"
    .listClause keyword (commonTableForms tables)

def commonTableForms : List CommonTable → List Form
  | [] => []
  | ⟨name, query⟩ :: tables =>
    .enclosed (name.raw ++ " AS (") query.form ")" :: commonTableForms tables

def SetExpr.form : SetExpr → Form
  | .select select => select.form
  | .paren query => .enclosed "(" query.form ")"
  | .combine op quantifier left right =>
    let left := left.form
    let right := right.form
    let text := combineText op quantifier
    .choose (.line [left.compact, .text (" " ++ text ++ " "), right.compact])
      (.stack [left.full, .text text, right.full])

def Select.form : Select → Form
  | ⟨distinct, shape, items, source, filter, groupBy, having, qualify⟩ =>
    let source :=
      match source with
      | some source => [Form.clause "FROM" source.form]
      | none => []
    let filter :=
      match filter with
      | some filter => [Form.clause "WHERE" filter.form.toForm]
      | none => []
    let groupBy := exprForms groupBy
    let having :=
      match having with
      | some having => [Form.clause "HAVING" having.form.toForm]
      | none => []
    let qualify :=
      match qualify with
      | some qualify => [Form.clause "QUALIFY" qualify.form.toForm]
      | none => []
    .phrases
      (.listClause (selectHead distinct shape) (selectItemForms items)
        :: source ++ filter
        ++ (if groupBy.isEmpty then [] else [.listClause "GROUP BY" groupBy])
        ++ having ++ qualify)

def selectItemForms : List SelectItem → List Form
  | [] => []
  | .wildcard qualifier except replace :: items =>
    let star :=
      match qualifier with
      | some name => Form.text (name.dotted ++ ".*")
      | none => .text "*"
    .line (star :: listSuffix "EXCEPT" (identifierForms except)
        ++ listSuffix "REPLACE" (replacementForms replace))
      :: selectItemForms items
  | .expr expr aliasName :: items => aliased expr.form.toForm aliasName :: selectItemForms items

def replacementForms : List Replacement → List Form
  | [] => []
  | ⟨expr, aliasName⟩ :: items =>
    expr.form.toForm.append (" AS " ++ aliasName.raw) :: replacementForms items

def TableExpr.form : TableExpr → Form
  | .table name aliasName => .text (name.dotted ++ aliasSuffix aliasName)
  | .subquery query aliasName => .enclosed "(" query.form (")" ++ aliasSuffix aliasName)
  | .unnest array aliasName offset =>
    let tail :=
      match offset with
      | some offset => " WITH OFFSET" ++ aliasSuffix offset
      | none => ""
    .line [.text "UNNEST(", array.form.toForm, .text (")" ++ aliasSuffix aliasName ++ tail)]
  | .join left kind right none => joinForm left.form kind right.form (.text "")
  | .join left kind right (some (.condition condition)) =>
    joinForm left.form kind right.form (.line [.text " ON ", condition.form.toForm])
  | .join left kind right (some (.columns columns)) =>
    joinForm left.form kind right.form
      (.line
        [.text " USING (",
          { compact := Form.commaLine ((identifierForms columns).map Form.compact),
            full := Form.commaLine ((identifierForms columns).map Form.full) },
          .text ")"])

end

end SqlLayout
