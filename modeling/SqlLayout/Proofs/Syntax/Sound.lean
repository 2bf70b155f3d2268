import SqlLayout.Grammar.Primary
import SqlLayout.Proofs.Layout.Syntax
import SqlLayout.Proofs.Syntax.Level
import SqlLayout.Proofs.Token.Glyph

/-!
# Sound Trees

Not every tree can be read from a text. In a sound one the names and constants are tokens, lists that
have to hold something do, operands bind tightly enough, and nothing is there that would have been taken
for something else or for a part of what stands before it. Most of it is a condition on single nodes.
-/

namespace SqlLayout

open Token Token.Scan

section Names

namespace Identifier

def isQuotedToken (name : Identifier) : Bool :=
  name.raw.toList.head? = some Token.Scan.backquote

/-- What may stand after a dot. -/
def IsSegment (name : Identifier) : Prop :=
  IsWord name.raw.toList ∨ IsQuotedName name.raw.toList

/-- What may stand alone. -/
def IsSound (name : Identifier) : Prop :=
  (IsWord name.raw.toList ∧ Keyword.isReserved name.raw = false) ∨ IsQuotedName name.raw.toList

theorem IsSound.isSegment {name : Identifier} (h : name.IsSound) : name.IsSegment :=
  h.imp_left And.left

end Identifier

namespace QualifiedName

structure IsSound (name : QualifiedName) : Prop where
  first : name.first.IsSound
  rest : ∀ segment ∈ name.rest, segment.IsSegment

/-- The names that are read in a way of their own before a parenthesis. -/
def specialFunctions : List String :=
  ["ARRAY_AGG", "STRING_AGG", "SPLIT", "SAFE_CAST"]

/-- What may name a function: a name, or one of the reserved words that do. -/
inductive IsFunction (name : QualifiedName) : Prop
  | name (h : name.IsSound)
    (hplain : name.isSingle → name.first.isQuotedToken = false →
      ∀ special ∈ specialFunctions, Text.sameWord name.first.raw special = false)
  | callable (h : IsWord name.first.raw.toList) (hcallable : Keyword.isCallable name.first.raw)
    (hsingle : name.rest = [])

/-- Whether a name makes a call of the string after it. -/
def isTyped (name : QualifiedName) : Bool :=
  name.isSingle && Grammar.typedLiterals.any (Text.sameWord name.first.raw)

end QualifiedName

def Constant.IsSound (constant : Constant) : Prop :=
  match constant.kind with
  | .string | .bytes =>
    IsLiteral constant.text.toList ∧ constant = Constant.ofLiteral constant.text
  | .number => IsNumber constant.text.toList
  | .boolean => constant.text = "TRUE" ∨ constant.text = "FALSE"
  | .null => constant.text = "NULL"

end Names

section Types

mutual

/-- `ANY TYPE` alone would be a name and a type. -/
def SqlType.IsSound : SqlType → Prop
  | .named name params =>
    IsWord name.raw.toList ∧ (∀ param ∈ params, param.IsSound) ∧
      ∀ param ∈ params.head?, param.kind = .number
  | .array element => element.IsSound
  | .struct fields => fieldsAreSound fields
  | .any => True

def fieldsAreSound : List Field → Prop
  | [] => True
  | ⟨name, type⟩ :: fields =>
    (∀ label ∈ name, label.IsSegment) ∧ (name = none → type ≠ .any) ∧ type.IsSound ∧
      fieldsAreSound fields

end

structure Declaration.IsSound (declaration : Declaration) : Prop where
  name : declaration.name.IsSound
  type : declaration.type.IsSound

end Types

section Openings

namespace Expr

/-- The word of the name an expression starts with, if it does, and whether a parenthesis is sure to
stand after that word wherever the expression is read from. -/
def opening? : Expr → Option (String × Bool)
  | name path => if path.first.isQuotedToken then none else some (path.first.raw, false)
  | call function _ _ _ =>
    if function.first.isQuotedToken then none
    else some (function.first.raw, function.isSingle && !function.isTyped)
  | .over operand _ | member operand _ _ | between operand _ _ _ | isValue operand _ _ =>
    operand.opening?
  | binary _ left _ => left.opening?
  | index base _ _ | field base _ => base.opening?
  | _ => none

/-- Whether a window after an expression would be a part of it. -/
def takesWindow : Expr → Bool
  | binary _ _ right => right.takesWindow
  | unary _ operand => operand.takesWindow
  | between _ _ _ high => high.takesWindow
  | star | .over _ _ | member _ _ _ | isValue _ _ _ | index _ _ _ | field _ _ => false
  | _ => true

/-- Whether an expression is read without operators, and is no name with a window. -/
def isPrimary : Expr → Bool
  | star | .over _ _ | binary _ _ _ | unary _ _ | member _ _ _ | between _ _ _ _ | isValue _ _ _
  | index _ _ _ | field _ _ => false
  | _ => true

end Expr

def SortKey.takesWindow (key : SortKey) : Bool :=
  key.direction.isNone && key.nulls.isNone && key.expr.takesWindow

def RowOrder.takesWindow (order : RowOrder) : Bool :=
  match order.offset, order.limit with
  | some offset, _ => offset.takesWindow
  | none, some limit => limit.takesWindow
  | none, none => order.keys.getLast?.any SortKey.takesWindow

/-- Whether the modifiers of an aggregate leave a window after them to the aggregate. -/
def leavesWindow (operand : Bool) (nulls : Option NullHandling) (order : Option RowOrder) : Bool :=
  match order, nulls with
  | some order, _ => !order.takesWindow
  | none, some _ => true
  | none, none => !operand

end Openings

section Parts

structure SortKey.IsSound (key : SortKey) : Prop where
  expr : 1 ≤ key.expr.level

/-- An order that says something, with an offset only after a limit. -/
structure RowOrder.IsSound (order : RowOrder) : Prop where
  keys : ∀ key ∈ order.keys, key.IsSound
  limit : ∀ limit ∈ order.limit, 1 ≤ limit.level
  offset : ∀ offset ∈ order.offset, 1 ≤ offset.level
  nonempty : order.keys ≠ [] ∨ order.limit.isSome
  offset_limit : order.offset.isSome → order.limit.isSome

def FrameBound.IsSound : FrameBound → Prop
  | preceding count | following count => count.IsSound ∧ count.kind = .number
  | _ => True

def Frame.IsSound (frame : Frame) : Prop :=
  match frame.extent with
  | .single bound => bound.IsSound
  | .between start stop => start.IsSound ∧ stop.IsSound

structure Window.IsSound (window : Window) : Prop where
  partition : ∀ item ∈ window.partition, 1 ≤ item.level
  order : ∀ key ∈ window.order, key.IsSound
  frame : ∀ frame ∈ window.frame, frame.IsSound

structure StructItem.IsSound (item : StructItem) : Prop where
  expr : 1 ≤ item.expr.level
  aliasName : ∀ name ∈ item.aliasName, name.IsSound

structure Branch.IsSound (branch : Branch) : Prop where
  condition : 1 ≤ branch.condition.level
  result : 1 ≤ branch.result.level

structure Accessor.IsSound (accessor : Accessor) : Prop where
  name : ∀ name ∈ accessor.name, name.IsSegment
  position : 1 ≤ accessor.position.level

/-- Whether a set expression starts with a selection and not with a parenthesis. -/
def SetExpr.startsWithSelect : SetExpr → Bool
  | select _ => true
  | paren _ => false
  | combine _ _ left _ => left.startsWithSelect

def Query.startsWithWord (query : Query) : Bool :=
  query.common.isSome || query.body.startsWithSelect

/-- A query in parentheses that starts with one is an item of a list. -/
def MemberTarget.IsSound : MemberTarget → Prop
  | list items => items ≠ [] ∧ ∀ item ∈ items, 1 ≤ item.level
  | query body => body.startsWithWord
  | unnest array => 1 ≤ array.level

/-- What an aggregate over an array without a subscript cannot have right after it. -/
def Expr.isOpenArrayAgg : Expr → Bool
  | arrayAgg _ _ _ _ _ offset => offset.isNone
  | _ => false

/-- An aggregate over strings without a subscript takes the next one. -/
def Expr.isOpenStringAgg : Expr → Bool
  | stringAgg _ _ _ _ _ _ _ accessor => accessor.isNone
  | _ => false

def Expr.isName : Expr → Bool
  | name _ => true
  | _ => false

def Expr.isSubquery : Expr → Bool
  | subquery _ => true
  | _ => false

/-- A subscript that is not taken for one of another kind. -/
structure IsSubscript (base : Expr) (kind : Option IndexKind) (position : Expr) : Prop where
  level_le : 1 ≤ position.level
  ofWord? : kind = none → ∀ word, position.opening? = some (word, true) →
    IndexKind.ofWord? word = none
  isOpenStringAgg : base.isOpenStringAgg = false
  offset : base.isOpenArrayAgg → kind ≠ some .offset ∧
    (kind = none → ∀ word isCall, position.opening? = some (word, isCall) →
      Text.sameWord word "OFFSET" = false)

structure OptionItem.IsSound (item : OptionItem) : Prop where
  name : item.name.IsSound
  value : 1 ≤ item.value.level

end Parts

section Nodes

def Expr.IsLocallySound : Expr → Prop
  | .constant value => value.IsSound
  | .name path => path.IsSound
  | .star | .arrayQuery _ | .subquery _ | .existsQuery _ => True
  | .call function distinct args nulls =>
    function.IsFunction ∧ (args = [] → distinct = false ∧ nulls = none)
  | .array type items => (∀ inner ∈ type, inner.IsSound) ∧ ∀ item ∈ items, 1 ≤ item.level
  | .arrayAgg _ operand nulls order window offset =>
    1 ≤ operand.level ∧ (∀ inner ∈ order, inner.IsSound) ∧ (∀ inner ∈ window, inner.IsSound) ∧
      (∀ inner ∈ offset, 1 ≤ inner.level) ∧
      (window.isSome → leavesWindow operand.takesWindow nulls order)
  | .stringAgg _ _ operand delimiter nulls order window accessor =>
    1 ≤ operand.level ∧ (∀ inner ∈ delimiter, inner.IsSound) ∧ (∀ inner ∈ order, inner.IsSound) ∧
      (∀ inner ∈ window, inner.IsSound) ∧ (∀ inner ∈ accessor, inner.IsSound) ∧
      (window.isSome → leavesWindow (delimiter.isNone && operand.takesWindow) nulls order)
  | .over operand window => operand.isPrimary ∧ window.IsSound
  | .paren inner => 1 ≤ inner.level ∧ inner.isSubquery = false
  | .struct fields items => (∀ inner ∈ fields, fieldsAreSound inner) ∧ ∀ item ∈ items, item.IsSound
  | .cast _ operand type => 1 ≤ operand.level ∧ type.IsSound
  | .extract part operand zone =>
    1 ≤ part.level ∧ 1 ≤ operand.level ∧ ∀ inner ∈ zone, 1 ≤ inner.level
  | .case operand branches otherwise =>
    (∀ inner ∈ operand, 1 ≤ inner.level) ∧ branches ≠ [] ∧ (∀ branch ∈ branches, branch.IsSound) ∧
      ∀ inner ∈ otherwise, 1 ≤ inner.level
  | .interval _ unit => unit.IsSound
  | .member _ _ target => target.IsSound
  | .binary _ _ _ | .unary _ _ | .between _ _ _ _ | .isValue _ _ _ => True
  | .index base kind position => IsSubscript base kind position
  | .field base label => base.isName = false ∧ label.IsSegment

def Query.IsLocallySound (query : Query) : Prop :=
  (∀ common ∈ query.common, common.tables ≠ []) ∧ ∀ order ∈ query.order, order.IsSound

def SetExpr.isOperand : SetExpr → Bool
  | select _ | paren _ => true
  | combine _ _ _ _ => false

def SetExpr.IsLocallySound : SetExpr → Prop
  | select _ | paren _ => True
  | combine _ _ _ right => right.isOperand

structure Select.IsLocallySound (select : Select) : Prop where
  items : select.items ≠ []
  filter : ∀ expr ∈ select.filter, 1 ≤ expr.level
  groupBy : ∀ expr ∈ select.groupBy, 1 ≤ expr.level
  having : ∀ expr ∈ select.having, 1 ≤ expr.level
  qualify : ∀ expr ∈ select.qualify, 1 ≤ expr.level

structure Replacement.IsSound (item : Replacement) : Prop where
  expr : 1 ≤ item.expr.level
  aliasName : item.aliasName.IsSound

def SelectItem.IsLocallySound : SelectItem → Prop
  | wildcard qualifier except replace =>
    (∀ name ∈ qualifier, name.IsSound) ∧ (∀ name ∈ except, name.IsSound) ∧
      ∀ item ∈ replace, item.IsSound
  | expr value aliasName => 1 ≤ value.level ∧ ∀ name ∈ aliasName, name.IsSound

def TableExpr.isFactor : TableExpr → Bool
  | join _ _ _ _ => false
  | _ => true

def JoinCondition.IsSound : JoinCondition → Prop
  | condition test => 1 ≤ test.level
  | columns names => ∀ name ∈ names, name.IsSound

def TableExpr.IsLocallySound : TableExpr → Prop
  | table name aliasName => name.IsSound ∧ ∀ inner ∈ aliasName, inner.IsSound
  | subquery _ aliasName => ∀ inner ∈ aliasName, inner.IsSound
  | unnest array aliasName offset =>
    1 ≤ array.level ∧ (∀ inner ∈ aliasName, inner.IsSound) ∧
      ∀ inner ∈ offset, ∀ name ∈ inner, name.IsSound
  | join _ kind right condition =>
    right.isFactor ∧ (condition.isSome → kind.takesCondition) ∧ ∀ inner ∈ condition, inner.IsSound

def FunctionBody.IsSound : FunctionBody → Prop
  | sql body => 1 ≤ body.level
  | foreign language code options =>
    language.IsSound ∧ code.IsSound ∧ code.kind.tokenKind = .string ∧ ∀ item ∈ options, item.IsSound

structure FunctionDef.IsLocallySound (function : FunctionDef) : Prop where
  name : function.name.IsSound
  params : ∀ param ∈ function.params, param.IsSound
  returns : ∀ type ∈ function.returns, type.IsSound
  body : function.body.IsSound

structure TableDef.IsSound (table : TableDef) : Prop where
  name : table.name.IsSound
  columns : ∀ column ∈ table.columns, column.IsSound
  options : ∀ item ∈ table.options, item.IsSound

structure ViewDef.IsSound (view : ViewDef) : Prop where
  name : view.name.IsSound
  options : ∀ item ∈ view.options, item.IsSound

def InsertSource.IsSound : InsertSource → Prop
  | query _ => True
  | values rows => rows ≠ [] ∧ ∀ row ∈ rows, ∀ item ∈ row, 1 ≤ item.level

structure Insertion.IsSound (insertion : Insertion) : Prop where
  table : insertion.table.IsSound
  columns : ∀ name ∈ insertion.columns, name.IsSound
  source : insertion.source.IsSound

def Action.IsSound : Action → Prop
  | query _ | createFunction _ => True
  | createTable table => table.IsSound
  | createView view => view.IsSound
  | insert insertion => insertion.IsSound

/-- What is shown of a comment is one, and has no blanks at its end. -/
def IsComment (text : String) : Prop :=
  (IsLineComment text.toList ∨ IsBlockComment text.toList) ∧ Text.trimEnd text = text

structure Statement.IsLocallySound (statement : Statement) : Prop where
  comments : ∀ comment ∈ statement.comments, IsComment comment
  action : statement.action.IsSound

/-- What a node asks of itself, whatever the nodes inside it are. -/
def Node.IsLocallySound : Node → Prop
  | script body => ∀ comment ∈ body.trailingComments, IsComment comment
  | statement body => body.IsLocallySound
  | function definition => definition.IsLocallySound
  | query body => body.IsLocallySound
  | commonTable table => table.name.IsSound
  | setExpr body => body.IsLocallySound
  | select body => body.IsLocallySound
  | selectItem item => item.IsLocallySound
  | tableExpr table => table.IsLocallySound
  | expr body => body.IsLocallySound ∧ body.BindsByLevel

/-- A node is sound if it and everything inside it is. -/
def Node.IsSound (node : Node) : Prop :=
  ∀ inner ∈ node.all, inner.IsLocallySound

theorem Node.isSound_iff {node : Node} :
    node.IsSound ↔ node.IsLocallySound ∧ ∀ child ∈ node.children, child.IsSound := by
  unfold IsSound
  constructor
  · intro h
    refine ⟨h node (mem_all_iff.mpr (.inl rfl)), ?_⟩
    intro child hchild inner hinner
    exact h inner (mem_all_iff.mpr (.inr ⟨child, hchild, hinner⟩))
  · rintro ⟨hnode, hchildren⟩ inner hinner
    rcases mem_all_iff.mp hinner with rfl | ⟨child, hchild, hinner⟩
    · exact hnode
    · exact hchildren child hchild inner hinner

theorem Node.IsSound.here {node : Node} (h : node.IsSound) : node.IsLocallySound :=
  (isSound_iff.mp h).1

theorem Node.IsSound.child {node child : Node} (h : node.IsSound) (hchild : child ∈ node.children) :
    child.IsSound :=
  (isSound_iff.mp h).2 child hchild

/-- An expression that may stand where operands of a level are asked for. -/
structure Expr.IsOperand (expr : Expr) (level : Nat) : Prop where
  sound : (Node.expr expr).IsSound
  level_le : level ≤ expr.level

end Nodes

end SqlLayout
