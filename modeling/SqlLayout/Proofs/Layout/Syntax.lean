import SqlLayout.Doc.Statement
import SqlLayout.Proofs.Layout.Form
import SqlLayout.Token.Scan

/-!
# Spellings of Syntax

The tokens of each piece of syntax and the blanks between them, without any regard to the page. The name
of a field right after a number is printed without a blank, so there the digits take in the point, and
perhaps an exponent.
-/

namespace SqlLayout

open Spelling

section Words

def Identifier.glyph (name : Identifier) : Glyph :=
  { kind := if name.raw.toList.head? = some Token.Scan.backquote then .quotedIdent else .word,
    text := name.raw }

def Identifier.spelling (name : Identifier) : Spelling :=
  [.glyph name.glyph]

def QualifiedName.spelling (name : QualifiedName) : Spelling :=
  List.intercalate [Atom.dot] (name.segments.map Identifier.spelling)

def ConstantKind.tokenKind : ConstantKind → Token.Kind
  | string | bytes => .string
  | number => .number
  | boolean | null => .word

def Constant.glyph (constant : Constant) : Glyph :=
  { kind := constant.kind.tokenKind, text := constant.text }

def Constant.spelling (constant : Constant) : Spelling :=
  [.glyph constant.glyph]

def BinaryOp.spelling : BinaryOp → Spelling
  | or => words ["OR"] | and => words ["AND"]
  | eq => [Atom.symbol .eq "="] | notEq => [Atom.symbol .notEq "!="]
  | ltGt => [Atom.symbol .ltGt "<>"] | lt => [Atom.symbol .lt "<"]
  | ltEq => [Atom.symbol .ltEq "<="] | gt => [Atom.symbol .gt ">"]
  | gtEq => [Atom.symbol .gtEq ">="]
  | like => words ["LIKE"] | notLike => words ["NOT", "LIKE"]
  | bitOr => [Atom.symbol .pipe "|"] | bitXor => [Atom.symbol .caret "^"]
  | bitAnd => [Atom.symbol .ampersand "&"] | shiftLeft => [Atom.symbol .shiftLeft "<<"]
  | shiftRight => [.glyph { kind := .gt, text := ">", tied := true }, Atom.symbol .gt ">"]
  | plus => [Atom.symbol .plus "+"] | minus => [Atom.symbol .minus "-"]
  | multiply => [Atom.symbol .star "*"] | divide => [Atom.symbol .slash "/"]
  | concat => [Atom.symbol .concat "||"]

def UnaryOp.spelling : UnaryOp → Spelling
  | not => words ["NOT"]
  | minus => [Atom.symbol .minus "-"]
  | plus => [Atom.symbol .plus "+"]
  | bitNot => [Atom.symbol .tilde "~"]

def NullHandling.spelling : NullHandling → Spelling
  | ignore => words ["IGNORE", "NULLS"]
  | respect => words ["RESPECT", "NULLS"]

def StringFunction.spelling (function : StringFunction) : Spelling :=
  [Atom.word function.text]

def IndexKind.spelling (kind : IndexKind) : Spelling :=
  [Atom.word kind.text]

def Direction.spelling (direction : Direction) : Spelling :=
  [Atom.word direction.text]

def NullsOrder.spelling : NullsOrder → Spelling
  | first => words ["NULLS", "FIRST"]
  | last => words ["NULLS", "LAST"]

def FrameBound.spelling : FrameBound → Spelling
  | unboundedPreceding => words ["UNBOUNDED", "PRECEDING"]
  | unboundedFollowing => words ["UNBOUNDED", "FOLLOWING"]
  | currentRow => words ["CURRENT", "ROW"]
  | preceding count => count.spelling ++ [.gap, Atom.word "PRECEDING"]
  | following count => count.spelling ++ [.gap, Atom.word "FOLLOWING"]

def Frame.spelling (frame : Frame) : Spelling :=
  match frame.extent with
  | .single bound => [Atom.word frame.unit.text, .gap] ++ bound.spelling
  | .between start stop =>
    [Atom.word frame.unit.text, .gap, Atom.word "BETWEEN", .gap] ++ start.spelling
      ++ [.gap, Atom.word "AND", .gap] ++ stop.spelling

def IsValue.spelling (value : IsValue) : Spelling :=
  [Atom.word value.text]

def SelectAs.spelling : SelectAs → Spelling
  | struct => words ["AS", "STRUCT"]
  | value => words ["AS", "VALUE"]

def JoinKind.spelling : JoinKind → Spelling
  | comma => [Atom.comma]
  | inner => words ["JOIN"]
  | left => words ["LEFT", "JOIN"]
  | right => words ["RIGHT", "JOIN"]
  | full => words ["FULL", "JOIN"]
  | cross => words ["CROSS", "JOIN"]

end Words

section Types

/-- A list between angle brackets; an empty one is a single token. -/
def angled (items : List Spelling) : Spelling :=
  if items.isEmpty then [Atom.symbol .ltGt "<>"]
  else Atom.symbol .lt "<" :: commas items ++ [Atom.symbol .gt ">"]

mutual

def SqlType.spelling : SqlType → Spelling
  | .named name params =>
    name.spelling ++
      if params.isEmpty then []
      else Atom.parenOpen :: commas (params.map Constant.spelling) ++ [Atom.parenClose]
  | .array element =>
    [Atom.word "ARRAY", Atom.symbol .lt "<"] ++ element.spelling ++ [Atom.symbol .gt ">"]
  | .struct fields => Atom.word "STRUCT" :: angled (fieldSpellings fields)
  | .any => words ["ANY", "TYPE"]

def fieldSpellings : List Field → List Spelling
  | [] => []
  | ⟨none, type⟩ :: fields => type.spelling :: fieldSpellings fields
  | ⟨some name, type⟩ :: fields =>
    (name.spelling ++ .gap :: type.spelling) :: fieldSpellings fields

end

def Declaration.spelling (declaration : Declaration) : Spelling :=
  declaration.name.spelling ++ .gap :: declaration.type.spelling

end Types

section Parts

def aliasSpelling : Option Identifier → Spelling
  | some name => [.gap, Atom.word "AS", .gap] ++ name.spelling
  | none => []

/-- A modifier after a blank, if it is there. -/
def modifier (spelling : Option Spelling) : Spelling :=
  match spelling with
  | some spelling => .gap :: spelling
  | none => []

/-- Changes the first of some spellings. -/
def modifyFirst (change : Spelling → Spelling) : List Spelling → List Spelling
  | [] => []
  | spelling :: spellings => change spelling :: spellings

/-- Changes the last of some spellings. -/
def modifyLast (change : Spelling → Spelling) : List Spelling → List Spelling
  | [] => []
  | [last] => [change last]
  | spelling :: next :: spellings => spelling :: modifyLast change (next :: spellings)

def distinctSpelling (isDistinct : Bool) (spelling : Spelling) : Spelling :=
  if isDistinct then Atom.word "DISTINCT" :: .gap :: spelling else spelling

def callSpelling (head : Spelling) (items : List Spelling) : Spelling :=
  head ++ Atom.parenOpen :: commas items ++ [Atom.parenClose]

/-- A keyword before what it introduces. -/
def clauseSpelling (keyword : List String) (body : Spelling) : Spelling :=
  words keyword ++ .gap :: body

/-- A clause with a list, unless the list is empty. -/
def listClauses (keyword : List String) (items : List Spelling) : List Spelling :=
  if items.isEmpty then [] else [clauseSpelling keyword (commas items)]

def aggregateSpelling (head : Spelling) (parts : List Spelling) : Spelling :=
  head ++ enclosed (spaced parts)

/-- A list in parentheses after a keyword; nothing if it is empty. -/
def suffixSpelling (keyword : String) (items : List Spelling) : Spelling :=
  if items.isEmpty then []
  else [.gap, Atom.word keyword, .gap, Atom.parenOpen] ++ commas items ++ [Atom.parenClose]

def windowSpelling (clauses : List Spelling) : Spelling :=
  [Atom.word "OVER", .gap] ++
    if clauses.isEmpty then [Atom.parenOpen, Atom.parenClose] else enclosed (spaced clauses)

def subscriptSpelling (kind : Option IndexKind) (position : Spelling) : Spelling :=
  match kind with
  | some kind =>
    Atom.bracketOpen :: kind.spelling ++ Atom.parenOpen :: position
      ++ [Atom.parenClose, Atom.bracketClose]
  | none => Atom.bracketOpen :: position ++ [Atom.bracketClose]

def accessorSpelling (name : Option Identifier) (position : Spelling) : Spelling :=
  match name with
  | some name =>
    Atom.bracketOpen :: name.spelling ++ Atom.parenOpen :: position
      ++ [Atom.parenClose, Atom.bracketClose]
  | none => Atom.bracketOpen :: position ++ [Atom.bracketClose]

/-- The text of a number without a point and without an exponent. -/
def Expr.whole? : Expr → Option String
  | .constant ⟨.number, text⟩ => if text.toList.all Char.isDigit then some text else none
  | _ => none

/-- A field after digits: the point belongs to the number, and so does what can be its exponent. -/
def digitField (digits name : String) : Spelling :=
  let exponent := Token.Scan.exponent name.toList
  let number := digits ++ "." ++ String.ofList (name.toList.take exponent)
  let rest := String.ofList (name.toList.drop exponent)
  .glyph { kind := .number, text := number } ::
    if rest.isEmpty then [] else [.glyph (Identifier.glyph { raw := rest })]

def fieldSpelling (base : Expr) (spelling : Spelling) (name : Identifier) : Spelling :=
  match base.whole? with
  | some digits => digitField digits name.raw
  | none => spelling ++ Atom.dot :: name.spelling

def signSpelling (op : UnaryOp) (operand : Expr) (spelling : Spelling) : Spelling :=
  if op = .not || operand.isSigned then op.spelling ++ .gap :: spelling else op.spelling ++ spelling

def combineSpelling (op : SetOperator) (quantifier : Option SetQuantifier) : Spelling :=
  Atom.word op.text :: modifier (quantifier.map fun quantifier => [Atom.word quantifier.text])

def selectHeadSpelling (distinct : Bool) (shape : Option SelectAs) : Spelling :=
  words (if distinct then ["SELECT", "DISTINCT"] else ["SELECT"])
    ++ modifier (shape.map SelectAs.spelling)

def joinSpelling (left : Spelling) (kind : JoinKind) (right condition : Spelling) : Spelling :=
  if kind = .comma then left ++ [Atom.comma, .gap] ++ right
  else left ++ .gap :: kind.spelling ++ .gap :: right ++ condition

end Parts

mutual

def Expr.spelling : Expr → Spelling
  | .constant constant => constant.spelling
  | .name name => name.spelling
  | .star => [Atom.symbol .star "*"]
  | .call function distinct args nulls =>
    callSpelling function.spelling
      (modifyLast (· ++ modifier (nulls.map NullHandling.spelling))
        (modifyFirst (distinctSpelling distinct) (exprSpellings args)))
  | .array (some type) items =>
    [Atom.word "ARRAY", Atom.symbol .lt "<"] ++ type.spelling
      ++ [Atom.symbol .gt ">", Atom.bracketOpen] ++ commas (exprSpellings items)
      ++ [Atom.bracketClose]
  | .array none items => Atom.bracketOpen :: commas (exprSpellings items) ++ [Atom.bracketClose]
  | .arrayQuery query => Atom.word "ARRAY" :: enclosed query.spelling
  | .arrayAgg distinct operand nulls order window offset =>
    let nulls := (nulls.map NullHandling.spelling).toList
    let order := match order with | some order => [order.spelling] | none => []
    let window := match window with | some window => [window.spelling] | none => []
    let offset :=
      match offset with
      | some offset => subscriptSpelling (some .offset) offset.spelling
      | none => []
    aggregateSpelling [Atom.word "ARRAY_AGG"]
      (distinctSpelling distinct operand.spelling :: nulls ++ order ++ window) ++ offset
  | .stringAgg function distinct operand delimiter nulls order window accessor =>
    let delimiter :=
      match delimiter with
      | some delimiter => [Atom.comma, .gap] ++ delimiter.spelling
      | none => []
    let nulls := (nulls.map NullHandling.spelling).toList
    let order := match order with | some order => [order.spelling] | none => []
    let window := match window with | some window => [window.spelling] | none => []
    let accessor :=
      match accessor with
      | some ⟨name, position⟩ => accessorSpelling name position.spelling
      | none => []
    aggregateSpelling function.spelling
      ((distinctSpelling distinct operand.spelling ++ delimiter) :: nulls ++ order ++ window)
        ++ accessor
  | .over operand window => operand.spelling ++ .gap :: window.spelling
  | .binary op left right => left.spelling ++ .gap :: op.spelling ++ .gap :: right.spelling
  | .unary op operand => signSpelling op operand operand.spelling
  | .paren inner => enclosed inner.spelling
  | .subquery query => enclosed query.spelling
  | .existsQuery query => Atom.word "EXISTS" :: enclosed query.spelling
  | .struct (some fields) items =>
    callSpelling (Atom.word "STRUCT" :: angled (fieldSpellings fields)) (structItemSpellings items)
  | .struct none items => callSpelling [Atom.word "STRUCT"] (structItemSpellings items)
  | .cast safe operand type =>
    callSpelling [Atom.word (if safe then "SAFE_CAST" else "CAST")]
      [operand.spelling ++ [.gap, Atom.word "AS", .gap] ++ type.spelling]
  | .extract part operand zone =>
    let zone :=
      match zone with
      | some zone => .gap :: words ["AT", "TIME", "ZONE"] ++ .gap :: zone.spelling
      | none => []
    callSpelling [Atom.word "EXTRACT"]
      [part.spelling ++ [.gap, Atom.word "FROM", .gap] ++ operand.spelling ++ zone]
  | .case operand branches otherwise =>
    let operand :=
      match operand with
      | some operand => .gap :: operand.spelling
      | none => []
    let otherwise :=
      match otherwise with
      | some otherwise => [clauseSpelling ["ELSE"] otherwise.spelling]
      | none => []
    spaced ((Atom.word "CASE" :: operand) :: branchSpellings branches ++ otherwise
      ++ [[Atom.word "END"]])
  | .interval count unit =>
    [Atom.word "INTERVAL", .gap] ++ count.spelling ++ .gap :: unit.spelling
  | .member operand negated target =>
    operand.spelling ++ .gap :: words (if negated then ["NOT", "IN"] else ["IN"])
      ++ .gap :: target.spelling
  | .between operand negated low high =>
    operand.spelling ++ .gap :: words (if negated then ["NOT", "BETWEEN"] else ["BETWEEN"])
      ++ .gap :: low.spelling ++ [.gap, Atom.word "AND", .gap] ++ high.spelling
  | .isValue operand negated value =>
    operand.spelling ++ .gap :: words (if negated then ["IS", "NOT"] else ["IS"])
      ++ .gap :: value.spelling
  | .index base kind position => base.spelling ++ subscriptSpelling kind position.spelling
  | .field base name => fieldSpelling base base.spelling name

def exprSpellings : List Expr → List Spelling
  | [] => []
  | expr :: exprs => expr.spelling :: exprSpellings exprs

def sortKeySpellings : List SortKey → List Spelling
  | [] => []
  | ⟨expr, direction, nulls⟩ :: keys =>
    (expr.spelling ++ modifier (direction.map Direction.spelling)
      ++ modifier (nulls.map NullsOrder.spelling)) :: sortKeySpellings keys

def structItemSpellings : List StructItem → List Spelling
  | [] => []
  | ⟨expr, aliasName⟩ :: items =>
    (expr.spelling ++ aliasSpelling aliasName) :: structItemSpellings items

def branchSpellings : List Branch → List Spelling
  | [] => []
  | ⟨condition, result⟩ :: branches =>
    ([Atom.word "WHEN", .gap] ++ condition.spelling ++ [.gap, Atom.word "THEN", .gap]
      ++ result.spelling) :: branchSpellings branches

def RowOrder.spelling : RowOrder → Spelling
  | ⟨keys, limit, offset⟩ =>
    let limit :=
      match limit with
      | some limit => [clauseSpelling ["LIMIT"] limit.spelling]
      | none => []
    let offset :=
      match offset with
      | some offset => [clauseSpelling ["OFFSET"] offset.spelling]
      | none => []
    spaced (listClauses ["ORDER", "BY"] (sortKeySpellings keys) ++ limit ++ offset)

def Window.spelling : Window → Spelling
  | ⟨partition, order, frame⟩ =>
    windowSpelling
      (listClauses ["PARTITION", "BY"] (exprSpellings partition)
        ++ listClauses ["ORDER", "BY"] (sortKeySpellings order)
        ++ (frame.map Frame.spelling).toList)

def MemberTarget.spelling : MemberTarget → Spelling
  | .list items => callSpelling [] (exprSpellings items)
  | .query query => enclosed query.spelling
  | .unnest array => callSpelling [Atom.word "UNNEST"] [array.spelling]

def Query.spelling : Query → Spelling
  | ⟨common, body, order⟩ =>
    let common := match common with | some common => [common.spelling] | none => []
    let order := match order with | some order => [order.spelling] | none => []
    spaced (common ++ body.spelling :: order)

def CommonTables.spelling : CommonTables → Spelling
  | ⟨isRecursive, tables⟩ =>
    clauseSpelling (if isRecursive then ["WITH", "RECURSIVE"] else ["WITH"])
      (commas (commonTableSpellings tables))

def commonTableSpellings : List CommonTable → List Spelling
  | [] => []
  | ⟨name, query⟩ :: tables =>
    (name.spelling ++ [.gap, Atom.word "AS", .gap] ++ enclosed query.spelling)
      :: commonTableSpellings tables

def SetExpr.spelling : SetExpr → Spelling
  | .select select => select.spelling
  | .paren query => enclosed query.spelling
  | .combine op quantifier left right =>
    left.spelling ++ .gap :: combineSpelling op quantifier ++ .gap :: right.spelling

def Select.spelling : Select → Spelling
  | ⟨distinct, shape, items, source, filter, groupBy, having, qualify⟩ =>
    let source :=
      match source with
      | some source => [clauseSpelling ["FROM"] source.spelling]
      | none => []
    let filter :=
      match filter with
      | some filter => [clauseSpelling ["WHERE"] filter.spelling]
      | none => []
    let having :=
      match having with
      | some having => [clauseSpelling ["HAVING"] having.spelling]
      | none => []
    let qualify :=
      match qualify with
      | some qualify => [clauseSpelling ["QUALIFY"] qualify.spelling]
      | none => []
    spaced
      ((selectHeadSpelling distinct shape ++ .gap :: commas (selectItemSpellings items))
        :: source ++ filter ++ listClauses ["GROUP", "BY"] (exprSpellings groupBy)
        ++ having ++ qualify)

def selectItemSpellings : List SelectItem → List Spelling
  | [] => []
  | .wildcard qualifier except replace :: items =>
    let star :=
      match qualifier with
      | some name => name.spelling ++ [Atom.dot, Atom.symbol .star "*"]
      | none => [Atom.symbol .star "*"]
    (star ++ suffixSpelling "EXCEPT" (except.map Identifier.spelling)
      ++ suffixSpelling "REPLACE" (replacementSpellings replace)) :: selectItemSpellings items
  | .expr expr aliasName :: items =>
    (expr.spelling ++ aliasSpelling aliasName) :: selectItemSpellings items

def replacementSpellings : List Replacement → List Spelling
  | [] => []
  | ⟨expr, aliasName⟩ :: items =>
    (expr.spelling ++ aliasSpelling (some aliasName)) :: replacementSpellings items

def TableExpr.spelling : TableExpr → Spelling
  | .table name aliasName => name.spelling ++ aliasSpelling aliasName
  | .subquery query aliasName => enclosed query.spelling ++ aliasSpelling aliasName
  | .unnest array aliasName offset =>
    let offset :=
      match offset with
      | some offset => .gap :: words ["WITH", "OFFSET"] ++ aliasSpelling offset
      | none => []
    callSpelling [Atom.word "UNNEST"] [array.spelling] ++ aliasSpelling aliasName ++ offset
  | .join left kind right none => joinSpelling left.spelling kind right.spelling []
  | .join left kind right (some (.condition condition)) =>
    joinSpelling left.spelling kind right.spelling
      ([.gap, Atom.word "ON", .gap] ++ condition.spelling)
  | .join left kind right (some (.columns columns)) =>
    joinSpelling left.spelling kind right.spelling
      (.gap :: Atom.word "USING" :: .gap :: callSpelling [] (columns.map Identifier.spelling))

end

section Parts

theorem Query.spelling_mk (common : Option CommonTables) (body : SetExpr)
    (order : Option RowOrder) :
    Query.spelling ⟨common, body, order⟩ =
      spaced ((common.map CommonTables.spelling).toList
        ++ body.spelling :: (order.map RowOrder.spelling).toList) := by
  cases common <;> cases order <;> rfl

theorem RowOrder.spelling_mk (keys : List SortKey) (limit offset : Option Expr) :
    RowOrder.spelling ⟨keys, limit, offset⟩ =
      spaced (listClauses ["ORDER", "BY"] (sortKeySpellings keys)
        ++ (limit.map fun limit => clauseSpelling ["LIMIT"] limit.spelling).toList
        ++ (offset.map fun offset => clauseSpelling ["OFFSET"] offset.spelling).toList) := by
  cases limit <;> cases offset <;> rfl

theorem Select.spelling_mk (distinct : Bool) (shape : Option SelectAs) (items : List SelectItem)
    (source : Option TableExpr) (filter : Option Expr) (groupBy : List Expr)
    (having qualify : Option Expr) :
    Select.spelling ⟨distinct, shape, items, source, filter, groupBy, having, qualify⟩ =
      spaced
        ((selectHeadSpelling distinct shape ++ .gap :: commas (selectItemSpellings items))
          :: (source.map fun source => clauseSpelling ["FROM"] source.spelling).toList
          ++ (filter.map fun filter => clauseSpelling ["WHERE"] filter.spelling).toList
          ++ listClauses ["GROUP", "BY"] (exprSpellings groupBy)
          ++ (having.map fun having => clauseSpelling ["HAVING"] having.spelling).toList
          ++ (qualify.map fun qualify => clauseSpelling ["QUALIFY"] qualify.spelling).toList) := by
  cases source <;> cases filter <;> cases having <;> cases qualify <;> rfl

theorem Expr.spelling_arrayAgg (distinct : Bool) (operand : Expr) (nulls : Option NullHandling)
    (order : Option RowOrder) (window : Option Window) (offset : Option Expr) :
    (Expr.arrayAgg distinct operand nulls order window offset).spelling =
      aggregateSpelling [Atom.word "ARRAY_AGG"]
        (distinctSpelling distinct operand.spelling :: (nulls.map NullHandling.spelling).toList
          ++ (order.map RowOrder.spelling).toList ++ (window.map Window.spelling).toList)
        ++ match offset with
          | some offset => subscriptSpelling (some .offset) offset.spelling
          | none => [] := by
  cases order <;> cases window <;> cases offset <;> rfl

theorem Expr.spelling_stringAgg (function : StringFunction) (distinct : Bool) (operand : Expr)
    (delimiter : Option Constant) (nulls : Option NullHandling) (order : Option RowOrder)
    (window : Option Window) (accessor : Option Accessor) :
    (Expr.stringAgg function distinct operand delimiter nulls order window accessor).spelling =
      aggregateSpelling function.spelling
        ((distinctSpelling distinct operand.spelling ++ match delimiter with
            | some delimiter => [Atom.comma, .gap] ++ delimiter.spelling
            | none => [])
          :: (nulls.map NullHandling.spelling).toList ++ (order.map RowOrder.spelling).toList
          ++ (window.map Window.spelling).toList)
        ++ match accessor with
          | some accessor => accessorSpelling accessor.name accessor.position.spelling
          | none => [] := by
  cases delimiter <;> cases order <;> cases window <;>
    rcases accessor with _ | ⟨label, position⟩ <;> rfl

theorem Expr.spelling_case (operand : Option Expr) (branches : List Branch)
    (otherwise : Option Expr) :
    (Expr.case operand branches otherwise).spelling =
      spaced ((Atom.word "CASE" :: match operand with
          | some operand => .gap :: operand.spelling
          | none => [])
        :: branchSpellings branches
        ++ (otherwise.map fun otherwise => clauseSpelling ["ELSE"] otherwise.spelling).toList
        ++ [[Atom.word "END"]]) := by
  cases operand <;> cases otherwise <;> rfl

end Parts

section Texts

theorem plain_intercalate (sep : Spelling) (spellings : List Spelling) :
    plain (List.intercalate sep spellings) = List.intercalate sep.plain (spellings.map plain) := by
  induction spellings with
  | nil => rfl
  | cons spelling spellings ih =>
    cases spellings with
    | nil => simp
    | cons next spellings => simp [ih]

theorem plain_commas (spellings : List Spelling) :
    plain (commas spellings) = List.intercalate [',', ' '] (spellings.map plain) :=
  plain_intercalate _ _

theorem Identifier.toList_raw (name : Identifier) : name.raw.toList = name.spelling.plain := by
  simp [spelling, glyph]

theorem QualifiedName.toList_dotted (name : QualifiedName) :
    name.dotted.toList = name.spelling.plain := by
  have hdot : ".".toList = ['.'] := by decide
  rw [dotted, spelling, plain_intercalate, String.toList_intercalate, hdot, List.map_map,
    List.map_map]
  congr 1
  apply List.map_congr_left
  intro name _
  exact name.toList_raw

theorem Constant.toList_text (constant : Constant) :
    constant.text.toList = constant.spelling.plain := by
  simp [spelling, glyph]

theorem BinaryOp.toList_text (op : BinaryOp) : op.text.toList = op.spelling.plain := by
  cases op <;> decide

theorem UnaryOp.toList_text (op : UnaryOp) : op.text.toList = op.spelling.plain := by
  cases op <;> decide

theorem NullHandling.toList_text (nulls : NullHandling) :
    nulls.text.toList = nulls.spelling.plain := by
  cases nulls <;> decide

theorem Direction.toList_text (direction : Direction) :
    direction.text.toList = direction.spelling.plain := by
  cases direction <;> decide

theorem NullsOrder.toList_text (nulls : NullsOrder) :
    nulls.text.toList = nulls.spelling.plain := by
  cases nulls <;> decide

theorem FrameBound.toList_text (bound : FrameBound) :
    bound.text.toList = bound.spelling.plain := by
  cases bound with
  | preceding count => simp [text, spelling, Constant.toList_text]
  | following count => simp [text, spelling, Constant.toList_text]
  | _ => decide

theorem Frame.toList_text (frame : Frame) : frame.text.toList = frame.spelling.plain := by
  obtain ⟨unit, bound | ⟨start, stop⟩⟩ := frame
  · simp [text, spelling, FrameBound.toList_text]
  · simp [text, spelling, FrameBound.toList_text]

theorem IsValue.toList_text (value : IsValue) : value.text.toList = value.spelling.plain := by
  cases value <;> decide

theorem JoinKind.toList_text (kind : JoinKind) : kind.text.toList = kind.spelling.plain := by
  cases kind <;> decide

theorem aliasSuffix_toList (aliasName : Option Identifier) :
    (aliasSuffix aliasName).toList = (aliasSpelling aliasName).plain := by
  cases aliasName with
  | none => decide
  | some name => simp [aliasSuffix, aliasSpelling, Identifier.toList_raw]

theorem selectHead_toList (distinct : Bool) (shape : Option SelectAs) :
    (selectHead distinct shape).toList = (selectHeadSpelling distinct shape).plain := by
  cases distinct <;> rcases shape with _ | shape <;> try cases shape
  all_goals decide

theorem combineText_toList (op : SetOperator) (quantifier : Option SetQuantifier) :
    (combineText op quantifier).toList = (combineSpelling op quantifier).plain := by
  cases op <;> rcases quantifier with _ | quantifier <;> try cases quantifier
  all_goals decide

end Texts

section TypeTexts

theorem intercalate_commas {texts : List String} {spellings : List Spelling}
    (h : texts.map String.toList = spellings.map plain) :
    (", ".intercalate texts).toList = (commas spellings).plain := by
  have hcomma : ", ".toList = [',', ' '] := by decide
  rw [String.toList_intercalate, plain_commas, hcomma, h]

theorem angled_toList {texts : List String} {spellings : List Spelling}
    (h : texts.map String.toList = spellings.map plain) :
    ("<" ++ ", ".intercalate texts ++ ">").toList = (angled spellings).plain := by
  have htexts := intercalate_commas h
  cases spellings with
  | nil =>
    cases texts with
    | nil => decide
    | cons text texts => cases h
  | cons spelling spellings => simpa [angled, Atom.symbol] using htexts

mutual

theorem SqlType.toList_text : (type : SqlType) → type.text.toList = type.spelling.plain
  | .named name [] => by simp [SqlType.text, SqlType.spelling, Identifier.toList_raw]
  | .named name (param :: params) => by
    have hparams : (", ".intercalate ((param :: params).map Constant.text)).toList =
        (commas ((param :: params).map Constant.spelling)).plain := by
      apply intercalate_commas
      simp [Constant.toList_text]
    rw [SqlType.text, SqlType.spelling, String.toList_append, String.toList_append,
      String.toList_append, hparams]
    · simp [Identifier.toList_raw, Atom.parenOpen, Atom.parenClose]
    · simp
  | .array element => by
    rw [SqlType.text, SqlType.spelling, String.toList_append, String.toList_append,
      SqlType.toList_text element]
    simp
  | .struct fields => by
    have hfields := angled_toList (fieldTexts_toList fields)
    rw [SqlType.text, SqlType.spelling, Spelling.plain_cons_word, ← hfields]
    simp [String.toList_append]
  | .any => by
    rw [SqlType.text, SqlType.spelling]
    decide

theorem fieldTexts_toList : (fields : List Field) →
    (fieldTexts fields).map String.toList = (fieldSpellings fields).map plain
  | [] => rfl
  | ⟨none, type⟩ :: fields => by
    rw [fieldTexts, fieldSpellings, List.map_cons, List.map_cons, fieldTexts_toList fields,
      SqlType.toList_text type]
  | ⟨some name, type⟩ :: fields => by
    rw [fieldTexts, fieldSpellings, List.map_cons, List.map_cons, fieldTexts_toList fields,
      String.toList_append, SqlType.toList_text type, String.toList_append]
    simp [Identifier.toList_raw]

end

theorem Declaration.toList_text (declaration : Declaration) :
    declaration.text.toList = declaration.spelling.plain := by
  simp [Declaration.text, Declaration.spelling, Identifier.toList_raw, SqlType.toList_text]

end TypeTexts

end SqlLayout
