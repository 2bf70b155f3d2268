import SqlLayout.Syntax.Constant
import SqlLayout.Text.Ascii

/-!
# Operators and Modifiers

The closed choices of the language and how each of them is spelled.
-/

namespace SqlLayout

inductive BinaryOp where
  | or | and | eq | notEq | ltGt | lt | ltEq | gt | gtEq | like | notLike
  | bitOr | bitXor | bitAnd | shiftLeft | shiftRight | plus | minus | multiply | divide | concat
deriving DecidableEq, Inhabited

def BinaryOp.text : BinaryOp → String
  | or => "OR" | and => "AND"
  | eq => "=" | notEq => "!=" | ltGt => "<>" | lt => "<" | ltEq => "<=" | gt => ">" | gtEq => ">="
  | like => "LIKE" | notLike => "NOT LIKE"
  | bitOr => "|" | bitXor => "^" | bitAnd => "&" | shiftLeft => "<<" | shiftRight => ">>"
  | plus => "+" | minus => "-" | multiply => "*" | divide => "/" | concat => "||"

inductive UnaryOp where
  | not | minus | plus | bitNot
deriving DecidableEq, Inhabited

def UnaryOp.text : UnaryOp → String
  | not => "NOT" | minus => "-" | plus => "+" | bitNot => "~"

/-- What a function does with the nulls among its arguments. -/
inductive NullHandling where
  | ignore | respect
deriving DecidableEq, Inhabited

def NullHandling.text : NullHandling → String
  | ignore => "IGNORE NULLS" | respect => "RESPECT NULLS"

/-- The aggregates over strings that have modifiers of their own. -/
inductive StringFunction where
  | stringAgg | split
deriving DecidableEq, Inhabited

def StringFunction.text : StringFunction → String
  | stringAgg => "STRING_AGG" | split => "SPLIT"

/-- The ways to count the elements of an array. -/
inductive IndexKind where
  | offset | ordinal | safeOffset | safeOrdinal
deriving DecidableEq, Inhabited

namespace IndexKind

def text : IndexKind → String
  | offset => "OFFSET" | ordinal => "ORDINAL"
  | safeOffset => "SAFE_OFFSET" | safeOrdinal => "SAFE_ORDINAL"

def ofWord? (word : String) : Option IndexKind :=
  [offset, ordinal, safeOffset, safeOrdinal].find? fun kind => Text.sameWord kind.text word

end IndexKind

inductive Direction where
  | asc | desc
deriving DecidableEq, Inhabited

def Direction.text : Direction → String
  | asc => "ASC" | desc => "DESC"

/-- Where a sort puts the nulls. -/
inductive NullsOrder where
  | first | last
deriving DecidableEq, Inhabited

def NullsOrder.text : NullsOrder → String
  | first => "NULLS FIRST" | last => "NULLS LAST"

inductive FrameUnit where
  | rows | range
deriving DecidableEq, Inhabited

def FrameUnit.text : FrameUnit → String
  | rows => "ROWS" | range => "RANGE"

inductive FrameBound where
  | unboundedPreceding | unboundedFollowing | currentRow
  | preceding (count : Constant)
  | following (count : Constant)
deriving DecidableEq, Inhabited

def FrameBound.text : FrameBound → String
  | unboundedPreceding => "UNBOUNDED PRECEDING"
  | unboundedFollowing => "UNBOUNDED FOLLOWING"
  | currentRow => "CURRENT ROW"
  | preceding count => count.text ++ " PRECEDING"
  | following count => count.text ++ " FOLLOWING"

inductive FrameExtent where
  | single (bound : FrameBound)
  | between (start stop : FrameBound)
deriving DecidableEq, Inhabited

/-- The rows of a window that a function looks at. -/
structure Frame where
  unit : FrameUnit
  extent : FrameExtent
deriving DecidableEq, Inhabited

def Frame.text (frame : Frame) : String :=
  match frame.extent with
  | .single bound => frame.unit.text ++ " " ++ bound.text
  | .between start stop => frame.unit.text ++ " BETWEEN " ++ start.text ++ " AND " ++ stop.text

/-- The right side of an `IS` test. -/
inductive IsValue where
  | null | true | false
deriving DecidableEq, Inhabited

def IsValue.text : IsValue → String
  | null => "NULL" | true => "TRUE" | false => "FALSE"

inductive SetOperator where
  | union | intersect | except
deriving DecidableEq, Inhabited

def SetOperator.text : SetOperator → String
  | union => "UNION" | intersect => "INTERSECT" | except => "EXCEPT"

inductive SetQuantifier where
  | all | distinct
deriving DecidableEq, Inhabited

def SetQuantifier.text : SetQuantifier → String
  | all => "ALL" | distinct => "DISTINCT"

/-- The shape a `SELECT` gives to its rows when it says so. -/
inductive SelectAs where
  | struct | value
deriving DecidableEq, Inhabited

def SelectAs.text : SelectAs → String
  | struct => "AS STRUCT" | value => "AS VALUE"

/-- How two tables are joined; a comma joins like `CROSS JOIN`. -/
inductive JoinKind where
  | comma | inner | left | right | full | cross
deriving DecidableEq, Inhabited

namespace JoinKind

def text : JoinKind → String
  | comma => "," | inner => "JOIN" | left => "LEFT JOIN" | right => "RIGHT JOIN"
  | full => "FULL JOIN" | cross => "CROSS JOIN"

/-- Whether a join of this kind may have a condition. -/
def takesCondition : JoinKind → Bool
  | comma | cross => false
  | _ => true

end JoinKind

/-- The keyword for an object that lives as long as its session, in the two ways to write it. -/
inductive TempKeyword where
  | temp | temporary
deriving DecidableEq, Inhabited

def TempKeyword.text : TempKeyword → String
  | temp => "TEMP" | temporary => "TEMPORARY"

end SqlLayout
