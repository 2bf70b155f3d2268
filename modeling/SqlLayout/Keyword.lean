import SqlLayout.Text.Ascii

/-!
# Reserved Words

A reserved word is never a bare name or an implicit alias; it has to be backquoted to be one. A few
reserved words are still names of functions when an opening parenthesis follows.
-/

namespace SqlLayout.Keyword

def reserved : List String :=
  ["ALL", "AND", "ANY", "ARRAY", "AS", "ASC", "ASSERT_ROWS_MODIFIED", "AT", "BETWEEN", "BY", "CASE",
   "CAST", "COLLATE", "CONTAINS", "CREATE", "CROSS", "CUBE", "CURRENT", "DEFAULT", "DEFINE", "DESC",
   "DISTINCT", "ELSE", "END", "ENUM", "ESCAPE", "EXCEPT", "EXCLUDE", "EXISTS", "EXTRACT", "FALSE",
   "FETCH", "FOLLOWING", "FOR", "FROM", "FULL", "GROUP", "GROUPING", "GROUPS", "HASH", "HAVING", "IF",
   "IGNORE", "IN", "INNER", "INTERSECT", "INTERVAL", "INTO", "IS", "JOIN", "LATERAL", "LEFT", "LIKE",
   "LIMIT", "LOOKUP", "MERGE", "NATURAL", "NEW", "NO", "NOT", "NULL", "NULLS", "OF", "ON", "OR",
   "ORDER", "OUTER", "OVER", "PARTITION", "PRECEDING", "PROTO", "QUALIFY", "RANGE", "RECURSIVE",
   "RESPECT", "RIGHT", "ROLLUP", "ROWS", "SELECT", "SET", "SOME", "STRUCT", "TABLESAMPLE", "THEN",
   "TO", "TREAT", "TRUE", "UNBOUNDED", "UNION", "UNNEST", "USING", "WHEN", "WHERE", "WINDOW", "WITH",
   "WITHIN"]

/-- The reserved words that name a function when directly followed by a parenthesis. -/
def callable : List String :=
  ["CUBE", "GROUPING", "IF", "LEFT", "RIGHT", "ROLLUP"]

def isReserved (word : String) : Bool :=
  reserved.any (Text.sameWord · word)

def isCallable (word : String) : Bool :=
  callable.any (Text.sameWord · word)

theorem isReserved_congr {word other : String} (h : Text.sameWord word other) :
    isReserved word = isReserved other := by
  have hupper := (Text.sameWord_iff word other).mp h
  unfold isReserved Text.sameWord
  rw [hupper]

theorem isCallable_congr {word other : String} (h : Text.sameWord word other) :
    isCallable word = isCallable other := by
  have hupper := (Text.sameWord_iff word other).mp h
  unfold isCallable Text.sameWord
  rw [hupper]

theorem callable_subset_reserved : callable ⊆ reserved := by
  decide

end SqlLayout.Keyword
