import SqlLayout.Syntax.Statement

/-!
# Equality of Trees

Trees refer to each other through lists and options, so they are compared constructor by constructor.
-/

namespace SqlLayout

mutual

def SqlType.same : SqlType → SqlType → Bool
  | .named n p, .named n' p' => n == n' && p == p'
  | .array e, .array e' => e.same e'
  | .struct f, .struct f' => sameFields f f'
  | .any, .any => true
  | _, _ => false
termination_by structural a => a

def Field.same : Field → Field → Bool
  | ⟨n, t⟩, ⟨n', t'⟩ => n == n' && t.same t'
termination_by structural a => a

def sameFields : List Field → List Field → Bool
  | [], [] => true
  | a :: as, b :: bs => a.same b && sameFields as bs
  | _, _ => false
termination_by structural a => a

end

instance : BEq SqlType := ⟨SqlType.same⟩

instance : BEq Field := ⟨Field.same⟩

mutual

def Expr.same : Expr → Expr → Bool
  | .constant c, .constant c' => c == c'
  | .name n, .name n' => n == n'
  | .star, .star => true
  | .call f d a n, .call f' d' a' n' => f == f' && d == d' && sameExprs a a' && n == n'
  | .array t i, .array t' i' => t == t' && sameExprs i i'
  | .arrayQuery q, .arrayQuery q' => q.same q'
  | .arrayAgg d o n or w off, .arrayAgg d' o' n' or' w' off' =>
    d == d' && o.same o' && n == n' && sameRowOrder? or or' && sameWindow? w w'
      && sameExpr? off off'
  | .stringAgg f d o de n or w a, .stringAgg f' d' o' de' n' or' w' a' =>
    f == f' && d == d' && o.same o' && de == de' && n == n' && sameRowOrder? or or'
      && sameWindow? w w' && sameAccessor? a a'
  | .over o w, .over o' w' => o.same o' && w.same w'
  | .binary o l r, .binary o' l' r' => o == o' && l.same l' && r.same r'
  | .unary o op, .unary o' op' => o == o' && op.same op'
  | .paren i, .paren i' => i.same i'
  | .subquery q, .subquery q' => q.same q'
  | .existsQuery q, .existsQuery q' => q.same q'
  | .struct f i, .struct f' i' => f == f' && sameStructItems i i'
  | .cast s o t, .cast s' o' t' => s == s' && o.same o' && t == t'
  | .extract p o z, .extract p' o' z' => p.same p' && o.same o' && sameExpr? z z'
  | .case o b ot, .case o' b' ot' => sameExpr? o o' && sameBranches b b' && sameExpr? ot ot'
  | .interval c u, .interval c' u' => c.same c' && u == u'
  | .member o n t, .member o' n' t' => o.same o' && n == n' && t.same t'
  | .between o n l h, .between o' n' l' h' => o.same o' && n == n' && l.same l' && h.same h'
  | .isValue o n v, .isValue o' n' v' => o.same o' && n == n' && v == v'
  | .index b k p, .index b' k' p' => b.same b' && k == k' && p.same p'
  | .field b n, .field b' n' => b.same b' && n == n'
  | _, _ => false
termination_by structural a => a

def SortKey.same : SortKey → SortKey → Bool
  | ⟨e, d, n⟩, ⟨e', d', n'⟩ => e.same e' && d == d' && n == n'
termination_by structural a => a

def RowOrder.same : RowOrder → RowOrder → Bool
  | ⟨k, l, o⟩, ⟨k', l', o'⟩ => sameSortKeys k k' && sameExpr? l l' && sameExpr? o o'
termination_by structural a => a

def Window.same : Window → Window → Bool
  | ⟨p, o, f⟩, ⟨p', o', f'⟩ => sameExprs p p' && sameSortKeys o o' && f == f'
termination_by structural a => a

def Accessor.same : Accessor → Accessor → Bool
  | ⟨n, p⟩, ⟨n', p'⟩ => n == n' && p.same p'
termination_by structural a => a

def StructItem.same : StructItem → StructItem → Bool
  | ⟨e, a⟩, ⟨e', a'⟩ => e.same e' && a == a'
termination_by structural a => a

def Branch.same : Branch → Branch → Bool
  | ⟨c, r⟩, ⟨c', r'⟩ => c.same c' && r.same r'
termination_by structural a => a

def MemberTarget.same : MemberTarget → MemberTarget → Bool
  | .list i, .list i' => sameExprs i i'
  | .query q, .query q' => q.same q'
  | .unnest a, .unnest a' => a.same a'
  | _, _ => false
termination_by structural a => a

def Query.same : Query → Query → Bool
  | ⟨c, b, o⟩, ⟨c', b', o'⟩ => sameCommonTables? c c' && b.same b' && sameRowOrder? o o'
termination_by structural a => a

def CommonTables.same : CommonTables → CommonTables → Bool
  | ⟨i, t⟩, ⟨i', t'⟩ => i == i' && sameCommonTables t t'
termination_by structural a => a

def CommonTable.same : CommonTable → CommonTable → Bool
  | ⟨n, q⟩, ⟨n', q'⟩ => n == n' && q.same q'
termination_by structural a => a

def SetExpr.same : SetExpr → SetExpr → Bool
  | .select s, .select s' => s.same s'
  | .paren q, .paren q' => q.same q'
  | .combine o q l r, .combine o' q' l' r' => o == o' && q == q' && l.same l' && r.same r'
  | _, _ => false
termination_by structural a => a

def Select.same : Select → Select → Bool
  | ⟨d, s, i, so, f, g, h, q⟩, ⟨d', s', i', so', f', g', h', q'⟩ =>
    d == d' && s == s' && sameSelectItems i i' && sameTableExpr? so so' && sameExpr? f f'
      && sameExprs g g' && sameExpr? h h' && sameExpr? q q'
termination_by structural a => a

def SelectItem.same : SelectItem → SelectItem → Bool
  | .wildcard q e r, .wildcard q' e' r' => q == q' && e == e' && sameReplacements r r'
  | .expr e a, .expr e' a' => e.same e' && a == a'
  | _, _ => false
termination_by structural a => a

def Replacement.same : Replacement → Replacement → Bool
  | ⟨e, a⟩, ⟨e', a'⟩ => e.same e' && a == a'
termination_by structural a => a

def TableExpr.same : TableExpr → TableExpr → Bool
  | .table n a, .table n' a' => n == n' && a == a'
  | .subquery q a, .subquery q' a' => q.same q' && a == a'
  | .unnest a al o, .unnest a' al' o' => a.same a' && al == al' && o == o'
  | .join l k r c, .join l' k' r' c' =>
    l.same l' && k == k' && r.same r' && sameJoinCondition? c c'
  | _, _ => false
termination_by structural a => a

def JoinCondition.same : JoinCondition → JoinCondition → Bool
  | .condition c, .condition c' => c.same c'
  | .columns c, .columns c' => c == c'
  | _, _ => false
termination_by structural a => a

def sameExprs : List Expr → List Expr → Bool
  | [], [] => true
  | a :: as, b :: bs => a.same b && sameExprs as bs
  | _, _ => false
termination_by structural a => a

def sameSortKeys : List SortKey → List SortKey → Bool
  | [], [] => true
  | a :: as, b :: bs => a.same b && sameSortKeys as bs
  | _, _ => false
termination_by structural a => a

def sameStructItems : List StructItem → List StructItem → Bool
  | [], [] => true
  | a :: as, b :: bs => a.same b && sameStructItems as bs
  | _, _ => false
termination_by structural a => a

def sameBranches : List Branch → List Branch → Bool
  | [], [] => true
  | a :: as, b :: bs => a.same b && sameBranches as bs
  | _, _ => false
termination_by structural a => a

def sameCommonTables : List CommonTable → List CommonTable → Bool
  | [], [] => true
  | a :: as, b :: bs => a.same b && sameCommonTables as bs
  | _, _ => false
termination_by structural a => a

def sameSelectItems : List SelectItem → List SelectItem → Bool
  | [], [] => true
  | a :: as, b :: bs => a.same b && sameSelectItems as bs
  | _, _ => false
termination_by structural a => a

def sameReplacements : List Replacement → List Replacement → Bool
  | [], [] => true
  | a :: as, b :: bs => a.same b && sameReplacements as bs
  | _, _ => false
termination_by structural a => a

def sameExpr? : Option Expr → Option Expr → Bool
  | none, none => true
  | some a, some b => a.same b
  | _, _ => false
termination_by structural a => a

def sameRowOrder? : Option RowOrder → Option RowOrder → Bool
  | none, none => true
  | some a, some b => a.same b
  | _, _ => false
termination_by structural a => a

def sameWindow? : Option Window → Option Window → Bool
  | none, none => true
  | some a, some b => a.same b
  | _, _ => false
termination_by structural a => a

def sameAccessor? : Option Accessor → Option Accessor → Bool
  | none, none => true
  | some a, some b => a.same b
  | _, _ => false
termination_by structural a => a

def sameCommonTables? : Option CommonTables → Option CommonTables → Bool
  | none, none => true
  | some a, some b => a.same b
  | _, _ => false
termination_by structural a => a

def sameTableExpr? : Option TableExpr → Option TableExpr → Bool
  | none, none => true
  | some a, some b => a.same b
  | _, _ => false
termination_by structural a => a

def sameJoinCondition? : Option JoinCondition → Option JoinCondition → Bool
  | none, none => true
  | some a, some b => a.same b
  | _, _ => false
termination_by structural a => a

end

instance : BEq Expr := ⟨Expr.same⟩

instance : BEq Query := ⟨Query.same⟩

deriving instance BEq for Declaration, OptionItem, FunctionBody, FunctionDef, TableDef, ViewDef
deriving instance BEq for InsertSource, Insertion, Action, Statement, Script

end SqlLayout
