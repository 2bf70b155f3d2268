import SqlLayout.Proofs.Outline.Expr

/-!
# Queries Known from Their Outlines

The clauses of a query have words of their own, so each of them is known from its place among the others.
-/

namespace SqlLayout

open Outline

section Tables

theorem eq_of_replacements {items others : List Replacement}
    (h : ∀ node ∈ Node.replacements items, node.IsKnown)
    (hclear : ∀ node ∈ Node.replacements others, node.IsClear)
    (heq : items.map Replacement.outline = others.map Replacement.outline) : items = others := by
  refine @eq_of_nodes _ (fun item : Replacement => .expr item.expr) Replacement.outline
    (fun item other hknown hclear hsame => ?_) items others h hclear heq
  obtain ⟨hlabel, hexpr⟩ := above_inj hsame
  have hexprs := hknown other.expr hclear hexpr
  have hname : item.aliasName = other.aliasName := Identifier.raw_inj (by simpa using hlabel)
  cases item
  cases other
  simp_all

theorem CommonTable.isKnown {table : CommonTable} (h : (Node.query table.query).IsKnown) :
    (Node.commonTable table).IsKnown := by
  intro other hother heq
  obtain ⟨hlabel, hquery⟩ := above_inj heq
  have hqueries := h other.query (hother.child (by simp [Node.children])) hquery
  have hname : table.name = other.name := Identifier.raw_inj (by simpa using hlabel)
  cases table
  cases other
  simp_all

theorem CommonTables.eq_of_outline {common other : Option CommonTables}
    (h : ∀ node ∈ Node.ofCommonTables common, node.IsKnown)
    (hclear : ∀ node ∈ Node.ofCommonTables other, node.IsClear)
    (heq : common.toList.map CommonTables.outline = other.toList.map CommonTables.outline) :
    common = other := by
  refine eq_of_option (fun inner hinner next hnext hsame => ?_) heq
  rw [Option.mem_def] at hinner hnext
  subst hinner hnext
  rw [outline_eq, outline_eq, node.injEq] at hsame
  have htables : inner.tables = next.tables :=
    @eq_of_nodes _ Node.commonTable CommonTable.outline (fun _ other hknown hclear => hknown other hclear)
      inner.tables next.tables h hclear hsame.2
  have hrecursive := eq_of_flag hsame.1
  cases inner
  cases next
  simp_all

end Tables

section Selections

theorem SelectItem.word_outline (item : SelectItem) : item.outline.word ∈ ["Wildcard", "Item"] := by
  cases item with
  | wildcard qualifier except replace =>
    exact List.mem_append_left ["Item"] (firstWord_mem "Wildcard" (by decide) _)
  | expr value aliasName => exact List.mem_append_right ["Wildcard"] (firstWord_mem "Item" (by decide) _)

theorem SelectItem.isKnown {item : SelectItem} (h : (Node.selectItem item).IsClear)
    (hknown : ∀ node ∈ Node.ofSelectItem item, node.IsKnown) : (Node.selectItem item).IsKnown := by
  intro other hother heq
  have hlocal : item.IsLocallySound := h.sound.here
  have hlocal' : other.IsLocallySound := hother.sound.here
  have hclear : ∀ node ∈ Node.ofSelectItem other, node.IsClear := fun node hnode => hother.child hnode
  have hwords {qualifier : Option QualifiedName} {except : List Identifier} {aliasName : Option Identifier}
      (hlabel : wildcardLabel qualifier except = withAlias "Item" aliasName) : False := by
    have hword := congrArg firstWord hlabel
    rw [wildcardLabel, withAlias, firstWord_flagged, firstWord_flagged] at hword
    exact absurd hword (by decide)
  cases item with
  | wildcard qualifier except replace =>
    cases other with
    | wildcard qualifier' except' replace' =>
      obtain ⟨hlabel, hparts⟩ := node.inj heq
      obtain ⟨hqualifier, hexcept⟩ :=
        eq_of_wildcardLabel hlocal.1 hlocal'.1 hlocal.2.1 hlocal'.2.1 hlabel
      rw [hqualifier, hexcept, eq_of_replacements hknown hclear hparts]
    | expr value' aliasName' => exact (hwords (node.inj heq).1).elim
  | expr value aliasName =>
    cases other with
    | wildcard qualifier' except' replace' => exact (hwords (node.inj heq).1.symm).elim
    | expr value' aliasName' =>
      obtain ⟨hlabel, hparts⟩ := node.inj heq
      have hvalues : [value] = [value'] := eq_of_exprs hknown hclear hparts
      cases hvalues
      rw [eq_of_withAlias hlabel]

/-- The clauses of a selection, each with the ones after it. -/
theorem Select.eq_of_clauses {select other : Select}
    (h : select.outline = other.outline) :
    select.items.map SelectItem.outline = other.items.map SelectItem.outline ∧
      select.source.toList.map (fun source => above "From" source.outline) =
        other.source.toList.map (fun source => above "From" source.outline) ∧
      part "Where" select.filter = part "Where" other.filter ∧
      select.groupBy.map Expr.outline = other.groupBy.map Expr.outline ∧
      part "Having" select.having = part "Having" other.having ∧
      part "Qualify" select.qualify = part "Qualify" other.qualify := by
  have hitems (select : Select) : HaveWords ["Wildcard", "Item"] (select.items.map SelectItem.outline) :=
    haveWords_map fun item _ => item.word_outline
  have hsource (select : Select) :
      HaveWords ["From"] (select.source.toList.map fun source => above "From" source.outline) :=
    haveWords_map fun _ _ => firstWord_mem "From" (by decide) []
  have hfilter (select : Select) : HaveWords ["Where"] (part "Where" select.filter) :=
    haveWords_part (by decide) _
  have hgroup (select : Select) : HaveWords ["GroupBy"] (group "GroupBy" (select.groupBy.map Expr.outline)) :=
    haveWords_group (by decide)
  have hhaving (select : Select) : HaveWords ["Having"] (part "Having" select.having) :=
    haveWords_part (by decide) _
  have hqualify (select : Select) : HaveWords ["Qualify"] (part "Qualify" select.qualify) :=
    haveWords_part (by decide) _
  have hlast (select : Select) := (hhaving select).append (hqualify select)
  have hgrouped (select : Select) := (hgroup select).append (hlast select)
  have hfiltered (select : Select) := (hfilter select).append (hgrouped select)
  have hsourced (select : Select) := (hsource select).append (hfiltered select)
  rw [outline_eq, outline_eq, node.injEq] at h
  obtain ⟨hitem, h⟩ := append_inj_of_words (by decide) (hitems select) (hitems other) (hsourced select)
    (hsourced other) h.2
  obtain ⟨hfrom, h⟩ := append_inj_of_words (by decide) (hsource select) (hsource other) (hfiltered select)
    (hfiltered other) h
  obtain ⟨hwhere, h⟩ := append_inj_of_words (by decide) (hfilter select) (hfilter other) (hgrouped select)
    (hgrouped other) h
  obtain ⟨hgroups, h⟩ := append_inj_of_words (by decide) (hgroup select) (hgroup other) (hlast select)
    (hlast other) h
  obtain ⟨hhavings, hqualifies⟩ := append_inj_of_words (by decide) (hhaving select) (hhaving other)
    (hqualify select) (hqualify other) h
  exact ⟨hitem, hfrom, hwhere, group_inj hgroups, hhavings, hqualifies⟩

theorem Select.isKnown {select : Select} (hknown : ∀ node ∈ Node.ofSelect select, node.IsKnown) :
    (Node.select select).IsKnown := by
  intro other hother heq
  have hclear : ∀ node ∈ Node.ofSelect other, node.IsClear := fun node hnode => hother.child hnode
  simp only [Node.ofSelect, List.forall_mem_append] at hknown hclear
  obtain ⟨⟨⟨⟨⟨hitems, hsource⟩, hfilter⟩, hhaving⟩, hqualify⟩, hgroup⟩ := hknown
  obtain ⟨⟨⟨⟨⟨hitems', hsource'⟩, hfilter'⟩, hhaving'⟩, hqualify'⟩, hgroup'⟩ := hclear
  obtain ⟨hitem, hfrom, hwhere, hgroups, hhavings, hqualifies⟩ := Select.eq_of_clauses heq
  have hitemsEq : select.items = other.items :=
    @eq_of_nodes _ Node.selectItem SelectItem.outline (fun _ next hknown hclear => hknown next hclear)
      select.items other.items hitems hitems' hitem
  have hsourceEq : select.source = other.source := by
    refine eq_of_option (fun table hmem next hnext hsame => ?_) hfrom
    exact hsource (.tableExpr table) (List.mem_map_of_mem (Option.mem_toList.mpr hmem)) next
      (hsource' (.tableExpr next) (List.mem_map_of_mem (Option.mem_toList.mpr hnext))) (above_inj hsame).2
  have hfilterEq := eq_of_part hfilter hfilter' hwhere
  have hgroupEq := eq_of_exprs hgroup hgroup' hgroups
  have hhavingEq := eq_of_part hhaving hhaving' hhavings
  have hqualifyEq := eq_of_part hqualify hqualify' hqualifies
  rw [outline_eq, outline_eq, node.injEq] at heq
  obtain ⟨hdistinct, hshape⟩ := eq_of_selectFlags (flagTail_of_flagged heq.1)
  cases select
  cases other
  simp_all

end Selections

section TableExpressions

/-- The word that the outline of a table expression starts with. -/
def TableExpr.word : TableExpr → String
  | table _ _ => "Table"
  | subquery _ _ => "Subquery"
  | unnest _ _ _ => "Unnest"
  | join _ _ _ _ => "Join"

theorem TableExpr.word_outline (table : TableExpr) : table.outline.word = table.word := by
  cases table with
  | table name aliasName =>
    exact List.mem_singleton.mp (firstWord_after_mem "Table" (by decide) (by decide) name.dotted _)
  | subquery query aliasName => exact List.mem_singleton.mp (firstWord_mem "Subquery" (by decide) _)
  | unnest array aliasName offset =>
    have hunnest : firstWord (withAlias "Unnest" aliasName) = "Unnest" :=
      List.mem_singleton.mp (firstWord_mem "Unnest" (by decide) _)
    cases offset with
    | none => exact hunnest
    | some offset =>
      have hlabel : firstWord (withAlias "Unnest" aliasName ++ " " ++ "WITH OFFSET") = "Unnest" := by
        rw [firstWord_gap, hunnest]
      rw [String.append_assoc] at hlabel
      exact (firstWord_flagged _ _).trans hlabel
  | join left kind right condition =>
    rw [outline_join]
    exact List.mem_singleton.mp (firstWord_after_mem "Join" (by decide) (by decide) kind.text [])

theorem JoinCondition.eq_of_outline {condition other : Option JoinCondition}
    (h : ∀ inner ∈ condition, inner.IsSound) (hother : ∀ inner ∈ other, inner.IsSound)
    (hknown : ∀ node ∈ Node.ofJoinCondition condition, node.IsKnown)
    (hclear : ∀ node ∈ Node.ofJoinCondition other, node.IsClear)
    (heq : condition.toList.map JoinCondition.outline = other.toList.map JoinCondition.outline) :
    condition = other := by
  have hwords {test : Outline} {names : List Identifier}
      (hsame : above "On" test = leaf ("Using " ++ identifierList names)) : False := by
    have hword := congrArg firstWord (node.inj hsame).1
    rw [firstWord_after "Using" (by decide) (by decide)] at hword
    exact absurd hword (by decide)
  refine eq_of_option (fun inner hinner next hnext hsame => ?_) heq
  rw [Option.mem_def] at hinner hnext
  subst hinner hnext
  cases inner with
  | condition test =>
    cases next with
    | condition test' =>
      have htests : [test] = [test'] := eq_of_exprs hknown hclear (node.inj hsame).2
      cases htests
      rfl
    | columns names => exact (hwords hsame).elim
  | columns names =>
    cases next with
    | condition test => exact (hwords hsame.symm).elim
    | columns names' =>
      have htext : identifierList names = identifierList names' := by simpa using (node.inj hsame).1
      rw [eq_of_identifierList (h _ rfl) (hother _ rfl) htext]

theorem TableExpr.isKnown {table : TableExpr} (h : (Node.tableExpr table).IsClear)
    (hknown : ∀ node ∈ Node.ofTableExpr table, node.IsKnown) : (Node.tableExpr table).IsKnown := by
  intro other hother heq
  have hlocal : table.IsLocallySound := h.sound.here
  have hlocal' : other.IsLocallySound := hother.sound.here
  have hclear : ∀ node ∈ Node.ofTableExpr other, node.IsClear := fun node hnode => hother.child hnode
  have hword : table.word = other.word := by rw [← word_outline, heq, word_outline]
  cases table with
  | table name aliasName =>
    cases other with
    | table name' aliasName' =>
      have hlabel := (node.inj heq).1
      obtain ⟨hname, htail⟩ := eq_of_flagged "Table" (by decide) (by decide)
        (QualifiedName.isSegment_of_isSound hlocal.1) (QualifiedName.isSegment_of_isSound hlocal'.1)
        (by simpa using isFlag_alias hlocal.2) (by simpa using isFlag_alias hlocal'.2) hlabel
      subst hname
      rw [eq_of_withAlias hlabel]
    | _ => simp [TableExpr.word] at hword
  | subquery query aliasName =>
    cases other with
    | subquery query' aliasName' =>
      obtain ⟨hlabel, hsame⟩ := above_inj heq
      have hquery : query = query' := hknown (.query query) (by simp [Node.ofTableExpr]) query'
        (hclear _ (by simp [Node.ofTableExpr])) hsame
      rw [hquery, eq_of_withAlias hlabel]
    | _ => simp [TableExpr.word] at hword
  | unnest array aliasName offset =>
    cases other with
    | unnest array' aliasName' offset' =>
      obtain ⟨hlabel, hparts⟩ := node.inj heq
      have harrays : [array] = [array'] := eq_of_exprs hknown hclear hparts
      obtain ⟨halias, hoffset⟩ :=
        eq_of_unnestLabel hlocal.2.1 hlocal'.2.1 hlocal.2.2 hlocal'.2.2 hlabel
      cases harrays
      rw [halias, hoffset]
    | _ => simp [TableExpr.word] at hword
  | join left kind right condition =>
    cases other with
    | join left' kind' right' condition' =>
      simp only [Node.ofTableExpr, List.forall_mem_append, List.forall_mem_cons] at hknown hclear
      rw [outline_join, outline_join, node.injEq, List.cons.injEq, List.cons.injEq] at heq
      obtain ⟨hlabel, hleft, hright, hcondition⟩ := heq
      have hkind : kind.text = kind'.text := by simpa using hlabel
      have hlefts : left = left' := hknown.1.1 left' hclear.1.1 hleft
      have hrights : right = right' := hknown.1.2.1 right' hclear.1.2.1 hright
      have hconditions := JoinCondition.eq_of_outline hlocal.2.2 hlocal'.2.2 hknown.2 hclear.2 hcondition
      rw [hlefts, JoinKind.text_inj hkind, hrights, hconditions]
    | _ => simp [TableExpr.word] at hword

end TableExpressions

section Queries

/-- The word that the outline of a set expression starts with. -/
def SetExpr.word : SetExpr → String
  | select _ => "Select"
  | paren _ => "Paren"
  | combine _ _ _ _ => "SetOperation"

theorem SetExpr.word_outline (body : SetExpr) : body.outline.word = body.word := by
  cases body with
  | select select =>
    have hword : select.outline.word ∈ ["Select"] := by
      rw [Select.outline_eq]
      exact firstWord_mem "Select" (by decide) _
    exact List.mem_singleton.mp hword
  | paren query => exact List.mem_singleton.mp (firstWord_mem "Paren" (by decide) [])
  | combine op quantifier left right =>
    exact List.mem_singleton.mp (firstWord_after_mem "SetOperation" (by decide) (by decide) op.text _)

theorem SetExpr.isKnown {body : SetExpr} (hknown : ∀ node ∈ Node.ofSetExpr body, node.IsKnown) :
    (Node.setExpr body).IsKnown := by
  intro other hother heq
  have hclear : ∀ node ∈ Node.ofSetExpr other, node.IsClear := fun node hnode => hother.child hnode
  have hword : body.word = other.word := by rw [← word_outline, heq, word_outline]
  cases body with
  | select select =>
    cases other with
    | select select' =>
      have hselect : select = select' := hknown (.select select) (by simp [Node.ofSetExpr]) select'
        (hclear _ (by simp [Node.ofSetExpr])) heq
      rw [hselect]
    | _ => simp [SetExpr.word] at hword
  | paren query =>
    cases other with
    | paren query' =>
      have hquery : query = query' := hknown (.query query) (by simp [Node.ofSetExpr]) query'
        (hclear _ (by simp [Node.ofSetExpr])) (above_inj heq).2
      rw [hquery]
    | _ => simp [SetExpr.word] at hword
  | combine op quantifier left right =>
    cases other with
    | combine op' quantifier' left' right' =>
      obtain ⟨hlabel, hparts⟩ := node.inj heq
      obtain ⟨hop, hquantifier⟩ := eq_of_setOperationLabel hlabel
      have hoperands : [left, right] = [left', right'] :=
        @eq_of_nodes _ Node.setExpr SetExpr.outline (fun _ other hknown hclear => hknown other hclear)
          [left, right] [left', right'] hknown hclear hparts
      cases hoperands
      rw [hop, hquantifier]
    | _ => simp [SetExpr.word] at hword

theorem Query.isKnown {query : Query} (h : (Node.query query).IsClear)
    (hknown : ∀ node ∈ Node.children (.query query), node.IsKnown) : (Node.query query).IsKnown := by
  intro other hother heq
  have hlocal : query.IsLocallySound := h.sound.here
  have hlocal' : other.IsLocallySound := hother.sound.here
  have hclear : ∀ node ∈ Node.children (.query other), node.IsClear := fun node hnode => hother.child hnode
  simp only [Node.children, List.forall_mem_append, List.forall_mem_singleton] at hknown hclear
  rw [outline_eq, outline_eq, node.injEq] at heq
  have hcommon (query : Query) : HaveWords ["With"] (query.common.toList.map CommonTables.outline) := by
    refine haveWords_map fun common _ => ?_
    rw [CommonTables.outline_eq]
    exact firstWord_mem "With" (by decide) _
  have hbody (query : Query) : HaveWords ["Select", "Paren", "SetOperation"] [query.body.outline] := by
    apply haveWords_singleton
    rw [SetExpr.word_outline]
    cases query.body <;> simp [SetExpr.word]
  have hrest (query : Query) := (hbody query).append (haveWords_order query.order)
  obtain ⟨hcommons, hparts⟩ := append_inj_of_words (by decide) (hcommon query) (hcommon other) (hrest query)
    (hrest other) heq.2
  obtain ⟨hbodies, horders⟩ := List.cons.inj hparts
  have hcommonEq := CommonTables.eq_of_outline hknown.1.1 hclear.1.1 hcommons
  have hbodyEq : query.body = other.body := hknown.1.2 other.body hclear.1.2 hbodies
  have horderEq := eq_of_order hlocal.2 hlocal'.2 hknown.2 hclear.2 horders
  cases query
  cases other
  simp_all

end Queries

end SqlLayout
