import SqlLayout.Proofs.Outline.Known

/-!
# Expressions Known from Their Outlines

The word at the start of a label leaves one kind of expression, the rest of the label leaves one choice of
its names and flags, and the outlines below it are told apart by their own words.
-/

namespace SqlLayout

open Outline Spelling

section Labels

/-- The constant is the last token of its label. -/
theorem Constant.eq_of_outline {value other : Constant} (h : value.IsSound) (hother : other.IsSound)
    (heq : value.outline = other.outline) : value = other := by
  have hkind (kind : ConstantKind) : isKeyword kind.label = true := by cases kind <;> decide
  have hwrites {value : Constant} (h : value.IsSound) :
      Writes (Atom.word "Constant" :: .gap :: Atom.word value.kind.label :: .gap :: value.spelling)
        ("Constant " ++ value.kind.label ++ " " ++ value.text) :=
    ((Writes.keyword (hkind value.kind)).after "Constant" (by decide) (by decide)).gap (Constant.writes h)
  have hlabel := (node.inj heq).1
  have hpieces := (hwrites h).pieces_eq (hlabel ▸ hwrites hother)
  have htext : value.text = other.text := by
    have hlast := (List.cons.inj (List.cons.inj hpieces).2).2
    exact congrArg Prod.snd (List.cons.inj hlast).1
  exact Constant.eq_of_text h hother htext

theorem SqlType.eq_of_castLabel {safe safe' : Bool} {type other : SqlType} (h : type.IsSound)
    (hother : other.IsSound)
    (heq : (if safe then "SafeCast " else "Cast ") ++ type.text =
      (if safe' then "SafeCast " else "Cast ") ++ other.text) : safe = safe' ∧ type = other := by
  have hfirst (safe : Bool) (type : SqlType) :
      firstWord ((if safe then "SafeCast " else "Cast ") ++ type.text) =
        if safe then "SafeCast" else "Cast" := by
    cases safe with
    | true => exact firstWord_after "SafeCast" rfl (by decide) type.text
    | false => exact firstWord_after "Cast" rfl (by decide) type.text
  have hsafe : safe = safe' := by
    have hwords := congrArg firstWord heq
    rw [hfirst, hfirst] at hwords
    cases safe <;> cases safe' <;> simp_all
  subst hsafe
  have htext : type.text = other.text := by simpa using heq
  exact ⟨rfl, SqlType.eq_of_text h hother htext⟩

end Labels

section Items

theorem eq_of_structItems {items others : List StructItem}
    (h : ∀ node ∈ Node.structItems items, node.IsKnown)
    (hclear : ∀ node ∈ Node.structItems others, node.IsClear)
    (heq : items.map StructItem.outline = others.map StructItem.outline) : items = others := by
  refine @eq_of_nodes _ (fun item : StructItem => .expr item.expr) StructItem.outline
    (fun item other hknown hclear hsame => ?_) items others h hclear heq
  obtain ⟨hlabel, hexpr⟩ := above_inj hsame
  have hexprs := hknown other.expr hclear hexpr
  have halias := eq_of_withAlias hlabel
  cases item
  cases other
  simp_all

theorem eq_of_branches {branches others : List Branch} (h : ∀ node ∈ Node.ofBranches branches, node.IsKnown)
    (hclear : ∀ node ∈ Node.ofBranches others, node.IsClear)
    (heq : branches.map Branch.outline = others.map Branch.outline) : branches = others := by
  refine eq_of_outlines (fun branch hbranch other hother hsame => ?_) heq
  have hknown : ∀ node ∈ Node.exprs [branch.condition, branch.result], node.IsKnown := fun node hnode =>
    h node (List.mem_flatMap.mpr ⟨branch, hbranch, hnode⟩)
  have hclears : ∀ node ∈ Node.exprs [other.condition, other.result], node.IsClear := fun node hnode =>
    hclear node (List.mem_flatMap.mpr ⟨other, hother, hnode⟩)
  have hexprs := eq_of_exprs hknown hclears (node.inj hsame).2
  cases branch
  cases other
  simp_all

theorem Query.word_outline (query : Query) : query.outline.word = "Query" := by
  rw [Query.outline_eq]
  exact show firstWord "Query" = "Query" by decide

/-- The word that what follows `IN` starts with. -/
def MemberTarget.word : MemberTarget → String
  | list _ => "List"
  | query _ => "Query"
  | unnest _ => "Unnest"

theorem MemberTarget.word_outline (target : MemberTarget) : target.outline.word = target.word := by
  cases target with
  | list items => exact show firstWord "List" = "List" by decide
  | query body => exact body.word_outline
  | unnest array => exact show firstWord "Unnest" = "Unnest" by decide

theorem MemberTarget.eq_of_outline {target other : MemberTarget}
    (h : ∀ node ∈ Node.ofMemberTarget target, node.IsKnown)
    (hclear : ∀ node ∈ Node.ofMemberTarget other, node.IsClear)
    (heq : target.outline = other.outline) : target = other := by
  have hword : target.word = other.word := by rw [← word_outline, heq, word_outline]
  cases target with
  | list items =>
    cases other with
    | list others =>
      rw [outline_list, outline_list] at heq
      rw [eq_of_exprs h hclear (node.inj heq).2]
    | _ => simp [MemberTarget.word] at hword
  | query body =>
    cases other with
    | query other =>
      have hbody : body = other :=
        h (.query body) (by simp [Node.ofMemberTarget]) other (hclear _ (by simp [Node.ofMemberTarget])) heq
      rw [hbody]
    | _ => simp [MemberTarget.word] at hword
  | unnest array =>
    cases other with
    | unnest other =>
      have harray : [array] = [other] := eq_of_exprs h hclear (node.inj heq).2
      cases harray
      rfl
    | _ => simp [MemberTarget.word] at hword

end Items

section Aggregates

/-- The offset of an order, a window and a subscript are known from their outlines, unless one side has only
the offset and the other only the subscript. -/
theorem eq_of_offsets {offset offset' subscript subscript' : Option Expr} {window window' : Option Window}
    (h : part "Offset" offset ++ (windowOutlines window ++ part "Offset" subscript) =
      part "Offset" offset' ++ (windowOutlines window' ++ part "Offset" subscript')) :
    (part "Offset" offset = part "Offset" offset' ∧ windowOutlines window = windowOutlines window' ∧
        part "Offset" subscript = part "Offset" subscript') ∨
      (window = none ∧ window' = none ∧
        (offset.isSome ∧ subscript = none ∧ offset' = none ∧ subscript'.isSome ∨
          offset = none ∧ subscript.isSome ∧ offset'.isSome ∧ subscript' = none)) := by
  have hwindow (child : Outline) (window : Window) : above "Offset" child ≠ window.outline := by
    rw [Window.outline_eq]
    intro heq
    exact absurd (node.inj heq).1 (by decide)
  cases offset <;> cases offset' <;> cases window <;> cases window' <;> cases subscript <;>
    cases subscript' <;> simp_all [part, windowOutlines, (hwindow _ _).symm]

/-- What is below an aggregate over an array, up to the offsets. -/
theorem eq_of_arrayAggParts {order order' : Option RowOrder} {window window' : Option Window}
    {subscript subscript' : Option Expr}
    (h : orderOutlines order ++ (windowOutlines window ++ part "Offset" subscript) =
      orderOutlines order' ++ (windowOutlines window' ++ part "Offset" subscript')) :
    (orderKeys order).map SortKey.outline = (orderKeys order').map SortKey.outline ∧
      part "Limit" (order.bind RowOrder.limit) = part "Limit" (order'.bind RowOrder.limit) ∧
      part "Offset" (order.bind RowOrder.offset) ++ (windowOutlines window ++ part "Offset" subscript) =
        part "Offset" (order'.bind RowOrder.offset) ++
          (windowOutlines window' ++ part "Offset" subscript') := by
  simp only [orderOutlines_eq, List.append_assoc] at h
  have hoffsets (order : Option RowOrder) (window : Option Window) (subscript : Option Expr) :
      HaveWords ["Offset", "Analytic", "Offset"] (part "Offset" (order.bind RowOrder.offset) ++
        (windowOutlines window ++ part "Offset" subscript)) :=
    (haveWords_part (by decide) _).append
      ((haveWords_window window).append (haveWords_part (by decide) subscript))
  have hlimit (order : Option RowOrder) : HaveWords ["Limit"] (part "Limit" (order.bind RowOrder.limit)) :=
    haveWords_part (by decide) _
  obtain ⟨hkeys, hrest⟩ := append_inj_of_words (by decide) (haveWords_group (by decide))
    (haveWords_group (by decide)) ((hlimit order).append (hoffsets order window subscript))
    ((hlimit order').append (hoffsets order' window' subscript')) h
  obtain ⟨hlimits, hrest⟩ := append_inj_of_words (by decide) (hlimit order) (hlimit order')
    (hoffsets order window subscript) (hoffsets order' window' subscript') hrest
  exact ⟨group_inj hkeys, hlimits, hrest⟩

/-- An order with an offset has a limit, so no subscript that shows looks like the offset after that limit. -/
theorem Expr.subscript_eq_none {distinct : Bool} {operand : Expr} {nulls : Option NullHandling}
    {order other : Option RowOrder} {subscript : Option Expr}
    (hshown : (Expr.arrayAgg distinct operand nulls order none subscript).hidesSubscript = false)
    (hother : ∀ inner ∈ other, inner.IsSound)
    (hlimit : order.bind RowOrder.limit = other.bind RowOrder.limit)
    (hoffset : order.bind RowOrder.offset = none) (hoffset' : (other.bind RowOrder.offset).isSome) :
    subscript = none := by
  cases subscript with
  | none => rfl
  | some position =>
    cases other with
    | none => cases hoffset'
    | some other =>
      have hsome : (order.bind RowOrder.limit).isSome := by
        rw [hlimit]
        exact (hother other rfl).offset_limit hoffset'
      cases order with
      | none => cases hsome
      | some order =>
        have hnone : order.offset = none := hoffset
        have hlimits : order.limit.isSome = true := hsome
        rw [hidesSubscript, hnone, hlimits] at hshown
        cases hshown

theorem Expr.eq_of_arrayAgg {distinct distinct' : Bool} {operand operand' : Expr}
    {nulls nulls' : Option NullHandling} {order order' : Option RowOrder} {window window' : Option Window}
    {subscript subscript' : Option Expr}
    (h : (Node.expr (.arrayAgg distinct operand nulls order window subscript)).IsClear)
    (hother : (Node.expr (.arrayAgg distinct' operand' nulls' order' window' subscript')).IsClear)
    (hknown : ∀ node ∈ Node.ofExpr (.arrayAgg distinct operand nulls order window subscript), node.IsKnown)
    (heq : (Expr.arrayAgg distinct operand nulls order window subscript).outline =
      (Expr.arrayAgg distinct' operand' nulls' order' window' subscript').outline) :
    Expr.arrayAgg distinct operand nulls order window subscript =
      .arrayAgg distinct' operand' nulls' order' window' subscript' := by
  have hlocal := h.sound.here.1
  have hlocal' := hother.sound.here.1
  have hclear : ∀ node ∈ Node.ofExpr (.arrayAgg distinct' operand' nulls' order' window' subscript'),
      node.IsClear := fun node hnode => hother.child hnode
  simp only [Node.ofExpr, List.forall_mem_append, List.forall_mem_singleton, Node.ofRowOrder_eq]
    at hknown hclear
  rw [outline_arrayAgg, outline_arrayAgg, node.injEq, List.cons.injEq] at heq
  obtain ⟨hlabel, hoperand, hparts⟩ := heq
  obtain ⟨hdistinct, hnulls⟩ := eq_of_callFlags (flagTail_of_flagged hlabel)
  obtain ⟨hkeys, hlimit, hoffsets⟩ := eq_of_arrayAggParts hparts
  have hlimits := eq_of_part hknown.1.1.2.1.2 hclear.1.1.2.1.2 hlimit
  -- Without a window an offset on one side could be the subscript on the other, but that one is hidden.
  have hsame : part "Offset" (order.bind RowOrder.offset) = part "Offset" (order'.bind RowOrder.offset) ∧
      windowOutlines window = windowOutlines window' ∧
        part "Offset" subscript = part "Offset" subscript' := by
    obtain hsame | ⟨rfl, rfl, ⟨hsome, -, hnone, hsubscript⟩ | ⟨hnone, hsubscript, hsome, -⟩⟩ :=
      eq_of_offsets hoffsets
    · exact hsame
    · rw [subscript_eq_none hother.hidesSubscript hlocal.2.1 hlimits.symm hnone hsome] at hsubscript
      cases hsubscript
    · rw [subscript_eq_none h.hidesSubscript hlocal'.2.1 hlimits hnone hsome] at hsubscript
      cases hsubscript
  have horder := RowOrder.eq_of_parts hlocal.2.1 hlocal'.2.1
    (eq_of_sortKeys hknown.1.1.2.1.1 hclear.1.1.2.1.1 hkeys) hlimits
    (eq_of_part hknown.1.1.2.2 hclear.1.1.2.2 hsame.1)
  have hwindow := eq_of_window hlocal.2.2.1 hlocal'.2.2.1 hknown.1.2 hclear.1.2 hsame.2.1
  have hsubscript := eq_of_part hknown.2 hclear.2 hsame.2.2
  have hoperands : operand = operand' := hknown.1.1.1 operand' hclear.1.1.1 hoperand
  rw [hdistinct, hnulls, horder, hwindow, hsubscript, hoperands]

theorem Accessor.eq_of_outline {accessor other : Option Accessor}
    (hknown : ∀ node ∈ Node.ofAccessor accessor, node.IsKnown)
    (hclear : ∀ node ∈ Node.ofAccessor other, node.IsClear)
    (heq : accessor.toList.map Accessor.outline = other.toList.map Accessor.outline) : accessor = other := by
  refine eq_of_option (fun inner hinner next hnext hsame => ?_) heq
  rw [Option.mem_def] at hinner hnext
  subst hinner hnext
  obtain ⟨hlabel, hposition⟩ := above_inj hsame
  have hpositions : [inner.position] = [next.position] :=
    eq_of_exprs hknown hclear (congrArg (fun outline => [outline]) hposition)
  have hname := eq_of_optional (fun _ _ _ _ => Identifier.raw_inj) hlabel
  cases inner
  cases next
  simp_all

theorem Expr.eq_of_stringAgg {function function' : StringFunction} {distinct distinct' : Bool}
    {operand operand' : Expr} {delimiter delimiter' : Option Constant} {nulls nulls' : Option NullHandling}
    {order order' : Option RowOrder} {window window' : Option Window} {accessor accessor' : Option Accessor}
    (h : (Node.expr (.stringAgg function distinct operand delimiter nulls order window accessor)).IsClear)
    (hother : (Node.expr
      (.stringAgg function' distinct' operand' delimiter' nulls' order' window' accessor')).IsClear)
    (hknown : ∀ node ∈ Node.ofExpr
      (.stringAgg function distinct operand delimiter nulls order window accessor), node.IsKnown)
    (heq : (Expr.stringAgg function distinct operand delimiter nulls order window accessor).outline =
      (Expr.stringAgg function' distinct' operand' delimiter' nulls' order' window' accessor').outline) :
    Expr.stringAgg function distinct operand delimiter nulls order window accessor =
      .stringAgg function' distinct' operand' delimiter' nulls' order' window' accessor' := by
  have hlocal := h.sound.here.1
  have hlocal' := hother.sound.here.1
  have hclear : ∀ node ∈ Node.ofExpr
      (.stringAgg function' distinct' operand' delimiter' nulls' order' window' accessor'), node.IsClear :=
    fun node hnode => hother.child hnode
  simp only [Node.ofExpr, List.forall_mem_append, List.forall_mem_singleton] at hknown hclear
  rw [outline_stringAgg, outline_stringAgg, node.injEq, List.cons.injEq] at heq
  obtain ⟨hlabel, hoperand, hparts⟩ := heq
  obtain ⟨hfunction, hdistinct, hnulls⟩ := eq_of_stringAggLabel hlabel
  have haccessor (accessor : Option Accessor) :
      HaveWords ["Accessor"] (accessor.toList.map Accessor.outline) :=
    haveWords_map fun _ _ => firstWord_mem "Accessor" (by decide) _
  have hrest (window : Option Window) (accessor : Option Accessor) :
      HaveWords ["Analytic", "Accessor"] (windowOutlines window ++ accessor.toList.map Accessor.outline) :=
    (haveWords_window window).append (haccessor accessor)
  have hdelimiter (delimiter : Option Constant) : HaveWords ["Delimiter"]
      (delimiter.map fun text => leaf ("Delimiter " ++ text.text)).toList :=
    haveWords_leaf "Delimiter" (by decide) (by decide) Constant.text delimiter
  obtain ⟨hdelimiters, hparts⟩ := append_inj_of_words (by decide) (hdelimiter delimiter)
    (hdelimiter delimiter') ((haveWords_order order).append (hrest window accessor))
    ((haveWords_order order').append (hrest window' accessor')) hparts
  obtain ⟨horder, hparts⟩ := append_inj_of_words (by decide) (haveWords_order order) (haveWords_order order')
    (hrest window accessor) (hrest window' accessor') hparts
  obtain ⟨hwindow, haccessors⟩ := append_inj_of_words (by decide) (haveWords_window window)
    (haveWords_window window') (haccessor accessor) (haccessor accessor') hparts
  have hdelimiterEq : delimiter = delimiter' :=
    eq_of_leaf (fun text htext next hnext =>
      Constant.eq_of_text (hlocal.2.1 text htext) (hlocal'.2.1 next hnext)) hdelimiters
  have horderEq := eq_of_order hlocal.2.2.1 hlocal'.2.2.1 hknown.1.1.2 hclear.1.1.2 horder
  have hwindowEq := eq_of_window hlocal.2.2.2.1 hlocal'.2.2.2.1 hknown.1.2 hclear.1.2 hwindow
  have haccessorEq := Accessor.eq_of_outline hknown.2 hclear.2 haccessors
  have hoperands : operand = operand' := hknown.1.1.1 operand' hclear.1.1.1 hoperand
  rw [hfunction, hdistinct, hnulls, hdelimiterEq, horderEq, hwindowEq, haccessorEq, hoperands]

end Aggregates

section Expressions

/-- An expression is known from its outline if the nodes inside it are. -/
theorem Expr.isKnown {body : Expr} (h : (Node.expr body).IsClear)
    (hknown : ∀ node ∈ Node.ofExpr body, node.IsKnown) : (Node.expr body).IsKnown := by
  intro other hother heq
  have hlocal := h.sound.here.1
  have hlocal' := hother.sound.here.1
  have hclear : ∀ node ∈ Node.ofExpr other, node.IsClear := fun node hnode => hother.child hnode
  -- Every other kind of expression is ruled out by the word at the start of its label.
  have hkind := Expr.ctorIdx_eq heq
  cases body with
  | constant value =>
    cases other with
    | constant value' => rw [Constant.eq_of_outline hlocal hlocal' heq]
    | _ => cases hkind
  | name path =>
    cases other with
    | name path' =>
      have htext : path.dotted = path'.dotted := by simpa using (node.inj heq).1
      rw [QualifiedName.eq_of_dotted (QualifiedName.isSegment_of_isSound hlocal)
        (QualifiedName.isSegment_of_isSound hlocal') htext]
    | _ => cases hkind
  | star =>
    cases other with
    | star => rfl
    | _ => cases hkind
  | call function distinct args nulls =>
    cases other with
    | call function' distinct' args' nulls' =>
      rw [outline_call, outline_call, node.injEq] at heq
      obtain ⟨hfunction, htail⟩ := eq_of_flagged "Function" (by decide) (by decide)
        (QualifiedName.isSegment_of_isFunction hlocal.1) (QualifiedName.isSegment_of_isFunction hlocal'.1)
        (isFlag_call distinct nulls) (isFlag_call distinct' nulls') heq.1
      obtain ⟨hdistinct, hnulls⟩ := eq_of_callFlags htail
      rw [hfunction, hdistinct, hnulls, eq_of_exprs hknown hclear heq.2]
    | _ => cases hkind
  | array type items =>
    cases other with
    | array type' items' =>
      rw [outline_array, outline_array, node.injEq] at heq
      have htype : type = type' := by
        refine eq_of_optional (fun inner hinner next hnext htext => ?_) heq.1
        exact SqlType.eq_of_text (hlocal.1 inner hinner) (hlocal'.1 next hnext) htext
      rw [htype, eq_of_exprs hknown hclear heq.2]
    | _ => cases hkind
  | arrayQuery query =>
    cases other with
    | arrayQuery query' =>
      have hquery : query = query' := hknown (.query query) (by simp [Node.ofExpr]) query'
        (hclear _ (by simp [Node.ofExpr])) (above_inj heq).2
      rw [hquery]
    | _ => cases hkind
  | arrayAgg distinct operand nulls order window subscript =>
    cases other with
    | arrayAgg => exact Expr.eq_of_arrayAgg h hother hknown heq
    | _ => cases hkind
  | stringAgg function distinct operand delimiter nulls order window accessor =>
    cases other with
    | stringAgg => exact Expr.eq_of_stringAgg h hother hknown heq
    | _ => cases hkind
  | «over» operand window =>
    cases other with
    | «over» operand' window' =>
      simp only [Node.ofExpr, List.forall_mem_cons] at hknown hclear
      have hparts := (node.inj heq).2
      simp only [List.cons.injEq, and_true] at hparts
      have hoperand : operand = operand' := hknown.1 operand' hclear.1 hparts.1
      rw [hoperand, Window.eq_of_outline hlocal.2 hlocal'.2 hknown.2 hclear.2 hparts.2]
    | _ => cases hkind
  | binary op left right =>
    cases other with
    | binary op' left' right' =>
      have hop : op.text = op'.text := by simpa using (node.inj heq).1
      have hoperands : [left, right] = [left', right'] := eq_of_exprs hknown hclear (node.inj heq).2
      cases hoperands
      rw [BinaryOp.text_inj hop]
    | _ => cases hkind
  | unary op operand =>
    cases other with
    | unary op' operand' =>
      have hop : op.text = op'.text := by simpa using (node.inj heq).1
      have hoperands : [operand] = [operand'] := eq_of_exprs hknown hclear (node.inj heq).2
      cases hoperands
      rw [UnaryOp.text_inj hop]
    | _ => cases hkind
  | paren inner =>
    cases other with
    | paren inner' =>
      have hinner : [inner] = [inner'] := eq_of_exprs hknown hclear (node.inj heq).2
      cases hinner
      rfl
    | _ => cases hkind
  | subquery query =>
    cases other with
    | subquery query' =>
      have hquery : query = query' := hknown (.query query) (by simp [Node.ofExpr]) query'
        (hclear _ (by simp [Node.ofExpr])) (above_inj heq).2
      rw [hquery]
    | _ => cases hkind
  | existsQuery query =>
    cases other with
    | existsQuery query' =>
      have hquery : query = query' := hknown (.query query) (by simp [Node.ofExpr]) query'
        (hclear _ (by simp [Node.ofExpr])) (above_inj heq).2
      rw [hquery]
    | _ => cases hkind
  | struct fields items =>
    cases other with
    | struct fields' items' =>
      rw [outline_struct, outline_struct, node.injEq] at heq
      have hsound {fields : List Field} (hfields : fieldsAreSound fields) :
          (SqlType.struct fields).IsSound := by
        rwa [SqlType.IsSound]
      have hfields : fields = fields' := by
        refine eq_of_optional (fun inner hinner next hnext htext => ?_) heq.1
        exact SqlType.struct.inj
          (SqlType.eq_of_text (hsound (hlocal.1 inner hinner)) (hsound (hlocal'.1 next hnext)) htext)
      rw [hfields, eq_of_structItems hknown hclear heq.2]
    | _ => cases hkind
  | cast safe operand type =>
    cases other with
    | cast safe' operand' type' =>
      obtain ⟨hsafe, htype⟩ := SqlType.eq_of_castLabel hlocal.2 hlocal'.2 (node.inj heq).1
      have hoperands : [operand] = [operand'] := eq_of_exprs hknown hclear (node.inj heq).2
      cases hoperands
      rw [hsafe, htype]
    | _ => cases hkind
  | extract part operand zone =>
    cases other with
    | extract part' operand' zone' =>
      simp only [Node.ofExpr, List.forall_mem_append, List.forall_mem_cons] at hknown hclear
      rw [outline_extract, outline_extract, node.injEq, List.cons.injEq, List.cons.injEq] at heq
      obtain ⟨-, hpart, hoperand, hzone⟩ := heq
      have hparts : part = part' := hknown.1.1 part' hclear.1.1 hpart
      have hoperands : operand = operand' := hknown.1.2.1 operand' hclear.1.2.1 hoperand
      rw [hparts, hoperands, eq_of_part hknown.2 hclear.2 hzone]
    | _ => cases hkind
  | case operand branches otherwise =>
    cases other with
    | case operand' branches' otherwise' =>
      simp only [Node.ofExpr, List.forall_mem_append] at hknown hclear
      rw [outline_case, outline_case, node.injEq] at heq
      have hwhen (branches : List Branch) : HaveWords ["When"] (branches.map Branch.outline) :=
        haveWords_map fun _ _ => firstWord_mem "When" (by decide) []
      have helse (otherwise : Option Expr) : HaveWords ["Else"] (part "Else" otherwise) :=
        haveWords_part (by decide) otherwise
      obtain ⟨hoperand, hparts⟩ := append_inj_of_words (by decide) (haveWords_part (by decide) operand)
        (haveWords_part (by decide) operand') ((hwhen branches).append (helse otherwise))
        ((hwhen branches').append (helse otherwise')) heq.2
      obtain ⟨hbranches, hotherwise⟩ := append_inj_of_words (by decide) (hwhen branches) (hwhen branches')
        (helse otherwise) (helse otherwise') hparts
      rw [eq_of_part hknown.1.1 hclear.1.1 hoperand, eq_of_branches hknown.1.2 hclear.1.2 hbranches,
        eq_of_part hknown.2 hclear.2 hotherwise]
    | _ => cases hkind
  | interval count unit =>
    cases other with
    | interval count' unit' =>
      have hunit : unit.raw = unit'.raw := by simpa using (node.inj heq).1
      have hcounts : [count] = [count'] := eq_of_exprs hknown hclear (node.inj heq).2
      cases hcounts
      rw [Identifier.raw_inj hunit]
    | _ => cases hkind
  | member operand negated target =>
    cases other with
    | member operand' negated' target' =>
      simp only [Node.ofExpr, List.forall_mem_cons] at hknown hclear
      obtain ⟨hlabel, hparts⟩ := node.inj heq
      simp only [List.cons.injEq, and_true] at hparts
      have hoperand : operand = operand' := hknown.1 operand' hclear.1 hparts.1
      rw [hoperand, eq_of_flag hlabel, MemberTarget.eq_of_outline hknown.2 hclear.2 hparts.2]
    | _ => cases hkind
  | between operand negated low high =>
    cases other with
    | between operand' negated' low' high' =>
      obtain ⟨hlabel, hparts⟩ := node.inj heq
      have hoperands : [operand, low, high] = [operand', low', high'] := eq_of_exprs hknown hclear hparts
      cases hoperands
      rw [eq_of_flag hlabel]
    | _ => cases hkind
  | isValue operand negated value =>
    cases other with
    | isValue operand' negated' value' =>
      obtain ⟨hlabel, hparts⟩ := node.inj heq
      have hoperands : [operand] = [operand'] := eq_of_exprs hknown hclear hparts
      obtain ⟨hnegated, hvalue⟩ := eq_of_isFlags (flagTail_of_flagged hlabel)
      cases hoperands
      rw [hnegated, hvalue]
    | _ => cases hkind
  | index base kind position =>
    cases other with
    | index base' kind' position' =>
      obtain ⟨hlabel, hparts⟩ := node.inj heq
      have hoperands : [base, position] = [base', position'] := eq_of_exprs hknown hclear hparts
      have hkinds := eq_of_optional (fun _ _ _ _ => IndexKind.text_inj) hlabel
      cases hoperands
      rw [hkinds]
    | _ => cases hkind
  | field base label =>
    cases other with
    | field base' label' =>
      have hname : label.raw = label'.raw := by simpa using (node.inj heq).1
      have hbases : [base] = [base'] := eq_of_exprs hknown hclear (node.inj heq).2
      cases hbases
      rw [Identifier.raw_inj hname]
    | _ => cases hkind

end Expressions

end SqlLayout
