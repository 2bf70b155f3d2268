import SqlLayout.Proofs.Layout.Inline
import SqlLayout.Proofs.Layout.Query

/-!
# What Fits Is Printed Compactly

A compact document leaves nothing open, so it prints one text wherever it stands and whatever the page.
A full document decides in many places, each at the column where it lands; but a block fits only if every
part of it fits where it stands, and then every decision goes the compact way.
-/

namespace SqlLayout

namespace Form

/-- The compact form is plain, and the full form is laid out in the same way wherever that fits. -/
structure PrefersCompact (form : Form) : Prop where
  plain : form.compact.IsPlain
  full_eq : ∀ (page : Page) (col : Nat), (form.compact.layout page col).fits page.width col →
    form.full.layout page col = form.compact.layout page col

variable {form : Form} {forms : List Form}

theorem prefers_plain {doc : Doc} (h : doc.IsPlain) : PrefersCompact ⟨doc, doc⟩ :=
  ⟨h, fun _ _ _ => rfl⟩

theorem prefers_text (content : String) : (text content).PrefersCompact :=
  prefers_plain (.text content)

theorem isPlain_compacts (h : ∀ form ∈ forms, form.PrefersCompact) :
    ∀ doc ∈ forms.map Form.compact, doc.IsPlain :=
  List.forall_mem_map.mpr fun form hmem => (h form hmem).plain

theorem prefers_choose {compact expanded : Doc} (h : compact.IsPlain) :
    (choose compact expanded).PrefersCompact :=
  ⟨h, fun _ _ hfits => if_pos hfits⟩

theorem isPlain_sides {compacts fulls : List Doc}
    (h : List.Forall₂ (fun compact _ => compact.IsPlain) compacts fulls) : (Doc.line compacts).IsPlain := by
  apply Doc.IsPlain.line
  induction h with
  | nil => simp
  | cons hpart _ ih => exact List.forall_mem_cons.mpr ⟨hpart, ih⟩

/-- Parts side by side: a line that fits is made of parts that fit, each where the one before it ends. -/
theorem prefers_sides {compacts fulls : List Doc}
    (h : List.Forall₂ (fun compact full => PrefersCompact ⟨compact, full⟩) compacts fulls) :
    PrefersCompact ⟨.line compacts, .line fulls⟩ := by
  refine ⟨isPlain_sides (h.imp fun _ _ hpart => hpart.plain), fun page col hfits => ?_⟩
  simp only [Doc.layout] at hfits ⊢
  induction h generalizing col with
  | nil => rfl
  | cons hpart _ ih =>
    simp only [Doc.layoutLine] at hfits ⊢
    rw [Block.fits_append, Bool.and_eq_true] at hfits
    rw [hpart.full_eq page col hfits.1, ih _ hfits.2]

theorem PrefersCompact.append (h : form.PrefersCompact) (suffix : String) :
    (form.append suffix).PrefersCompact := by
  refine ⟨h.plain.append (.text suffix), fun page col hfits => ?_⟩
  simp only [Form.append, Doc.layout_append] at hfits ⊢
  rw [Block.fits_append, Bool.and_eq_true] at hfits
  rw [h.full_eq page col hfits.1]

theorem inline_prefers : IsInline PrefersCompact :=
  ⟨prefers_text, prefers_sides, fun h suffix => h.append suffix⟩

section Builders

theorem isPlain_spaced {docs : List Doc} (h : ∀ doc ∈ docs, doc.IsPlain) : (spaced docs).IsPlain :=
  .line (forall_mem_intersperse h (.text " "))

theorem isPlain_commaLine {docs : List Doc} (h : ∀ doc ∈ docs, doc.IsPlain) :
    (commaLine docs).IsPlain :=
  .line (forall_mem_intersperse h (.text ", "))

/-- A plain document after a text. -/
theorem isPlain_headed {doc : Doc} (h : doc.IsPlain) (head : String) :
    (Doc.line [.text head, doc]).IsPlain :=
  .line (by simp [Doc.IsPlain.text, h])

/-- A plain document between two texts. -/
theorem isPlain_between {doc : Doc} (h : doc.IsPlain) (head tail : String) :
    (Doc.line [.text head, doc, .text tail]).IsPlain :=
  .line (by simp [Doc.IsPlain.text, h])

theorem prefers_phrases (h : ∀ form ∈ forms, form.PrefersCompact) : (phrases forms).PrefersCompact :=
  prefers_choose (isPlain_spaced (isPlain_compacts h))

theorem prefers_call (head tail : String) (h : ∀ form ∈ forms, form.PrefersCompact) :
    (call head tail forms).PrefersCompact :=
  prefers_choose (isPlain_between (isPlain_commaLine (isPlain_compacts h)) head tail)

theorem prefers_clause (keyword : String) (h : form.compact.IsPlain) :
    (clause keyword form).PrefersCompact :=
  prefers_choose (isPlain_headed h _)

theorem prefers_listClause (keyword : String) (h : ∀ form ∈ forms, form.PrefersCompact) :
    (listClause keyword forms).PrefersCompact :=
  prefers_clause keyword (isPlain_commaLine (isPlain_compacts h))

theorem prefers_enclosed (head tail : String) (h : form.PrefersCompact) :
    (enclosed head form tail).PrefersCompact :=
  prefers_choose (isPlain_between h.plain head tail)

theorem prefers_aggregate (head : String) (h : ∀ form ∈ forms, form.PrefersCompact) :
    (aggregate head forms).PrefersCompact :=
  prefers_choose (isPlain_between (isPlain_spaced (isPlain_compacts h)) head ")")

end Builders

end Form

open Form

section Parts

variable {form left right : Form} {forms : List Form}

theorem prefers_windowForm (h : ∀ form ∈ forms, form.PrefersCompact) :
    (windowForm forms).PrefersCompact := by
  have hline := isPlain_between (isPlain_spaced (isPlain_compacts h)) "OVER (" ")"
  unfold windowForm
  split
  · exact prefers_plain hline
  · exact prefers_choose hline

theorem prefers_callForm (function : QualifiedName) (distinct : Bool) (nulls : Option NullHandling)
    (h : ∀ form ∈ forms, form.PrefersCompact) :
    (callForm function distinct forms nulls).PrefersCompact := by
  have hfirst := forall_modifyFirst h fun form hform => inline_prefers.distinct distinct hform
  cases nulls with
  | none => exact prefers_call _ _ hfirst
  | some nulls => exact prefers_call _ _ (forall_modifyLast hfirst fun form hform => hform.append _)

theorem prefers_joinForm {condition : Form} (h : left.PrefersCompact) (kind : JoinKind)
    (hright : right.PrefersCompact) (hcondition : condition.PrefersCompact) :
    (joinForm left kind right condition).PrefersCompact := by
  unfold joinForm
  split
  · exact prefers_choose (.line (by simp [Doc.IsPlain.text, h.plain, hright.plain]))
  · exact prefers_choose
      (.line (by simp [Doc.IsPlain.text, h.plain, hright.plain, hcondition.plain]))

/-- A clause with a list, unless the list is empty. -/
theorem prefers_listClauses (keyword : String) (h : ∀ form ∈ forms, form.PrefersCompact) :
    ∀ form ∈ if forms.isEmpty then [] else [Form.listClause keyword forms], form.PrefersCompact := by
  split
  · exact List.forall_mem_nil _
  · exact List.forall_mem_singleton.mpr (prefers_listClause keyword h)

/-- The body of an aggregate and its modifiers. -/
theorem prefers_aggregateForm {orders windows : List Form} (head : String) (h : form.PrefersCompact)
    (nulls : Option NullHandling) (horders : ∀ form ∈ orders, form.PrefersCompact)
    (hwindows : ∀ form ∈ windows, form.PrefersCompact) :
    (Form.aggregate head (form :: (nulls.map fun nulls => Form.text nulls.text).toList
      ++ orders ++ windows)).PrefersCompact := by
  apply prefers_aggregate
  simp only [List.cons_append, List.forall_mem_cons, List.forall_mem_append]
  exact ⟨h, ⟨inline_prefers.texts _ nulls, horders⟩, hwindows⟩

theorem prefers_case {head : Form} {arms : List Form} (h : head.PrefersCompact)
    (harms : ∀ form ∈ arms, form.PrefersCompact) (expanded : Doc) :
    (Form.choose (spaced (head.compact :: arms.map Form.compact ++ [Doc.text "END"]))
      expanded).PrefersCompact := by
  apply prefers_choose
  apply isPlain_spaced
  simp only [List.cons_append, List.forall_mem_cons, List.forall_mem_append]
  exact ⟨h.plain, isPlain_compacts harms, .text "END", List.forall_mem_nil _⟩

end Parts

mutual

theorem Expr.prefersCompact : (e : Expr) → e.form.toForm.PrefersCompact
  | .constant constant => prefers_text constant.text
  | .name name => prefers_text name.dotted
  | .star => prefers_text "*"
  | .call function distinct args nulls => prefers_callForm function distinct nulls (prefers_exprs args)
  | .array (some _) items => prefers_call _ _ (prefers_exprs items)
  | .array none items => prefers_call _ _ (prefers_exprs items)
  | .arrayQuery query => prefers_enclosed _ _ query.prefersCompact
  | .arrayAgg distinct operand nulls order window offset => by
    rw [Expr.form_arrayAgg]
    have hoperand := inline_prefers.distinct distinct operand.prefersCompact
    have hbody := prefers_aggregateForm "ARRAY_AGG(" hoperand
      nulls (prefers_order? order) (prefers_window? window)
    cases offset with
    | none => exact hbody
    | some offset =>
      exact inline_prefers.line (List.forall_mem_cons.mpr
        ⟨hbody, by simp [prefers_text, offset.prefersCompact]⟩)
  | .stringAgg function distinct operand delimiter nulls order window accessor => by
    rw [Expr.form_stringAgg]
    have hoperand := inline_prefers.distinct distinct operand.prefersCompact
    have hbody := prefers_aggregateForm (function.text ++ "(") (inline_prefers.delimited hoperand delimiter)
      nulls (prefers_order? order) (prefers_window? window)
    cases accessor with
    | none => exact hbody
    | some accessor =>
      obtain ⟨name, position⟩ := accessor
      have hposition := inline_prefers.accessorForm position.prefersCompact name
      exact inline_prefers.line (List.forall_mem_cons.mpr ⟨hbody, List.forall_mem_singleton.mpr hposition⟩)
  | .over operand window =>
    prefers_choose (.line (by
      simp [Doc.IsPlain.text, operand.prefersCompact.plain, window.prefersCompact.plain]))
  | .binary _ left right =>
    prefers_choose (.line (by
      simp [Doc.IsPlain.text, left.prefersCompact.plain, right.prefersCompact.plain]))
  | .unary op operand => inline_prefers.keyword _ operand.prefersCompact
  | .paren inner => prefers_enclosed _ _ inner.prefersCompact
  | .subquery query => prefers_enclosed _ _ query.prefersCompact
  | .existsQuery query => prefers_enclosed _ _ query.prefersCompact
  | .struct (some _) items => prefers_call _ _ (prefers_structItems items)
  | .struct none items => prefers_call _ _ (prefers_structItems items)
  | .cast _ operand type =>
    have htyped : (Form.line [operand.form.toForm, .text (" AS " ++ type.text)]).PrefersCompact :=
      inline_prefers.line (by simp [prefers_text, operand.prefersCompact])
    prefers_call _ _ (List.forall_mem_singleton.mpr htyped)
  | .extract part operand none =>
    have hparts : (Form.line [part.form.toForm, .text " FROM ", operand.form.toForm]).PrefersCompact :=
      inline_prefers.line (by simp [prefers_text, part.prefersCompact, operand.prefersCompact])
    prefers_call _ _ (List.forall_mem_singleton.mpr hparts)
  | .extract part operand (some zone) =>
    have hparts : (Form.line [part.form.toForm, .text " FROM ", operand.form.toForm,
        .text " AT TIME ZONE ", zone.form.toForm]).PrefersCompact :=
      inline_prefers.line (by
        simp [prefers_text, part.prefersCompact, operand.prefersCompact, zone.prefersCompact])
    prefers_call _ _ (List.forall_mem_singleton.mpr hparts)
  | .case operand branches otherwise => by
    rw [Expr.form_case]
    have harms := List.forall_mem_append.mpr
      ⟨prefers_branches branches, prefers_exprAfter? "ELSE " otherwise⟩
    refine prefers_case ?_ harms _
    cases operand with
    | none => exact prefers_text "CASE"
    | some operand => exact inline_prefers.keyword "CASE " operand.prefersCompact
  | .interval count unit =>
    inline_prefers.line (by simp [prefers_text, count.prefersCompact])
  | .member operand _ target =>
    inline_prefers.line (by simp [prefers_text, operand.prefersCompact, target.prefersCompact])
  | .between operand _ low high =>
    inline_prefers.line (by
      simp [prefers_text, operand.prefersCompact, low.prefersCompact, high.prefersCompact])
  | .isValue operand _ value =>
    inline_prefers.line (by simp [prefers_text, operand.prefersCompact])
  | .index base kind position =>
    inline_prefers.indexForm base.prefersCompact position.prefersCompact kind
  | .field base name => inline_prefers.line (by simp [prefers_text, base.prefersCompact])

theorem prefers_exprs : (exprs : List Expr) → ∀ form ∈ exprForms exprs, form.PrefersCompact
  | [] => List.forall_mem_nil _
  | e :: exprs => List.forall_mem_cons.mpr ⟨e.prefersCompact, prefers_exprs exprs⟩

theorem prefers_structItems : (items : List StructItem) →
    ∀ form ∈ structItemForms items, form.PrefersCompact
  | [] => List.forall_mem_nil _
  | ⟨expr, aliasName⟩ :: items =>
    List.forall_mem_cons.mpr
      ⟨of_aliased PrefersCompact.append expr.prefersCompact aliasName, prefers_structItems items⟩

theorem MemberTarget.prefersCompact : (target : MemberTarget) → target.form.PrefersCompact
  | .list items => prefers_call _ _ (prefers_exprs items)
  | .query query => prefers_enclosed _ _ query.prefersCompact
  | .unnest array => prefers_call _ _ (List.forall_mem_singleton.mpr array.prefersCompact)

theorem prefers_branches : (branches : List Branch) →
    ∀ form ∈ branchForms branches, form.PrefersCompact
  | [] => List.forall_mem_nil _
  | ⟨condition, result⟩ :: branches =>
    have hbranch : (Form.line [.text "WHEN ", condition.form.toForm, .text " THEN ",
        result.form.toForm]).PrefersCompact :=
      inline_prefers.line (by simp [prefers_text, condition.prefersCompact, result.prefersCompact])
    List.forall_mem_cons.mpr ⟨hbranch, prefers_branches branches⟩

theorem prefers_sortKeys : (keys : List SortKey) → ∀ form ∈ sortKeyForms keys, form.PrefersCompact
  | [] => List.forall_mem_nil _
  | ⟨expr, direction, nulls⟩ :: keys =>
    List.forall_mem_cons.mpr
      ⟨of_sortSuffix PrefersCompact.append expr.prefersCompact direction nulls, prefers_sortKeys keys⟩

/-- A keyword and the expression after it, if there is one. -/
theorem prefers_exprAfter? (head : String) : (o : Option Expr) →
    ∀ form ∈ (o.map fun e => Form.line [.text head, e.form.toForm]).toList, form.PrefersCompact
  | some e => List.forall_mem_singleton.mpr (inline_prefers.keyword head e.prefersCompact)
  | none => List.forall_mem_nil _

/-- A clause with an expression, if there is one. -/
theorem prefers_exprClause? (head : String) : (o : Option Expr) →
    ∀ form ∈ (o.map fun e => Form.clause head e.form.toForm).toList, form.PrefersCompact
  | some e => List.forall_mem_singleton.mpr (prefers_clause head e.prefersCompact.plain)
  | none => List.forall_mem_nil _

theorem prefers_order? : (order : Option RowOrder) →
    ∀ form ∈ (order.map RowOrder.form).toList, form.PrefersCompact
  | some order => List.forall_mem_singleton.mpr order.prefersCompact
  | none => List.forall_mem_nil _

theorem RowOrder.prefersCompact : (order : RowOrder) → order.form.PrefersCompact
  | ⟨keys, limit, offset⟩ => by
    rw [RowOrder.form_mk]
    apply prefers_phrases
    simp only [List.forall_mem_append]
    exact ⟨⟨prefers_listClauses "ORDER BY" (prefers_sortKeys keys), prefers_exprAfter? "LIMIT " limit⟩,
      prefers_exprAfter? "OFFSET " offset⟩

theorem prefers_window? : (window : Option Window) →
    ∀ form ∈ (window.map Window.form).toList, form.PrefersCompact
  | some window => List.forall_mem_singleton.mpr window.prefersCompact
  | none => List.forall_mem_nil _

theorem Window.prefersCompact : (window : Window) → window.form.PrefersCompact
  | ⟨partition, order, frame⟩ => by
    apply prefers_windowForm
    simp only [List.forall_mem_append]
    exact ⟨⟨prefers_listClauses "PARTITION BY" (prefers_exprs partition),
      prefers_listClauses "ORDER BY" (prefers_sortKeys order)⟩, inline_prefers.texts _ frame⟩

theorem Query.prefersCompact : (query : Query) → query.form.PrefersCompact
  | ⟨common, body, order⟩ => by
    rw [Query.form_mk]
    apply prefers_phrases
    simp only [List.forall_mem_append, List.forall_mem_cons]
    exact ⟨prefers_commonTables? common, body.prefersCompact, prefers_order? order⟩

theorem prefers_commonTables? : (common : Option CommonTables) →
    ∀ form ∈ (common.map CommonTables.form).toList, form.PrefersCompact
  | some common => List.forall_mem_singleton.mpr common.prefersCompact
  | none => List.forall_mem_nil _

theorem CommonTables.prefersCompact : (common : CommonTables) → common.form.PrefersCompact
  | ⟨true, tables⟩ => prefers_listClause _ (prefers_commonTableForms tables)
  | ⟨false, tables⟩ => prefers_listClause _ (prefers_commonTableForms tables)

theorem prefers_commonTableForms : (tables : List CommonTable) →
    ∀ form ∈ commonTableForms tables, form.PrefersCompact
  | [] => List.forall_mem_nil _
  | ⟨_, query⟩ :: tables =>
    List.forall_mem_cons.mpr
      ⟨prefers_enclosed _ _ query.prefersCompact, prefers_commonTableForms tables⟩

theorem SetExpr.prefersCompact : (body : SetExpr) → body.form.PrefersCompact
  | .select select => select.prefersCompact
  | .paren query => prefers_enclosed _ _ query.prefersCompact
  | .combine op quantifier left right =>
    prefers_choose (.line (by
      simp [Doc.IsPlain.text, left.prefersCompact.plain, right.prefersCompact.plain]))

theorem Select.prefersCompact : (select : Select) → select.form.PrefersCompact
  | ⟨distinct, shape, items, source, filter, groupBy, having, qualify⟩ => by
    rw [Select.form_mk]
    have hitems := prefers_listClause (selectHead distinct shape) (prefers_selectItems items)
    apply prefers_phrases
    simp only [List.cons_append, List.forall_mem_cons, List.forall_mem_append]
    exact ⟨hitems, ⟨⟨⟨prefers_source? source, prefers_exprClause? "WHERE" filter⟩,
      prefers_listClauses "GROUP BY" (prefers_exprs groupBy)⟩, prefers_exprClause? "HAVING" having⟩,
      prefers_exprClause? "QUALIFY" qualify⟩

theorem prefers_source? : (source : Option TableExpr) →
    ∀ form ∈ (source.map fun source => Form.clause "FROM" source.form).toList, form.PrefersCompact
  | some source => List.forall_mem_singleton.mpr (prefers_clause "FROM" source.prefersCompact.plain)
  | none => List.forall_mem_nil _

theorem prefers_selectItems : (items : List SelectItem) →
    ∀ form ∈ selectItemForms items, form.PrefersCompact
  | [] => List.forall_mem_nil _
  | .wildcard none except replace :: items =>
    List.forall_mem_cons.mpr
      ⟨inline_prefers.wildcard (prefers_text _) except (prefers_replacements replace),
        prefers_selectItems items⟩
  | .wildcard (some _) except replace :: items =>
    List.forall_mem_cons.mpr
      ⟨inline_prefers.wildcard (prefers_text _) except (prefers_replacements replace),
        prefers_selectItems items⟩
  | .expr expr aliasName :: items =>
    List.forall_mem_cons.mpr
      ⟨of_aliased PrefersCompact.append expr.prefersCompact aliasName, prefers_selectItems items⟩

theorem prefers_replacements : (items : List Replacement) →
    ∀ form ∈ replacementForms items, form.PrefersCompact
  | [] => List.forall_mem_nil _
  | ⟨expr, _⟩ :: items =>
    List.forall_mem_cons.mpr ⟨expr.prefersCompact.append _, prefers_replacements items⟩

theorem TableExpr.prefersCompact : (table : TableExpr) → table.form.PrefersCompact
  | .table name aliasName => prefers_text _
  | .subquery query _ => prefers_enclosed _ _ query.prefersCompact
  | .unnest array _ offset => inline_prefers.line (by simp [prefers_text, array.prefersCompact])
  | .join left kind right none =>
    prefers_joinForm left.prefersCompact kind right.prefersCompact (prefers_text "")
  | .join left kind right (some (.condition condition)) =>
    prefers_joinForm left.prefersCompact kind right.prefersCompact
      (inline_prefers.keyword " ON " condition.prefersCompact)
  | .join left kind right (some (.columns columns)) =>
    prefers_joinForm left.prefersCompact kind right.prefersCompact
      (inline_prefers.line (by
        simp [prefers_text, inline_prefers.commaLine (inline_prefers.identifierForms columns)]))

end

section Actions

theorem prefers_options (options : List OptionItem) :
    ∀ form ∈ optionForms options, form.PrefersCompact := by
  unfold optionForms
  split
  · exact List.forall_mem_nil _
  · have hitems : ∀ form ∈ options.map OptionItem.form, form.PrefersCompact :=
      List.forall_mem_map.mpr fun option _ => inline_prefers.keyword _ option.value.prefersCompact
    exact List.forall_mem_singleton.mpr (prefers_call _ _ hitems)

theorem prefers_declarations (declarations : List Declaration) :
    ∀ form ∈ declarationForms declarations, form.PrefersCompact :=
  List.forall_mem_map.mpr fun declaration _ => prefers_text declaration.text

theorem FunctionBody.prefersCompact (body : FunctionBody) :
    ∀ form ∈ body.forms, form.PrefersCompact := by
  cases body with
  | sql body =>
    exact List.forall_mem_singleton.mpr (prefers_clause "AS" body.prefersCompact.plain)
  | «foreign» language code options =>
    exact List.forall_mem_cons.mpr ⟨prefers_text _,
      List.forall_mem_cons.mpr ⟨prefers_text _, prefers_options options⟩⟩

theorem FunctionDef.prefersCompact (function : FunctionDef) : function.form.PrefersCompact := by
  apply prefers_phrases
  simp only [List.cons_append, List.forall_mem_cons, List.forall_mem_append]
  refine ⟨prefers_call _ _ (prefers_declarations function.params), ?_, function.body.prefersCompact⟩
  cases function.returns <;> simp [prefers_text]

theorem TableDef.prefersCompact (table : TableDef) : table.form.PrefersCompact := by
  apply prefers_phrases
  simp only [List.cons_append, List.forall_mem_cons, List.forall_mem_append]
  refine ⟨?_, prefers_options table.options, ?_⟩
  · split
    · exact prefers_text _
    · exact prefers_call _ _ (prefers_declarations table.columns)
  · cases table.query with
    | none => exact List.forall_mem_nil _
    | some query => exact List.forall_mem_singleton.mpr (prefers_clause "AS" query.prefersCompact.plain)

theorem ViewDef.prefersCompact (view : ViewDef) : view.form.PrefersCompact := by
  apply prefers_phrases
  simp only [List.cons_append, List.forall_mem_cons, List.forall_mem_append]
  exact ⟨prefers_text _, prefers_options view.options,
    prefers_clause "AS" view.query.prefersCompact.plain, List.forall_mem_nil _⟩

theorem Insertion.prefersCompact (insertion : Insertion) : insertion.form.PrefersCompact := by
  obtain ⟨table, columns, source⟩ := insertion
  cases source with
  | query body => exact prefers_choose (isPlain_headed body.prefersCompact.plain _)
  | values rows =>
    have hrows : ∀ form ∈ rows.map rowForm, form.PrefersCompact :=
      List.forall_mem_map.mpr fun row _ => prefers_call _ _ (prefers_exprs row)
    exact prefers_choose (isPlain_headed (isPlain_commaLine (isPlain_compacts hrows)) _)

theorem Action.prefersCompact (action : Action) : action.form.PrefersCompact := by
  cases action with
  | query body => exact body.prefersCompact
  | createFunction definition => exact definition.prefersCompact
  | createTable definition => exact definition.prefersCompact
  | createView definition => exact definition.prefersCompact
  | insert insertion => exact insertion.prefersCompact

end Actions

section Scripts

theorem Block.fits_zero_iff {width : Nat} {block : Block} :
    block.fits width 0 ↔ ∀ line ∈ block.lines, line.length ≤ width := by
  simp [Block.fits, Block.lines]

/-- Where the compact form fits on its own lines, the full form is that one. -/
theorem Form.PrefersCompact.layout_eq {form : Form} (h : form.PrefersCompact) (page : Page)
    (hfits : ∀ line ∈ (Block.ofText (form.compact.render Page.unbounded)).lines,
      line.length ≤ page.width) :
    form.full.layout page 0 = form.compact.layout Page.unbounded 0 := by
  have htext := h.plain.layout_eq
  rw [Doc.render, htext, Block.toText_ofText] at hfits
  rw [h.full_eq page 0, htext, htext]
  rw [htext]
  exact Block.fits_zero_iff.mpr hfits

theorem Script.layout_single (style : Style) (statement : Statement) :
    (Script.doc style ⟨[statement], []⟩).layout style.effectivePage 0 =
      Block.stack 0 (statement.comments.map Block.ofText
        ++ [(style.pick statement.action.form).layout style.effectivePage 0]) := by
  have hdoc : Script.doc style ⟨[statement], []⟩ =
      .stack (commentDocs statement.comments ++ [style.pick statement.action.form]) := by
    simp [Script.doc, statementDocs, Statement.docs, commentDocs]
  rw [hdoc, Doc.layout, Doc.layouts_eq_map, List.map_append, commentDocs, List.map_map]
  rfl

theorem Script.render_single_eq (statement : Statement) (page : Page)
    (hfits : ∀ line ∈ (Block.ofText (Script.render { compact := true, page } ⟨[statement], []⟩)).lines,
      line.length ≤ page.width) :
    Script.render { page } ⟨[statement], []⟩ =
      Script.render { compact := true, page } ⟨[statement], []⟩ := by
  simp only [Script.render, Doc.render, Script.layout_single] at hfits ⊢
  rw [Block.lines_ofText_stack_zero (List.append_ne_nil_of_right_ne_nil _ (List.cons_ne_nil _ _))] at hfits
  have hform := statement.action.prefersCompact.layout_eq page fun line hline =>
    hfits line (List.mem_flatMap.mpr ⟨_, List.mem_append_right _ (List.mem_singleton.mpr rfl), hline⟩)
  exact congrArg (fun block => (Block.stack 0 (statement.comments.map Block.ofText ++ [block])).toText)
    hform

/-- What fits is printed compactly: an expression, or a script of one statement without comments after
it, whose compact text has no line beyond the width is printed as that text. -/
theorem render_eq_compact_of_fits (page : Page) :
    (∀ e : Expr,
      (∀ line ∈ (Block.ofText (e.render { compact := true, page })).lines, line.length ≤ page.width) →
        e.render { page } = e.render { compact := true, page }) ∧
    ∀ statement : Statement,
      let script : Script := { statements := [statement], trailingComments := [] }
      (∀ line ∈ (Block.ofText (script.render { compact := true, page })).lines,
        line.length ≤ page.width) →
          script.render { page } = script.render { compact := true, page } :=
  ⟨fun e hfits => congrArg Block.toText (e.prefersCompact.layout_eq page hfits),
    fun statement hfits => Script.render_single_eq statement page hfits⟩

/-- A literal of two lines, the second measured from the first column. -/
theorem render_eq_compact_of_fits_literal :
    let e : Expr := .array none [.star, .constant ⟨.string, "\x27\x27\x27a\nb\x27\x27\x27"⟩]
    let statement : Statement :=
      { comments := ["-- all"],
        action := .query ⟨none, .select ⟨false, none, [.expr e none], none, none, [], none, none⟩, none⟩ }
    let script : Script := { statements := [statement], trailingComments := [] }
    e.render { page := { width := 8 } } = "[*, \x27\x27\x27a\nb\x27\x27\x27]" ∧
      script.render { page := { width := 15 } } = "-- all\nSELECT [*, \x27\x27\x27a\nb\x27\x27\x27]" := by
  intro e statement script
  constructor
  · have hfits := (render_eq_compact_of_fits { width := 8 }).1 e (by decide)
    rw [hfits]
    decide
  · have hfits := (render_eq_compact_of_fits { width := 15 }).2 statement (by decide)
    exact hfits.trans (by decide)

end Scripts

end SqlLayout
