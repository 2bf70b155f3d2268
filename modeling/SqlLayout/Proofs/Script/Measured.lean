import SqlLayout.Proofs.Layout.Legible
import SqlLayout.Proofs.Layout.Measured
import SqlLayout.Proofs.Sound.Statement

/-!
# Documents of Sound Trees Can Be Measured

Every document of a sound tree can be measured. What a tree asks for is that lists which are printed below a
keyword have an item, and that no token is empty: then nothing that is indented is empty.
-/

namespace SqlLayout

open Token Spelling Form

variable {page : Page}

/-- What prints a phrase is not empty, for a phrase starts with a token. -/
theorem Form.IsMeasured.inked {form : Form} {spelling : Spelling} (h : form.IsMeasured page)
    (hprints : form.Prints spelling) (hphrase : spelling.IsPhrase) : form.IsInked page := by
  refine ⟨h, fun hempty => ?_⟩
  have hexpands : Expands spelling [] := (hprints.full page).2 "" hempty
  obtain ⟨glyph, hhead⟩ := hphrase.head
  obtain ⟨c, cs, htext, -⟩ :=
    Glyph.exists_cons_of_isGenuine (hphrase.legible.genuine glyph (List.mem_of_mem_head? hhead))
  obtain ⟨rest, rfl⟩ := List.head?_eq_some_iff.mp hhead
  generalize hcs : ([] : List Char) = ds at hexpands
  cases hexpands with
  | glyph _ hrest => simp [htext] at hcs

theorem inked_of_prints {forms : List Form} {spellings : List Spelling}
    (h : ∀ form ∈ forms, form.IsMeasured page) (hprints : List.Forall₂ Form.Prints forms spellings)
    (hphrases : ∀ spelling ∈ spellings, spelling.IsPhrase) : ∀ form ∈ forms, form.IsInked page := by
  induction hprints with
  | nil => exact List.forall_mem_nil _
  | cons hform _ ih =>
    obtain ⟨hmeasured, hrest⟩ := List.forall_mem_cons.mp h
    obtain ⟨hphrase, hothers⟩ := List.forall_mem_cons.mp hphrases
    exact List.forall_mem_cons.mpr ⟨hmeasured.inked hform hphrase, ih hrest hothers⟩

section Nodes

/-- An expression that can be measured, and the operands that it brings into a chain. -/
structure Expr.IsMeasured (page : Page) (e : Expr) : Prop where
  form : e.form.toForm.IsInked page
  operands : ∀ op, ∃ first rest, e.form.operands op = first :: rest ∧
    ∀ doc ∈ first :: rest, doc.IsMeasured page

/-- The forms of a node can be measured, and those that are indented somewhere are not empty. -/
def Node.IsMeasured (page : Page) : Node → Prop
  | script body => ∀ style : Style, (body.doc style).IsMeasured page
  | statement body => body.action.form.IsMeasured page
  | function definition => definition.form.IsMeasured page
  | query body => body.form.IsInked page
  | commonTable table => ∀ form ∈ commonTableForms [table], form.IsInked page
  | setExpr body => body.form.IsMeasured page
  | select body => body.form.IsMeasured page
  | selectItem item => ∀ form ∈ selectItemForms [item], form.IsInked page
  | tableExpr table => table.form.IsInked page
  | expr body => body.IsMeasured page

end Nodes

section Lists

theorem inked_exprs {items : List Expr} (h : ∀ child ∈ Node.exprs items, child.IsMeasured page) :
    ∀ form ∈ exprForms items, form.IsInked page := by
  induction items with
  | nil => exact List.forall_mem_nil _
  | cons item items ih =>
    have hitem : item.IsMeasured page := h (.expr item) List.mem_cons_self
    exact List.forall_mem_cons.mpr
      ⟨hitem.form, ih fun child hchild => h child (List.mem_cons_of_mem _ hchild)⟩

theorem measured_exprs {items : List Expr} (h : ∀ child ∈ Node.exprs items, child.IsMeasured page) :
    ∀ form ∈ exprForms items, form.IsMeasured page :=
  fun form hmem => (inked_exprs h form hmem).toIsMeasured

theorem inked_sortKeys {keys : List SortKey} (h : ∀ child ∈ Node.sortKeys keys, child.IsMeasured page) :
    ∀ form ∈ sortKeyForms keys, form.IsInked page := by
  induction keys with
  | nil => exact List.forall_mem_nil _
  | cons key keys ih =>
    obtain ⟨e, direction, nulls⟩ := key
    have hexpr : e.IsMeasured page := h (.expr e) List.mem_cons_self
    exact List.forall_mem_cons.mpr ⟨of_sortSuffix IsInked.append hexpr.form direction nulls,
      ih fun child hchild => h child (List.mem_cons_of_mem _ hchild)⟩

theorem measured_structItems {items : List StructItem}
    (h : ∀ child ∈ Node.structItems items, child.IsMeasured page) :
    ∀ form ∈ structItemForms items, form.IsMeasured page := by
  induction items with
  | nil => exact List.forall_mem_nil _
  | cons item items ih =>
    obtain ⟨e, aliasName⟩ := item
    have hexpr : e.IsMeasured page := h (.expr e) List.mem_cons_self
    exact List.forall_mem_cons.mpr ⟨of_aliased IsMeasured.append hexpr.form.toIsMeasured aliasName,
      ih fun child hchild => h child (List.mem_cons_of_mem _ hchild)⟩

theorem measured_replacements {items : List Replacement}
    (h : ∀ child ∈ Node.replacements items, child.IsMeasured page) :
    ∀ form ∈ replacementForms items, form.IsMeasured page := by
  induction items with
  | nil => exact List.forall_mem_nil _
  | cons item items ih =>
    obtain ⟨e, aliasName⟩ := item
    have hexpr : e.IsMeasured page := h (.expr e) List.mem_cons_self
    exact List.forall_mem_cons.mpr ⟨hexpr.form.toIsMeasured.append _,
      ih fun child hchild => h child (List.mem_cons_of_mem _ hchild)⟩

theorem inked_branches {branches : List Branch}
    (h : ∀ child ∈ Node.ofBranches branches, child.IsMeasured page) :
    ∀ form ∈ branchForms branches, form.IsInked page := by
  induction branches with
  | nil => exact List.forall_mem_nil _
  | cons branch branches ih =>
    obtain ⟨condition, result⟩ := branch
    simp only [Node.ofBranches, List.flatMap_cons, List.mem_append] at h
    have hcondition : condition.IsMeasured page := h (.expr condition) (.inl (by simp))
    have hresult : result.IsMeasured page := h (.expr result) (.inl (by simp))
    have hline : (Form.line [.text "WHEN ", condition.form.toForm, .text " THEN ",
        result.form.toForm]).IsMeasured page :=
      inline_measured.line (by simp [measured_text, hcondition.form.toIsMeasured, hresult.form.toIsMeasured])
    exact List.forall_mem_cons.mpr ⟨⟨hline, Doc.inked_headed (by decide) _⟩,
      ih fun child hchild => h child (.inr hchild)⟩

/-- A keyword and the expression after it, if there is one. -/
theorem measured_exprAfter? (head : String) {o : Option Expr}
    (h : ∀ child ∈ Node.exprs o.toList, child.IsMeasured page) :
    ∀ form ∈ (o.map fun e => Form.line [.text head, e.form.toForm]).toList, form.IsMeasured page := by
  cases o with
  | none => exact List.forall_mem_nil _
  | some e =>
    have hexpr : e.IsMeasured page := h (.expr e) List.mem_cons_self
    exact List.forall_mem_singleton.mpr (inline_measured.keyword head hexpr.form.toIsMeasured)

/-- A clause with an expression, if there is one. -/
theorem measured_exprClause? (head : String) {o : Option Expr}
    (h : ∀ child ∈ Node.exprs o.toList, child.IsMeasured page) :
    ∀ form ∈ (o.map fun e => Form.clause head e.form.toForm).toList, form.IsMeasured page := by
  cases o with
  | none => exact List.forall_mem_nil _
  | some e =>
    have hexpr : e.IsMeasured page := h (.expr e) List.mem_cons_self
    exact List.forall_mem_singleton.mpr (inked_clause head hexpr.form).toIsMeasured

/-- Clauses with a list, of which nothing has to be indented. -/
theorem measured_listClauses (keyword : String) {forms : List Form}
    (h : ∀ form ∈ forms, form.IsInked page) :
    ∀ form ∈ if forms.isEmpty then [] else [Form.listClause keyword forms], form.IsMeasured page :=
  fun form hmem => (inked_listClauses keyword h form hmem).toIsMeasured

theorem RowOrder.isMeasured {order : RowOrder}
    (h : ∀ child ∈ Node.ofRowOrder (some order), child.IsMeasured page) : order.form.IsMeasured page := by
  obtain ⟨keys, limit, offset⟩ := order
  simp only [Node.ofRowOrder, List.mem_append] at h
  have hkeys := inked_sortKeys fun child hchild => h child (.inl (.inl hchild))
  have hlimit := measured_exprAfter? "LIMIT " fun child hchild => h child (.inl (.inr hchild))
  have hoffset := measured_exprAfter? "OFFSET " fun child hchild => h child (.inr hchild)
  rw [RowOrder.form_mk]
  apply measured_phrases
  simp only [List.forall_mem_append]
  exact ⟨⟨measured_listClauses "ORDER BY" hkeys, hlimit⟩, hoffset⟩

theorem measured_order? {order : Option RowOrder}
    (h : ∀ child ∈ Node.ofRowOrder order, child.IsMeasured page) :
    ∀ form ∈ (order.map RowOrder.form).toList, form.IsMeasured page := by
  cases order with
  | none => exact List.forall_mem_nil _
  | some order => exact List.forall_mem_singleton.mpr (RowOrder.isMeasured h)

theorem Window.isMeasured {window : Window} (hsound : window.IsSound)
    (h : ∀ child ∈ Node.ofWindow (some window), child.IsMeasured page) : window.form.IsMeasured page := by
  obtain ⟨partition, order, frame⟩ := window
  simp only [Node.ofWindow, List.mem_append] at h
  have hpartition := inked_exprs fun child hchild => h child (.inl hchild)
  have horder := inked_sortKeys fun child hchild => h child (.inr hchild)
  apply measured_windowForm
  simp only [List.forall_mem_append]
  refine ⟨⟨inked_listClauses "PARTITION BY" hpartition, inked_listClauses "ORDER BY" horder⟩, ?_⟩
  cases frame with
  | none => exact List.forall_mem_nil _
  | some frame =>
    have hframe : (Form.text frame.text).IsInked page :=
      (measured_text frame.text).inked (prints_text frame.toList_text)
        (Frame.isPhrase (hsound.frame frame rfl))
    exact List.forall_mem_singleton.mpr hframe

theorem measured_window? {window : Option Window} (hsound : ∀ inner ∈ window, inner.IsSound)
    (h : ∀ child ∈ Node.ofWindow window, child.IsMeasured page) :
    ∀ form ∈ (window.map Window.form).toList, form.IsMeasured page := by
  cases window with
  | none => exact List.forall_mem_nil _
  | some window => exact List.forall_mem_singleton.mpr (Window.isMeasured (hsound window rfl) h)

end Lists

section Expressions

theorem measured_arrayAgg {distinct : Bool} {operand : Expr} {nulls : Option NullHandling}
    {order : Option RowOrder} {window : Option Window} {offset : Option Expr}
    (hwindow : ∀ inner ∈ window, inner.IsSound)
    (h : ∀ child ∈ Node.ofExpr (.arrayAgg distinct operand nulls order window offset),
      child.IsMeasured page) :
    (Expr.arrayAgg distinct operand nulls order window offset).form.toForm.IsMeasured page := by
  simp only [Node.ofExpr, List.mem_append, List.mem_singleton] at h
  have hoperand : operand.IsMeasured page := h (.expr operand) (.inl (.inl (.inl rfl)))
  have horders := measured_order? fun child hchild => h child (.inl (.inl (.inr hchild)))
  have hwindows := measured_window? hwindow fun child hchild => h child (.inl (.inr hchild))
  have hbody := measured_aggregateForm "ARRAY_AGG(" (inked_distinct distinct hoperand.form) nulls
    horders hwindows
  rw [Expr.form_arrayAgg]
  cases offset with
  | none => exact hbody
  | some offset =>
    have hoffset : offset.IsMeasured page := h (.expr offset) (.inr List.mem_cons_self)
    exact inline_measured.line (List.forall_mem_cons.mpr
      ⟨hbody, by simp [measured_text, hoffset.form.toIsMeasured]⟩)

theorem measured_stringAgg {function : StringFunction} {distinct : Bool} {operand : Expr}
    {delimiter : Option Constant} {nulls : Option NullHandling} {order : Option RowOrder}
    {window : Option Window} {accessor : Option Accessor} (hwindow : ∀ inner ∈ window, inner.IsSound)
    (h : ∀ child ∈ Node.ofExpr
      (.stringAgg function distinct operand delimiter nulls order window accessor),
      child.IsMeasured page) :
    (Expr.stringAgg function distinct operand delimiter nulls order window
      accessor).form.toForm.IsMeasured page := by
  simp only [Node.ofExpr, List.mem_append, List.mem_singleton] at h
  have hoperand : operand.IsMeasured page := h (.expr operand) (.inl (.inl (.inl rfl)))
  have horders := measured_order? fun child hchild => h child (.inl (.inl (.inr hchild)))
  have hwindows := measured_window? hwindow fun child hchild => h child (.inl (.inr hchild))
  have hfirst := inked_delimited (inked_distinct distinct hoperand.form) delimiter
  have hbody := measured_aggregateForm (function.text ++ "(") hfirst nulls horders hwindows
  rw [Expr.form_stringAgg]
  cases accessor with
  | none => exact hbody
  | some accessor =>
    obtain ⟨name, position⟩ := accessor
    have hposition : position.IsMeasured page := h (.expr position) (.inr List.mem_cons_self)
    have haccessor := inline_measured.accessorForm hposition.form.toIsMeasured name
    exact inline_measured.line (List.forall_mem_cons.mpr ⟨hbody, List.forall_mem_singleton.mpr haccessor⟩)

theorem measured_extract {part operand : Expr} {zone : Option Expr}
    (h : ∀ child ∈ Node.ofExpr (.extract part operand zone), child.IsMeasured page) :
    (Expr.extract part operand zone).form.toForm.IsMeasured page := by
  simp only [Node.ofExpr, List.mem_append] at h
  have hpart : part.IsMeasured page := h (.expr part) (.inl (by simp))
  have hoperand : operand.IsMeasured page := h (.expr operand) (.inl (by simp))
  cases zone with
  | none =>
    have hparts : (Form.line [part.form.toForm, .text " FROM ", operand.form.toForm]).IsMeasured page :=
      inline_measured.line (by simp [measured_text, hpart.form.toIsMeasured, hoperand.form.toIsMeasured])
    exact measured_call _ _ (List.forall_mem_singleton.mpr hparts)
  | some zone =>
    have hzone : zone.IsMeasured page := h (.expr zone) (.inr List.mem_cons_self)
    have hparts : (Form.line [part.form.toForm, .text " FROM ", operand.form.toForm,
        .text " AT TIME ZONE ", zone.form.toForm]).IsMeasured page :=
      inline_measured.line (by
        simp [measured_text, hpart.form.toIsMeasured, hoperand.form.toIsMeasured, hzone.form.toIsMeasured])
    exact measured_call _ _ (List.forall_mem_singleton.mpr hparts)

theorem measured_caseForm {operand : Option Expr} {branches : List Branch} {otherwise : Option Expr}
    (hne : branches ≠ [])
    (h : ∀ child ∈ Node.ofExpr (.case operand branches otherwise), child.IsMeasured page) :
    (Expr.case operand branches otherwise).form.toForm.IsMeasured page := by
  simp only [Node.ofExpr, List.mem_append] at h
  have hbranches := inked_branches fun child hchild => h child (.inl (.inr hchild))
  have hotherwise := measured_exprAfter? "ELSE " fun child hchild => h child (.inr hchild)
  obtain ⟨⟨condition, result⟩, branches, rfl⟩ := List.exists_cons_of_ne_nil hne
  obtain ⟨hfirst, hrest⟩ := List.forall_mem_cons.mp hbranches
  rw [Expr.form_case]
  refine measured_case ?_ hfirst (List.forall_mem_append.mpr
    ⟨fun form hmem => (hrest form hmem).toIsMeasured, hotherwise⟩)
  cases operand with
  | none => exact measured_text "CASE"
  | some operand =>
    have hoperand : operand.IsMeasured page := h (.expr operand) (.inl (.inl List.mem_cons_self))
    exact inline_measured.keyword "CASE " hoperand.form.toIsMeasured

theorem MemberTarget.isMeasured {target : MemberTarget}
    (h : ∀ child ∈ Node.ofMemberTarget target, child.IsMeasured page) : target.form.IsMeasured page := by
  cases target with
  | list items => exact measured_call _ _ (measured_exprs h)
  | query query =>
    have hquery : query.form.IsInked page := h (.query query) List.mem_cons_self
    exact measured_enclosed _ _ hquery
  | unnest array =>
    have harray : array.IsMeasured page := h (.expr array) List.mem_cons_self
    exact measured_call _ _ (List.forall_mem_singleton.mpr harray.form.toIsMeasured)

theorem measured_over {operand : Expr} {window : Window} (hsound : window.IsSound)
    (hoperand : operand.IsMeasured page)
    (h : ∀ child ∈ Node.ofWindow (some window), child.IsMeasured page) :
    (Expr.over operand window).form.toForm.IsMeasured page := by
  have hwindow := Window.isMeasured hsound h
  exact measured_chooseStack
    (.line (by simp [Doc.IsPlain.text, hoperand.form.plain, hwindow.plain]))
    (by simp [hoperand.form.full, hwindow.full])

/-- A chain of two operands or more, each but the first after its operator. -/
theorem measured_binary {left right : Expr} (op : BinaryOp) (hleft : left.IsMeasured page)
    (hright : right.IsMeasured page) : (Expr.binary op left right).form.toForm.IsMeasured page := by
  obtain ⟨first, rest, hoperands, hdocs⟩ := hleft.operands op
  obtain ⟨hfirst, hrest⟩ := List.forall_mem_cons.mp hdocs
  obtain ⟨second, others, hsecond⟩ : ∃ second others, rest ++ [right.form.full] = second :: others :=
    List.exists_cons_of_ne_nil (by simp)
  have hothers : ∀ doc ∈ second :: others, doc.IsMeasured page :=
    hsecond ▸ List.forall_mem_append.mpr ⟨hrest, List.forall_mem_singleton.mpr hright.form.full⟩
  have hlines : ∀ doc ∈ (second :: others).map fun doc => Doc.line [.text (op.text ++ " "), doc],
      doc.IsMeasured page :=
    List.forall_mem_map.mpr fun doc hmem => .line (by simp [Doc.IsMeasured.text, hothers doc hmem])
  change (Form.choose _ (ExprForm.chainDoc op (left.form.operands op ++ [right.form.full]))).IsMeasured page
  rw [hoperands, List.cons_append, hsecond, ExprForm.chainDoc]
  exact measured_chooseStack
    (.line (by simp [Doc.IsPlain.text, hleft.form.plain, hright.form.plain]))
    (List.forall_mem_cons.mpr ⟨hfirst, hlines⟩)

/-- Only a chain brings more into a chain than itself. -/
theorem Expr.isMeasured_of_chain {e : Expr} (h : e.form.toForm.IsInked page)
    (hchain : e.form.chain = none) : e.IsMeasured page := by
  refine ⟨h, fun op => ⟨e.form.full, [], ?_, List.forall_mem_singleton.mpr h.full⟩⟩
  rw [ExprForm.operands, hchain]

theorem Expr.isMeasured_binary {left right : Expr} {op : BinaryOp}
    (h : (Expr.binary op left right).form.toForm.IsInked page) (hleft : left.IsMeasured page)
    (hright : right.IsMeasured page) : (Expr.binary op left right).IsMeasured page := by
  refine ⟨h, fun other => ?_⟩
  obtain ⟨first, rest, hoperands, hdocs⟩ := hleft.operands op
  by_cases hop : op = other
  · refine ⟨first, rest ++ [right.form.full], ?_, List.forall_mem_append.mpr
      ⟨hdocs, List.forall_mem_singleton.mpr hright.form.full⟩⟩
    change (if op = other then left.form.operands op ++ [right.form.full] else _) = _
    rw [if_pos hop, hoperands]
    rfl
  · refine ⟨(Expr.binary op left right).form.full, [], if_neg hop, List.forall_mem_singleton.mpr h.full⟩

/-- The form of an expression can be measured if what is inside it can. -/
theorem Expr.measured_form {e : Expr} (hlocal : e.IsLocallySound)
    (h : ∀ child ∈ Node.ofExpr e, child.IsMeasured page) : e.form.toForm.IsMeasured page := by
  cases e with
  | constant constant => exact measured_text constant.text
  | name name => exact measured_text name.dotted
  | star => exact measured_text "*"
  | call function distinct args nulls => exact measured_callForm function distinct nulls (measured_exprs h)
  | array type items => cases type <;> exact measured_call _ _ (measured_exprs h)
  | arrayQuery query | subquery query | existsQuery query =>
    have hquery : query.form.IsInked page := h (.query query) List.mem_cons_self
    exact measured_enclosed _ _ hquery
  | arrayAgg distinct operand nulls order window offset => exact measured_arrayAgg hlocal.2.2.1 h
  | stringAgg function distinct operand delimiter nulls order window accessor =>
    exact measured_stringAgg hlocal.2.2.2.1 h
  | «over» operand window =>
    have hoperand : operand.IsMeasured page := h (.expr operand) List.mem_cons_self
    exact measured_over hlocal.2 hoperand fun child hchild => h child (List.mem_cons_of_mem _ hchild)
  | binary op left right =>
    have hleft : left.IsMeasured page := h (.expr left) (by simp [Node.ofExpr])
    have hright : right.IsMeasured page := h (.expr right) (by simp [Node.ofExpr])
    exact measured_binary op hleft hright
  | unary op operand =>
    have hoperand : operand.IsMeasured page := h (.expr operand) List.mem_cons_self
    exact inline_measured.keyword _ hoperand.form.toIsMeasured
  | paren inner =>
    have hinner : inner.IsMeasured page := h (.expr inner) List.mem_cons_self
    exact measured_enclosed _ _ hinner.form
  | struct fields items => cases fields <;> exact measured_call _ _ (measured_structItems h)
  | cast safe operand type =>
    have hoperand : operand.IsMeasured page := h (.expr operand) List.mem_cons_self
    have htyped : (Form.line [operand.form.toForm, .text (" AS " ++ type.text)]).IsMeasured page :=
      inline_measured.line (by simp [measured_text, hoperand.form.toIsMeasured])
    exact measured_call _ _ (List.forall_mem_singleton.mpr htyped)
  | extract part operand zone => exact measured_extract h
  | case operand branches otherwise => exact measured_caseForm hlocal.2.1 h
  | interval count unit =>
    have hcount : count.IsMeasured page := h (.expr count) List.mem_cons_self
    exact inline_measured.line (by simp [measured_text, hcount.form.toIsMeasured])
  | member operand negated target =>
    have hoperand : operand.IsMeasured page := h (.expr operand) List.mem_cons_self
    have htarget := MemberTarget.isMeasured fun child hchild => h child (List.mem_cons_of_mem _ hchild)
    exact inline_measured.line (by simp [measured_text, hoperand.form.toIsMeasured, htarget])
  | between operand negated low high =>
    have hoperand : operand.IsMeasured page := h (.expr operand) (by simp [Node.ofExpr])
    have hlow : low.IsMeasured page := h (.expr low) (by simp [Node.ofExpr])
    have hhigh : high.IsMeasured page := h (.expr high) (by simp [Node.ofExpr])
    exact inline_measured.line (by
      simp [measured_text, hoperand.form.toIsMeasured, hlow.form.toIsMeasured, hhigh.form.toIsMeasured])
  | isValue operand negated value =>
    have hoperand : operand.IsMeasured page := h (.expr operand) List.mem_cons_self
    exact inline_measured.line (by simp [measured_text, hoperand.form.toIsMeasured])
  | index base kind position =>
    have hbase : base.IsMeasured page := h (.expr base) (by simp [Node.ofExpr])
    have hposition : position.IsMeasured page := h (.expr position) (by simp [Node.ofExpr])
    exact inline_measured.indexForm hbase.form.toIsMeasured hposition.form.toIsMeasured kind
  | field base name =>
    have hbase : base.IsMeasured page := h (.expr base) List.mem_cons_self
    exact inline_measured.line (by simp [measured_text, hbase.form.toIsMeasured])

theorem Expr.isMeasured {e : Expr} (hlocal : e.IsLocallySound) (hphrase : e.spelling.IsPhrase)
    (h : ∀ child ∈ Node.ofExpr e, child.IsMeasured page) : e.IsMeasured page := by
  have hform := (Expr.measured_form hlocal h).inked e.prints.toForm hphrase
  cases e with
  | binary op left right =>
    have hleft : left.IsMeasured page := h (.expr left) (by simp [Node.ofExpr])
    have hright : right.IsMeasured page := h (.expr right) (by simp [Node.ofExpr])
    exact Expr.isMeasured_binary hform hleft hright
  | arrayAgg distinct operand nulls order window offset =>
    exact Expr.isMeasured_of_chain hform (by rw [Expr.form_arrayAgg])
  | stringAgg function distinct operand delimiter nulls order window accessor =>
    exact Expr.isMeasured_of_chain hform (by rw [Expr.form_stringAgg])
  | array type items => cases type <;> exact Expr.isMeasured_of_chain hform rfl
  | case operand branches otherwise => exact Expr.isMeasured_of_chain hform (by rw [Expr.form_case])
  | struct fields items => cases fields <;> exact Expr.isMeasured_of_chain hform rfl
  | extract part operand zone => cases zone <;> exact Expr.isMeasured_of_chain hform rfl
  | _ => exact Expr.isMeasured_of_chain hform rfl

end Expressions

section Queries

theorem commonTableForms_cons (table : CommonTable) (tables : List CommonTable) :
    commonTableForms (table :: tables) = commonTableForms [table] ++ commonTableForms tables := by
  cases table
  rfl

theorem inked_commonTables {tables : List CommonTable}
    (h : ∀ child ∈ tables.map Node.commonTable, child.IsMeasured page) :
    ∀ form ∈ commonTableForms tables, form.IsInked page := by
  induction tables with
  | nil => exact List.forall_mem_nil _
  | cons table tables ih =>
    have hfirst : ∀ form ∈ commonTableForms [table], form.IsInked page :=
      h (.commonTable table) List.mem_cons_self
    rw [commonTableForms_cons, List.forall_mem_append]
    exact ⟨hfirst, ih fun child hchild => h child (List.mem_cons_of_mem _ hchild)⟩

theorem inked_commonTable {table : CommonTable} (h : table.query.form.IsInked page) :
    ∀ form ∈ commonTableForms [table], form.IsInked page := by
  obtain ⟨name, query⟩ := table
  exact List.forall_mem_singleton.mpr (inked_enclosed (by simp) ")" h)

theorem measured_commonTables? {common : Option CommonTables} (hne : ∀ inner ∈ common, inner.tables ≠ [])
    (h : ∀ child ∈ Node.ofCommonTables common, child.IsMeasured page) :
    ∀ form ∈ (common.map CommonTables.form).toList, form.IsMeasured page := by
  rcases common with _ | ⟨isRecursive, tables⟩
  · exact List.forall_mem_nil _
  · have hforms : commonTableForms tables ≠ [] := by
      obtain ⟨⟨name, query⟩, tables, rfl⟩ := List.exists_cons_of_ne_nil (hne _ rfl)
      simp [commonTableForms]
    have hclause (keyword : String) := inked_listClause keyword hforms (inked_commonTables h)
    cases isRecursive <;> exact List.forall_mem_singleton.mpr (hclause _).toIsMeasured

theorem Query.measured_form {query : Query} (hlocal : query.IsLocallySound)
    (h : ∀ child ∈ (Node.query query).children, child.IsMeasured page) : query.form.IsMeasured page := by
  obtain ⟨common, body, order⟩ := query
  simp only [Node.children, List.mem_append, List.mem_singleton] at h
  have hcommon := measured_commonTables? hlocal.1 fun child hchild => h child (.inl (.inl hchild))
  have hbody : body.form.IsMeasured page := h (.setExpr body) (.inl (.inr rfl))
  have horder := measured_order? fun child hchild => h child (.inr hchild)
  rw [Query.form_mk]
  exact measured_phrases (List.forall_mem_append.mpr ⟨hcommon, List.forall_mem_cons.mpr ⟨hbody, horder⟩⟩)

theorem SetExpr.isMeasured {body : SetExpr} (h : ∀ child ∈ Node.ofSetExpr body, child.IsMeasured page) :
    body.form.IsMeasured page := by
  cases body with
  | select select => exact h (.select select) List.mem_cons_self
  | paren query =>
    have hquery : query.form.IsInked page := h (.query query) List.mem_cons_self
    exact measured_enclosed _ _ hquery
  | combine op quantifier left right =>
    have hleft : left.form.IsMeasured page := h (.setExpr left) (by simp [Node.ofSetExpr])
    have hright : right.form.IsMeasured page := h (.setExpr right) (by simp [Node.ofSetExpr])
    exact measured_chooseStack (.line (by simp [Doc.IsPlain.text, hleft.plain, hright.plain]))
      (by simp [Doc.IsMeasured.text, hleft.full, hright.full])

theorem selectItemForms_cons (item : SelectItem) (items : List SelectItem) :
    selectItemForms (item :: items) = selectItemForms [item] ++ selectItemForms items := by
  rcases item with ⟨_ | _, _, _⟩ | _ <;> rfl

theorem inked_selectItems {items : List SelectItem}
    (h : ∀ child ∈ items.map Node.selectItem, child.IsMeasured page) :
    ∀ form ∈ selectItemForms items, form.IsInked page := by
  induction items with
  | nil => exact List.forall_mem_nil _
  | cons item items ih =>
    have hfirst : ∀ form ∈ selectItemForms [item], form.IsInked page :=
      h (.selectItem item) List.mem_cons_self
    rw [selectItemForms_cons, List.forall_mem_append]
    exact ⟨hfirst, ih fun child hchild => h child (List.mem_cons_of_mem _ hchild)⟩

theorem measured_selectItem {item : SelectItem}
    (h : ∀ child ∈ Node.ofSelectItem item, child.IsMeasured page) :
    ∀ form ∈ selectItemForms [item], form.IsMeasured page := by
  cases item with
  | wildcard qualifier except replace =>
    have hline {star : Form} (hstar : star.IsMeasured page) :=
      inline_measured.wildcard hstar except (measured_replacements h)
    cases qualifier <;> exact List.forall_mem_singleton.mpr (hline (measured_text _))
  | expr e aliasName =>
    have hexpr : e.IsMeasured page := h (.expr e) List.mem_cons_self
    exact List.forall_mem_singleton.mpr (of_aliased IsMeasured.append hexpr.form.toIsMeasured aliasName)

theorem Select.isMeasured {select : Select} (hne : select.items ≠ [])
    (h : ∀ child ∈ Node.ofSelect select, child.IsMeasured page) : select.form.IsMeasured page := by
  obtain ⟨distinct, shape, items, source, filter, groupBy, having, qualify⟩ := select
  simp only [Node.ofSelect, List.mem_append] at h
  have hitems := inked_selectItems fun child hchild => h child (.inl (.inl (.inl (.inl (.inl hchild)))))
  have hforms : selectItemForms items ≠ [] := by
    obtain ⟨item, items, rfl⟩ := List.exists_cons_of_ne_nil hne
    rcases item with ⟨_ | _, _, _⟩ | _ <;> simp [selectItemForms]
  have hselect := inked_listClause (selectHead distinct shape) hforms hitems
  have hsource : ∀ form ∈ (source.map fun source => Form.clause "FROM" source.form).toList,
      form.IsMeasured page := by
    cases source with
    | none => exact List.forall_mem_nil _
    | some table =>
      have htable : table.form.IsInked page :=
        h (.tableExpr table) (.inl (.inl (.inl (.inl (.inr List.mem_cons_self)))))
      exact List.forall_mem_singleton.mpr (inked_clause "FROM" htable).toIsMeasured
  have hfilter := measured_exprClause? "WHERE" fun child hchild =>
    h child (.inl (.inl (.inl (.inr hchild))))
  have hgroup := measured_listClauses "GROUP BY" (inked_exprs fun child hchild => h child (.inr hchild))
  have hhaving := measured_exprClause? "HAVING" fun child hchild => h child (.inl (.inl (.inr hchild)))
  have hqualify := measured_exprClause? "QUALIFY" fun child hchild => h child (.inl (.inr hchild))
  rw [Select.form_mk]
  apply measured_phrases
  simp only [List.cons_append, List.forall_mem_cons, List.forall_mem_append]
  exact ⟨hselect.toIsMeasured, ⟨⟨⟨hsource, hfilter⟩, hgroup⟩, hhaving⟩, hqualify⟩

theorem measured_join {left right : TableExpr} {kind : JoinKind} {condition : Option JoinCondition}
    (h : ∀ child ∈ Node.ofTableExpr (.join left kind right condition), child.IsMeasured page) :
    (TableExpr.join left kind right condition).form.IsMeasured page := by
  simp only [Node.ofTableExpr, List.mem_append] at h
  have hleft : left.form.IsInked page := h (.tableExpr left) (.inl (by simp))
  have hright : right.form.IsInked page := h (.tableExpr right) (.inl (by simp))
  have hjoin {suffix : Form} (hsuffix : suffix.IsMeasured page) :=
    measured_joinForm hleft.toIsMeasured kind hright.toIsMeasured hsuffix
  rcases condition with _ | test | columns
  · exact hjoin (measured_text "")
  · have htest : test.IsMeasured page := h (.expr test) (.inr List.mem_cons_self)
    exact hjoin (inline_measured.keyword " ON " htest.form.toIsMeasured)
  · have hnames : ∀ form ∈ identifierForms columns, form.IsMeasured page :=
      inline_measured.identifierForms columns
    have hcolumns := inline_measured.commaLine hnames
    exact hjoin (inline_measured.line (by simp [measured_text, hcolumns]))

theorem TableExpr.measured_form {table : TableExpr}
    (h : ∀ child ∈ Node.ofTableExpr table, child.IsMeasured page) : table.form.IsMeasured page := by
  cases table with
  | table name aliasName => exact measured_text _
  | subquery query aliasName =>
    have hquery : query.form.IsInked page := h (.query query) List.mem_cons_self
    exact measured_enclosed _ _ hquery
  | unnest array aliasName offset =>
    have harray : array.IsMeasured page := h (.expr array) List.mem_cons_self
    exact inline_measured.line (by simp [measured_text, harray.form.toIsMeasured])
  | join left kind right condition => exact measured_join h

end Queries

section Statements

theorem measured_options {options : List OptionItem}
    (h : ∀ child ∈ Node.optionValues options, child.IsMeasured page) :
    ∀ form ∈ optionForms options, form.IsMeasured page := by
  unfold optionForms
  split
  · exact List.forall_mem_nil _
  · have hitems : ∀ form ∈ options.map OptionItem.form, form.IsMeasured page := by
      refine List.forall_mem_map.mpr fun item hmem => ?_
      have hvalue : item.value.IsMeasured page :=
        h (.expr item.value) (List.mem_map_of_mem (f := fun item => Node.expr (OptionItem.value item)) hmem)
      exact inline_measured.keyword _ hvalue.form.toIsMeasured
    exact List.forall_mem_singleton.mpr (measured_call _ _ hitems)

theorem measured_declarations (declarations : List Declaration) :
    ∀ form ∈ declarationForms declarations, form.IsMeasured page :=
  List.forall_mem_map.mpr fun declaration _ => measured_text declaration.text

theorem FunctionBody.isMeasured {body : FunctionBody}
    (h : ∀ child ∈ Node.ofBody body, child.IsMeasured page) :
    ∀ form ∈ body.forms, form.IsMeasured page := by
  cases body with
  | sql body =>
    have hbody : body.IsMeasured page := h (.expr body) List.mem_cons_self
    exact List.forall_mem_singleton.mpr (inked_clause "AS" hbody.form).toIsMeasured
  | «foreign» language code options =>
    exact List.forall_mem_cons.mpr ⟨measured_text _,
      List.forall_mem_cons.mpr ⟨measured_text _, measured_options h⟩⟩

theorem FunctionDef.isMeasured {function : FunctionDef}
    (h : ∀ child ∈ Node.ofBody function.body, child.IsMeasured page) : function.form.IsMeasured page := by
  apply measured_phrases
  simp only [List.cons_append, List.forall_mem_cons, List.forall_mem_append]
  refine ⟨measured_call _ _ (measured_declarations function.params), ?_, FunctionBody.isMeasured h⟩
  cases function.returns <;> simp [measured_text]

theorem TableDef.isMeasured {table : TableDef}
    (h : ∀ child ∈ Node.ofAction (.createTable table), child.IsMeasured page) :
    table.form.IsMeasured page := by
  simp only [Node.ofAction, List.mem_append] at h
  have hoptions := measured_options fun child hchild => h child (.inl hchild)
  apply measured_phrases
  simp only [List.cons_append, List.forall_mem_cons, List.forall_mem_append]
  refine ⟨?_, hoptions, ?_⟩
  · split
    · exact measured_text _
    · exact measured_call _ _ (measured_declarations table.columns)
  · cases hquery : table.query with
    | none => exact List.forall_mem_nil _
    | some query =>
      have hbody : query.form.IsInked page := h (.query query) (.inr (by simp [hquery]))
      exact List.forall_mem_singleton.mpr (inked_clause "AS" hbody).toIsMeasured

theorem ViewDef.isMeasured {view : ViewDef}
    (h : ∀ child ∈ Node.ofAction (.createView view), child.IsMeasured page) :
    view.form.IsMeasured page := by
  simp only [Node.ofAction, List.mem_append, List.mem_singleton] at h
  have hoptions := measured_options fun child hchild => h child (.inl hchild)
  have hquery : view.query.form.IsInked page := h (.query view.query) (.inr rfl)
  apply measured_phrases
  simp only [List.cons_append, List.forall_mem_cons, List.forall_mem_append]
  exact ⟨measured_text _, hoptions, (inked_clause "AS" hquery).toIsMeasured, List.forall_mem_nil _⟩

theorem inked_rows {rows : List (List Expr)}
    (h : ∀ child ∈ rows.flatMap Node.exprs, child.IsMeasured page) :
    ∀ form ∈ rows.map rowForm, form.IsInked page := by
  refine List.forall_mem_map.mpr fun row hrow => inked_call (by decide) ")" ?_
  exact measured_exprs fun child hchild => h child (List.mem_flatMap.mpr ⟨row, hrow, hchild⟩)

theorem Insertion.isMeasured {insertion : Insertion} (hsound : insertion.source.IsSound)
    (h : ∀ child ∈ Node.ofInsertSource insertion.source, child.IsMeasured page) :
    insertion.form.IsMeasured page := by
  obtain ⟨table, columns, source⟩ := insertion
  cases source with
  | query body =>
    have hbody : body.form.IsInked page := h (.query body) List.mem_cons_self
    exact measured_chooseStack (isPlain_headed hbody.plain _) (by simp [Doc.IsMeasured.text, hbody.full])
  | values rows =>
    have hrows := inked_commas (by simpa using hsound.1) (inked_rows h)
    have hclause := inked_clause "VALUES" hrows
    exact measured_chooseStack (isPlain_headed hrows.plain _) (by simp [Doc.IsMeasured.text, hclause.full])

theorem Action.isMeasured {action : Action} (hsound : action.IsSound)
    (h : ∀ child ∈ Node.ofAction action, child.IsMeasured page) : action.form.IsMeasured page := by
  cases action with
  | query body =>
    have hbody : body.form.IsInked page := h (.query body) List.mem_cons_self
    exact hbody.toIsMeasured
  | createFunction definition => exact h (.function definition) List.mem_cons_self
  | createTable definition => exact TableDef.isMeasured h
  | createView definition => exact ViewDef.isMeasured h
  | insert insertion => exact Insertion.isMeasured hsound.source h

end Statements

section Scripts

theorem Style.measured_pick (style : Style) {form : Form} (h : form.IsMeasured page) :
    (style.pick form).IsMeasured page := by
  unfold Style.pick
  split
  · exact h.plain.isMeasured page
  · exact h.full

theorem measured_comments (comments : List String) : ∀ doc ∈ commentDocs comments, doc.IsMeasured page :=
  List.forall_mem_map.mpr fun comment _ => .text comment

theorem Style.measured_gap (style : Style) : ∀ doc ∈ style.gap, doc.IsMeasured page := by
  unfold Style.gap
  split
  · exact List.forall_mem_nil _
  · exact List.forall_mem_singleton.mpr (.text "")

theorem Statement.measured_docs (style : Style) (isTerminated : Bool) {statement : Statement}
    (h : statement.action.form.IsMeasured page) :
    ∀ doc ∈ statement.docs style isTerminated, doc.IsMeasured page := by
  have hpick := style.measured_pick h
  refine List.forall_mem_append.mpr ⟨measured_comments _, List.forall_mem_singleton.mpr ?_⟩
  cases isTerminated with
  | false => exact hpick
  | true => exact hpick.append (.text ";")

theorem measured_statements (style : Style) (lastIsTerminated : Bool) {statements : List Statement}
    (h : ∀ statement ∈ statements, statement.action.form.IsMeasured page) :
    ∀ doc ∈ statementDocs style lastIsTerminated statements, doc.IsMeasured page := by
  induction statements with
  | nil => exact List.forall_mem_nil _
  | cons statement statements ih =>
    obtain ⟨hstatement, hstatements⟩ := List.forall_mem_cons.mp h
    cases statements with
    | nil => exact Statement.measured_docs style lastIsTerminated hstatement
    | cons next statements =>
      rw [statementDocs, List.forall_mem_append, List.forall_mem_append]
      exact ⟨⟨Statement.measured_docs style true hstatement, style.measured_gap⟩, ih hstatements⟩

theorem Script.isMeasured {script : Script}
    (h : ∀ statement ∈ script.statements, statement.action.form.IsMeasured page) (style : Style) :
    (script.doc style).IsMeasured page := by
  apply Doc.IsMeasured.stack
  rw [List.forall_mem_append, List.forall_mem_append]
  refine ⟨⟨measured_statements style _ h, ?_⟩, measured_comments _⟩
  split
  · exact List.forall_mem_nil _
  · exact style.measured_gap

end Scripts

/-- Every node of a sound tree can be measured. -/
theorem Node.isMeasured (node : Node) : node.IsSound → node.IsMeasured page := by
  induction node using Node.induct with
  | h node ih =>
    intro hsound
    have hlocal := hsound.here
    have hlegible := node.isLegible hsound
    have h : ∀ child ∈ node.children, child.IsMeasured page := fun child hchild =>
      ih child hchild (hsound.child hchild)
    cases node with
    | script body => exact Script.isMeasured fun statement hmem => h _ (List.mem_map_of_mem hmem)
    | statement body => exact Action.isMeasured hlocal.action h
    | function definition => exact FunctionDef.isMeasured h
    | query body => exact (Query.measured_form hlocal h).inked body.prints hlegible
    | commonTable table => exact inked_commonTable (h (.query table.query) List.mem_cons_self)
    | setExpr body => exact SetExpr.isMeasured h
    | select body => exact Select.isMeasured hlocal.items h
    | selectItem item =>
      exact inked_of_prints (measured_selectItem h) (prints_selectItems [item]) hlegible
    | tableExpr table => exact (TableExpr.measured_form h).inked table.prints hlegible
    | expr body => exact Expr.isMeasured hlocal.1 hlegible.phrase h

/-- Measuring agrees with laying out. Where no body that is indented has an empty one-line form, and no
choice has a one-line form on its full side alone, a one-line form that fits is what is printed; so a wrap
that joins its items prints what the items print side by side. All documents of what was read, on every
page and in every style, are of this kind. -/
theorem flat_agrees_with_layout :
    (∀ (page : Page) (doc : Doc), doc.IsMeasured page → ∀ (col : Nat) (line : String),
      doc.flat page = some line → col + line.length ≤ page.width →
        doc.layout page col = { first := line }) ∧
    (∀ (page : Page) (items : List Doc) (sep : String), (Doc.wrap items sep).IsMeasured page →
      ∀ (col : Nat) (joined : String), (Doc.wrap items sep).flat page = some joined →
        col + joined.length ≤ page.width →
          ((Doc.wrap items sep).layout page col).toText =
            ((Doc.line (items.intersperse (.text sep))).layout page col).toText) ∧
    (∀ (source : String) (script : Script), Script.ofSource source = .ok script →
      ∀ (style : Style) (page : Page), (script.doc style).IsMeasured page) ∧
    ∀ (source : String) (e : Expr), Expr.ofSource source = .ok e →
      ∀ (style : Style) (page : Page), (style.pick e.form.toForm).IsMeasured page := by
  refine ⟨fun page doc h col line => Doc.layout_eq_of_flat h, ?_, ?_, ?_⟩
  · intro page items sep h col joined hflat hfits
    rw [Doc.layout_eq_of_flat h hflat hfits, Doc.layout]
    cases h with
    | wrap _ hitems =>
      rw [Doc.flat] at hflat
      obtain ⟨texts, htexts, rfl⟩ := Option.map_eq_some_iff.mp hflat
      have hchars := Doc.chars_layoutLine_intersperse hitems htexts hfits
      rw [← String.toList_inj, Block.toList_toText, Block.toList_toText, hchars]
      simp [Block.chars]
  · intro source script h style page
    have hmeasured : (Node.script script).IsMeasured page :=
      Node.isMeasured _ (Script.isSound_of_ofSource h)
    exact hmeasured style
  · intro source e h style page
    have hmeasured : e.IsMeasured page := Node.isMeasured (.expr e) (Expr.isOperand_of_ofSource h).sound
    exact style.measured_pick hmeasured.form.toIsMeasured

/-- A choice and an indented item, joined. -/
theorem flat_agrees_with_layout_joined :
    let page : Page := { width := 12 }
    let items : List Doc := [.choice (.text "a") (.stack [.text "a", .text "a"]), .indent (.text "b")]
    (Doc.wrap items ", ").flat page = some "a,   b" ∧ 6 + "a,   b".length ≤ page.width ∧
      (Doc.wrap items ", ").layout page 6 = { first := "a,   b" } ∧
      ((Doc.line (items.intersperse (.text ", "))).layout page 6).toText = "a,   b" ∧
      (∃ script, Script.ofSource "SELECT f(a, b) FROM t" = .ok script ∧
        (script.doc {}).IsMeasured page) ∧
      ∃ e, Expr.ofSource "f(a, b)" = .ok e ∧ (Style.pick {} e.form.toForm).IsMeasured page := by
  intro page items
  have hchoice : (Doc.choice (.text "a") (.stack [.text "a", .text "a"])).IsMeasured page :=
    .choice (.text "a") (.stack (by simp [Doc.IsMeasured.text])) (by decide)
  have hindent : (Doc.indent (.text "b")).IsMeasured page := .indent (.text "b") (by decide)
  have hwrap : (Doc.wrap items ", ").IsMeasured page := .wrap ", " (by simp [items, hchoice, hindent])
  have hflat : (Doc.wrap items ", ").flat page = some "a,   b" := by decide
  have hfits : 6 + "a,   b".length ≤ page.width := by decide
  have hlayout := flat_agrees_with_layout.1 page _ hwrap 6 _ hflat hfits
  have htext := flat_agrees_with_layout.2.1 page items ", " hwrap 6 _ hflat hfits
  have hscript : (Script.ofSource "SELECT f(a, b) FROM t").isOk := by decide +kernel
  have hexpr : (Expr.ofSource "f(a, b)").isOk := by decide +kernel
  obtain ⟨script, hscript⟩ := exists_of_isOk hscript
  obtain ⟨e, hexpr⟩ := exists_of_isOk hexpr
  refine ⟨hflat, hfits, hlayout, ?_, ⟨script, hscript, ?_⟩, e, hexpr, ?_⟩
  · rw [← htext, hlayout]
    rfl
  · exact flat_agrees_with_layout.2.2.1 _ script hscript {} page
  · exact flat_agrees_with_layout.2.2.2 _ e hexpr {} page

end SqlLayout
