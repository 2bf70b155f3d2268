import SqlLayout.Proofs.Layout.Legible
import SqlLayout.Proofs.Layout.Verbatim

/-!
# Trees Print Their Texts

What a sound tree spells holds the texts that the tree keeps, in the order in which the tree lists them,
and no others. They are spelled as they are, but that digits take in the point of a field after them.
-/

namespace SqlLayout

open Token Token.Scan Spelling

section Printed

/-- What a text is printed as: as it is, but for digits with the point of a field after them. -/
def PrintedAs (text printed : String) : Prop :=
  printed = text ∨ text.toList.all Char.isDigit ∧ ∃ exponent, printed = text ++ "." ++ exponent

/-- A literal or a backquoted name is no digits with a point. -/
theorem PrintedAs.eq_of_quoted {text : String} {glyph : Glyph} (h : PrintedAs text glyph.text)
    (hgenuine : glyph.IsGenuine) (hkind : glyph.kind = .string ∨ glyph.kind = .quotedIdent) :
    glyph.text = text := by
  have hhead : ∀ c ∈ glyph.text.toList.head?, c.isDigit = false ∧ c ≠ '.' := by
    intro c hc
    unfold Glyph.IsGenuine at hgenuine
    rcases hkind with hkind | hkind <;> rw [hkind] at hgenuine
    · obtain ⟨d, ds, htext, hd⟩ := Glyph.exists_cons_of_isLiteral hgenuine
      rw [htext] at hc
      cases hc
      rcases hd with hword | hquote
      · exact ⟨not_isDigit_of_isWordStart hword, by rintro rfl; exact absurd hword (by decide)⟩
      · simp only [isQuote, Bool.or_eq_true, beq_iff_eq] at hquote
        rcases hquote with rfl | rfl <;> decide
    · obtain ⟨body, htext, -⟩ := hgenuine
      rw [htext] at hc
      cases hc
      decide
  rcases h with h | ⟨hdigits, exponent, h⟩
  · exact h
  · rw [h, String.toList_append, String.toList_append, List.append_assoc] at hhead
    cases htext : text.toList with
    | nil => exact absurd rfl (hhead '.' (by simp [htext])).2
    | cons d ds =>
      rw [htext, List.all_cons, Bool.and_eq_true] at hdigits
      rw [(hhead d (by simp [htext])).1] at hdigits
      exact absurd hdigits.1 (by decide)

/-- Texts that are printed in their order. -/
def Printed (texts printed : List String) : Prop :=
  List.Forall₂ PrintedAs texts printed

namespace Printed

variable {texts others printed printed' : List String} {α : Type} {items : List α}
  {f g : α → List String} {o : Option α}

@[refl] theorem refl (texts : List String) : Printed texts texts :=
  List.forall₂_same.mpr fun _ _ => .inl rfl

theorem append (h : Printed texts printed) (h' : Printed others printed') :
    Printed (texts ++ others) (printed ++ printed') :=
  List.rel_append h h'

theorem flatMap (h : ∀ item ∈ items, Printed (f item) (g item)) :
    Printed (items.flatMap f) (items.flatMap g) := by
  induction items with
  | nil => exact .nil
  | cons item items ih =>
    rw [List.flatMap_cons, List.flatMap_cons]
    exact (h item List.mem_cons_self).append (ih fun other hmem => h other (List.mem_cons_of_mem _ hmem))

theorem optional (h : ∀ value ∈ o, Printed (f value) (g value)) :
    Printed (verbatims? f o) (verbatims? g o) := by
  cases o with
  | none => exact .nil
  | some value => exact h value rfl

theorem mem_of_quoted {glyph : Glyph} (h : Printed texts printed) (hgenuine : glyph.IsGenuine)
    (hkind : glyph.kind = .string ∨ glyph.kind = .quotedIdent) (hmem : glyph.text ∈ printed) :
    glyph.text ∈ texts := by
  induction h with
  | nil => exact hmem
  | cons hprinted _ ih =>
    rcases List.mem_cons.mp hmem with rfl | hmem
    · exact List.mem_cons.mpr (.inl (hprinted.eq_of_quoted hgenuine hkind))
    · exact List.mem_cons_of_mem _ (ih hmem)

end Printed

end Printed

section Nodes

/-- What a node spells prints its texts. -/
def Node.PrintsTexts : Node → Prop
  | script body => Printed body.verbatims body.spelling.verbatims
  | statement body => Printed body.verbatims body.action.spelling.verbatims
  | function definition => Printed definition.verbatims definition.spelling.verbatims
  | query body => Printed body.verbatims body.spelling.verbatims
  | commonTable table =>
    Printed table.verbatims ((commonTableSpellings [table]).flatMap Spelling.verbatims)
  | setExpr body => Printed body.verbatims body.spelling.verbatims
  | select body => Printed body.verbatims body.spelling.verbatims
  | selectItem item =>
    Printed item.verbatims ((selectItemSpellings [item]).flatMap Spelling.verbatims)
  | tableExpr table => Printed table.verbatims table.spelling.verbatims
  | expr body => Printed body.verbatims body.spelling.verbatims

end Nodes

section Fields

variable {name : Identifier}

theorem Identifier.verbatims_of_isWord (h : IsWord name.raw.toList) : name.verbatims = [] := by
  rw [verbatims, Glyph.verbatims, kind_of_isWord h]
  rfl

/-- What an exponent leaves of a name holds the texts of the name. -/
theorem verbatims_drop_exponent {rest : String} (hname : name.IsSegment)
    (hrest : rest.toList = name.raw.toList.drop (exponent name.raw.toList)) :
    Spelling.verbatims (if rest.isEmpty then [] else [.glyph (Identifier.glyph { raw := rest })]) =
      name.verbatims := by
  rcases hname with hword | hquoted
  · rw [Identifier.verbatims_of_isWord hword]
    split
    · rfl
    · rename_i hsome
      have hne : rest.toList ≠ [] := by simpa [String.isEmpty_iff] using hsome
      rw [hrest] at hne
      have hrestWord : IsWord rest.toList := hrest ▸ isWord_drop_exponent hword hne
      exact (Identifier.verbatims_spelling ⟨rest⟩).trans (Identifier.verbatims_of_isWord hrestWord)
  · obtain ⟨body, htext, -⟩ := hquoted
    have hzero : exponent name.raw.toList = 0 := by
      rw [htext]
      rfl
    rw [hzero, List.drop_zero, String.toList_inj] at hrest
    have hne : ¬name.raw.isEmpty := by simp [← String.toList_eq_nil_iff, htext]
    rw [hrest, if_neg hne]
    exact Identifier.verbatims_spelling name

theorem printed_digitField {digits : String} (hdigits : digits.toList.all Char.isDigit)
    (hname : name.IsSegment) :
    Printed (digits :: name.verbatims) (digitField digits name.raw).verbatims := by
  have hrest := verbatims_drop_exponent hname String.toList_ofList
  rw [digitField, Spelling.verbatims_cons, hrest]
  exact .cons (.inr ⟨hdigits, _, rfl⟩) (Printed.refl _)

theorem printed_field {base : Expr} (hname : name.IsSegment)
    (h : Printed base.verbatims base.spelling.verbatims) :
    Printed (base.verbatims ++ name.verbatims) (fieldSpelling base base.spelling name).verbatims := by
  unfold fieldSpelling
  split
  · rename_i digits hwhole
    obtain ⟨rfl, hdigits⟩ := eq_of_whole? hwhole
    exact printed_digitField (List.all_eq_true.mpr hdigits) hname
  · simpa using h.append (.refl name.verbatims)

end Fields

section Lists

/-- What is printed of each of some nodes is printed of all of them. -/
theorem printed_exprs {items : List Expr} (h : ∀ child ∈ Node.exprs items, child.PrintsTexts) :
    Printed (items.flatMap Expr.verbatims) ((exprSpellings items).flatMap Spelling.verbatims) := by
  rw [exprSpellings_eq, List.flatMap_map]
  apply Printed.flatMap
  intro item hmem
  exact h (.expr item) (List.mem_map_of_mem hmem)

theorem printed_optional {o : Option Expr} (h : ∀ child ∈ Node.exprs o.toList, child.PrintsTexts) :
    Printed (verbatims? Expr.verbatims o) (verbatims? (fun e => e.spelling.verbatims) o) := by
  apply Printed.optional
  intro e he
  exact h (.expr e) (List.mem_map_of_mem (Option.mem_toList.mpr he))

theorem printed_sortKeys {keys : List SortKey} (h : ∀ child ∈ Node.sortKeys keys, child.PrintsTexts) :
    Printed (keys.flatMap SortKey.verbatims) ((sortKeySpellings keys).flatMap Spelling.verbatims) := by
  induction keys with
  | nil => exact .nil
  | cons key keys ih =>
    obtain ⟨e, direction, nulls⟩ := key
    have hexpr : Printed e.verbatims e.spelling.verbatims := h (.expr e) List.mem_cons_self
    have hrest := ih fun child hchild => h child (List.mem_cons_of_mem _ hchild)
    simpa [sortKeySpellings, SortKey.verbatims] using hexpr.append hrest

theorem printed_structItems {items : List StructItem}
    (h : ∀ child ∈ Node.structItems items, child.PrintsTexts) :
    Printed (items.flatMap StructItem.verbatims)
      ((structItemSpellings items).flatMap Spelling.verbatims) := by
  induction items with
  | nil => exact .nil
  | cons item items ih =>
    obtain ⟨e, aliasName⟩ := item
    have hexpr : Printed e.verbatims e.spelling.verbatims := h (.expr e) List.mem_cons_self
    have hrest := ih fun child hchild => h child (List.mem_cons_of_mem _ hchild)
    simpa [structItemSpellings, StructItem.verbatims] using
      hexpr.append ((Printed.refl (verbatims? Identifier.verbatims aliasName)).append hrest)

theorem printed_replacements {items : List Replacement}
    (h : ∀ child ∈ Node.replacements items, child.PrintsTexts) :
    Printed (items.flatMap Replacement.verbatims)
      ((replacementSpellings items).flatMap Spelling.verbatims) := by
  induction items with
  | nil => exact .nil
  | cons item items ih =>
    obtain ⟨e, aliasName⟩ := item
    have hexpr : Printed e.verbatims e.spelling.verbatims := h (.expr e) List.mem_cons_self
    have hrest := ih fun child hchild => h child (List.mem_cons_of_mem _ hchild)
    simpa [replacementSpellings, Replacement.verbatims, verbatims?] using
      hexpr.append ((Printed.refl aliasName.verbatims).append hrest)

theorem printed_branches {branches : List Branch}
    (h : ∀ child ∈ Node.ofBranches branches, child.PrintsTexts) :
    Printed (branches.flatMap Branch.verbatims)
      ((branchSpellings branches).flatMap Spelling.verbatims) := by
  induction branches with
  | nil => exact .nil
  | cons branch branches ih =>
    obtain ⟨condition, result⟩ := branch
    simp only [Node.ofBranches, List.flatMap_cons, List.mem_append] at h
    have hcondition : Printed condition.verbatims condition.spelling.verbatims :=
      h (.expr condition) (.inl (by simp))
    have hresult : Printed result.verbatims result.spelling.verbatims :=
      h (.expr result) (.inl (by simp))
    have hrest := ih fun child hchild => h child (.inr hchild)
    simpa [branchSpellings, Branch.verbatims] using hcondition.append (hresult.append hrest)

theorem printed_rowOrder {order : RowOrder}
    (h : ∀ child ∈ Node.ofRowOrder (some order), child.PrintsTexts) :
    Printed order.verbatims order.spelling.verbatims := by
  obtain ⟨keys, limit, offset⟩ := order
  simp only [Node.ofRowOrder, List.mem_append] at h
  have hkeys := printed_sortKeys fun child hchild => h child (.inl (.inl hchild))
  have hlimit := printed_optional fun child hchild => h child (.inl (.inr hchild))
  have hoffset := printed_optional fun child hchild => h child (.inr hchild)
  simpa [RowOrder.spelling_mk, RowOrder.verbatims] using hkeys.append (hlimit.append hoffset)

theorem printed_window {window : Window} (h : ∀ child ∈ Node.ofWindow (some window), child.PrintsTexts) :
    Printed window.verbatims window.spelling.verbatims := by
  obtain ⟨partition, order, frame⟩ := window
  simp only [Node.ofWindow, List.mem_append] at h
  have hpartition := printed_exprs fun child hchild => h child (.inl hchild)
  have horder := printed_sortKeys fun child hchild => h child (.inr hchild)
  simpa [Window.spelling, Window.verbatims] using
    hpartition.append (horder.append (.refl (verbatims? Frame.verbatims frame)))

end Lists

section Expressions

theorem printed_call {function : QualifiedName} {distinct : Bool} {args : List Expr}
    {nulls : Option NullHandling} (h : ∀ child ∈ Node.exprs args, child.PrintsTexts) :
    (Node.expr (.call function distinct args nulls)).PrintsTexts := by
  change Printed (function.verbatims ++ exprsVerbatims args) (Spelling.verbatims
    (callSpelling function.spelling (modifyLast (· ++ modifier (nulls.map NullHandling.spelling))
      (modifyFirst (distinctSpelling distinct) (exprSpellings args)))))
  have hlast : (modifier (nulls.map NullHandling.spelling)).verbatims = [] := by simp
  simpa [verbatims_modifyLast hlast] using (Printed.refl function.verbatims).append (printed_exprs h)

theorem printed_array {type : Option SqlType} {items : List Expr}
    (h : ∀ child ∈ Node.exprs items, child.PrintsTexts) :
    (Node.expr (.array type items)).PrintsTexts := by
  have hitems := printed_exprs h
  cases type with
  | none =>
    change Printed (exprsVerbatims items) (Spelling.verbatims
      (Atom.bracketOpen :: commas (exprSpellings items) ++ [Atom.bracketClose]))
    simpa using hitems
  | some type =>
    change Printed (type.verbatims ++ exprsVerbatims items) (Spelling.verbatims
      ([Atom.word "ARRAY", Atom.symbol .lt "<"] ++ type.spelling
        ++ [Atom.symbol .gt ">", Atom.bracketOpen] ++ commas (exprSpellings items)
        ++ [Atom.bracketClose]))
    simpa using (Printed.refl type.verbatims).append hitems

/-- The modifiers of an aggregate. -/
theorem printed_modifiers {order : Option RowOrder} {window : Option Window}
    (horder : ∀ child ∈ Node.ofRowOrder order, child.PrintsTexts)
    (hwindow : ∀ child ∈ Node.ofWindow window, child.PrintsTexts) :
    Printed (verbatims? RowOrder.verbatims order ++ verbatims? Window.verbatims window)
      (verbatims? (fun order => order.spelling.verbatims) order
        ++ verbatims? (fun window => window.spelling.verbatims) window) := by
  apply Printed.append
  · apply Printed.optional
    rintro order rfl
    exact printed_rowOrder horder
  · apply Printed.optional
    rintro window rfl
    exact printed_window hwindow

theorem printed_arrayAgg {distinct : Bool} {operand : Expr} {nulls : Option NullHandling}
    {order : Option RowOrder} {window : Option Window} {offset : Option Expr}
    (h : ∀ child ∈ Node.ofExpr (.arrayAgg distinct operand nulls order window offset),
      child.PrintsTexts) :
    (Node.expr (.arrayAgg distinct operand nulls order window offset)).PrintsTexts := by
  simp only [Node.ofExpr, List.mem_append, List.mem_singleton] at h
  have hoperand : Printed operand.verbatims operand.spelling.verbatims :=
    h (.expr operand) (.inl (.inl (.inl rfl)))
  have hmodifiers := printed_modifiers (fun child hchild => h child (.inl (.inl (.inr hchild))))
    fun child hchild => h child (.inl (.inr hchild))
  have hoffset := printed_optional fun child hchild => h child (.inr hchild)
  change Printed (operand.verbatims ++ rowOrderVerbatims? order ++ windowVerbatims? window
    ++ exprVerbatims? offset) (Expr.spelling _).verbatims
  rw [Expr.spelling_arrayAgg]
  have happended := (hoperand.append hmodifiers).append hoffset
  cases offset <;> simpa using happended

theorem printed_stringAgg {function : StringFunction} {distinct : Bool} {operand : Expr}
    {delimiter : Option Constant} {nulls : Option NullHandling} {order : Option RowOrder}
    {window : Option Window} {accessor : Option Accessor}
    (h : ∀ child ∈ Node.ofExpr
      (.stringAgg function distinct operand delimiter nulls order window accessor), child.PrintsTexts) :
    (Node.expr
      (.stringAgg function distinct operand delimiter nulls order window accessor)).PrintsTexts := by
  simp only [Node.ofExpr, List.mem_append, List.mem_singleton] at h
  have hoperand : Printed operand.verbatims operand.spelling.verbatims :=
    h (.expr operand) (.inl (.inl (.inl rfl)))
  have hmodifiers := printed_modifiers (fun child hchild => h child (.inl (.inl (.inr hchild))))
    fun child hchild => h child (.inl (.inr hchild))
  have hparts := (hoperand.append (.refl (verbatims? Constant.verbatims delimiter))).append hmodifiers
  change Printed (operand.verbatims ++ verbatims? Constant.verbatims delimiter
    ++ rowOrderVerbatims? order ++ windowVerbatims? window ++ accessorVerbatims? accessor)
    (Expr.spelling _).verbatims
  rw [Expr.spelling_stringAgg]
  cases accessor with
  | none => cases delimiter <;> simpa using hparts
  | some accessor =>
    obtain ⟨name, position⟩ := accessor
    have hposition : Printed position.verbatims position.spelling.verbatims :=
      h (.expr position) (.inr List.mem_cons_self)
    have happended := hparts.append
      ((Printed.refl (verbatims? Identifier.verbatims name)).append hposition)
    cases delimiter <;> cases name <;> simpa [accessorSpelling, Accessor.verbatims] using happended

theorem printed_struct {fields : Option (List Field)} {items : List StructItem}
    (h : ∀ child ∈ Node.structItems items, child.PrintsTexts) :
    (Node.expr (.struct fields items)).PrintsTexts := by
  have hitems := printed_structItems h
  cases fields with
  | none =>
    change Printed (structItemsVerbatims items) (Spelling.verbatims
      (callSpelling [Atom.word "STRUCT"] (structItemSpellings items)))
    simpa using hitems
  | some fields =>
    change Printed (fieldsVerbatims fields ++ structItemsVerbatims items) (Spelling.verbatims
      (callSpelling (Atom.word "STRUCT" :: angled (fieldSpellings fields)) (structItemSpellings items)))
    simpa using (Printed.refl (fields.flatMap Field.verbatims)).append hitems

theorem printed_extract {part operand : Expr} {zone : Option Expr}
    (h : ∀ child ∈ Node.ofExpr (.extract part operand zone), child.PrintsTexts) :
    (Node.expr (.extract part operand zone)).PrintsTexts := by
  simp only [Node.ofExpr, List.mem_append, List.mem_cons] at h
  have hpart : Printed part.verbatims part.spelling.verbatims := h (.expr part) (.inl (.inl rfl))
  have hoperand : Printed operand.verbatims operand.spelling.verbatims :=
    h (.expr operand) (.inl (.inr (.inl rfl)))
  have hzone := printed_optional fun child hchild => h child (.inr hchild)
  have happended := hpart.append (hoperand.append hzone)
  cases zone with
  | none =>
    change Printed (part.verbatims ++ operand.verbatims ++ []) (Spelling.verbatims
      (callSpelling [Atom.word "EXTRACT"]
        [part.spelling ++ [.gap, Atom.word "FROM", .gap] ++ operand.spelling ++ []]))
    simpa using happended
  | some zone =>
    change Printed (part.verbatims ++ operand.verbatims ++ zone.verbatims) (Spelling.verbatims
      (callSpelling [Atom.word "EXTRACT"]
        [part.spelling ++ [.gap, Atom.word "FROM", .gap] ++ operand.spelling
          ++ (.gap :: words ["AT", "TIME", "ZONE"] ++ .gap :: zone.spelling)]))
    simpa using happended

theorem printed_case {operand : Option Expr} {branches : List Branch} {otherwise : Option Expr}
    (h : ∀ child ∈ Node.ofExpr (.case operand branches otherwise), child.PrintsTexts) :
    (Node.expr (.case operand branches otherwise)).PrintsTexts := by
  simp only [Node.ofExpr, List.mem_append] at h
  have hoperand := printed_optional fun child hchild => h child (.inl (.inl hchild))
  have hbranches := printed_branches fun child hchild => h child (.inl (.inr hchild))
  have hotherwise := printed_optional fun child hchild => h child (.inr hchild)
  change Printed (exprVerbatims? operand ++ branchesVerbatims branches ++ exprVerbatims? otherwise)
    (Expr.spelling _).verbatims
  rw [Expr.spelling_case]
  cases operand <;> simpa using hoperand.append (hbranches.append hotherwise)

theorem printed_target {target : MemberTarget}
    (h : ∀ child ∈ Node.ofMemberTarget target, child.PrintsTexts) :
    Printed target.verbatims target.spelling.verbatims := by
  cases target with
  | list items =>
    change Printed (exprsVerbatims items) (Spelling.verbatims (callSpelling [] (exprSpellings items)))
    simpa using printed_exprs h
  | query body =>
    have hbody : Printed body.verbatims body.spelling.verbatims := h (.query body) List.mem_cons_self
    change Printed body.verbatims (Spelling.verbatims (enclosed body.spelling))
    simpa using hbody
  | unnest array =>
    have harray : Printed array.verbatims array.spelling.verbatims := h (.expr array) List.mem_cons_self
    change Printed array.verbatims
      (Spelling.verbatims (callSpelling [Atom.word "UNNEST"] [array.spelling]))
    simpa using harray

theorem Expr.printed {e : Expr} (hlocal : e.IsLocallySound)
    (h : ∀ child ∈ Node.ofExpr e, child.PrintsTexts) : (Node.expr e).PrintsTexts := by
  cases e with
  | constant constant =>
    change Printed constant.verbatims constant.spelling.verbatims
    rw [Constant.verbatims_spelling]
  | name name =>
    change Printed name.verbatims name.spelling.verbatims
    rw [QualifiedName.verbatims_spelling]
  | star => exact .nil
  | call function distinct args nulls => exact printed_call h
  | array type items => exact printed_array h
  | arrayQuery query =>
    have hquery : Printed query.verbatims query.spelling.verbatims := h (.query query) List.mem_cons_self
    change Printed query.verbatims (Spelling.verbatims (Atom.word "ARRAY" :: enclosed query.spelling))
    simpa using hquery
  | arrayAgg distinct operand nulls order window offset => exact printed_arrayAgg h
  | stringAgg function distinct operand delimiter nulls order window accessor =>
    exact printed_stringAgg h
  | «over» operand window =>
    simp only [Node.ofExpr, List.mem_cons] at h
    have hoperand : Printed operand.verbatims operand.spelling.verbatims := h (.expr operand) (.inl rfl)
    have hwindow := printed_window fun child hchild => h child (.inr hchild)
    change Printed (operand.verbatims ++ window.verbatims) (Spelling.verbatims
      (operand.spelling ++ .gap :: window.spelling))
    simpa using hoperand.append hwindow
  | binary op left right =>
    simp only [Node.ofExpr, List.mem_cons] at h
    have hleft : Printed left.verbatims left.spelling.verbatims := h (.expr left) (.inl rfl)
    have hright : Printed right.verbatims right.spelling.verbatims := h (.expr right) (.inr (.inl rfl))
    change Printed (left.verbatims ++ right.verbatims) (Spelling.verbatims
      (left.spelling ++ .gap :: op.spelling ++ .gap :: right.spelling))
    simpa using hleft.append hright
  | unary op operand =>
    have hoperand : Printed operand.verbatims operand.spelling.verbatims :=
      h (.expr operand) List.mem_cons_self
    change Printed operand.verbatims (signSpelling op operand operand.spelling).verbatims
    unfold signSpelling
    split <;> simpa using hoperand
  | paren inner =>
    have hinner : Printed inner.verbatims inner.spelling.verbatims := h (.expr inner) List.mem_cons_self
    change Printed inner.verbatims (Spelling.verbatims (enclosed inner.spelling))
    simpa using hinner
  | subquery query =>
    have hquery : Printed query.verbatims query.spelling.verbatims := h (.query query) List.mem_cons_self
    change Printed query.verbatims (Spelling.verbatims (enclosed query.spelling))
    simpa using hquery
  | existsQuery query =>
    have hquery : Printed query.verbatims query.spelling.verbatims := h (.query query) List.mem_cons_self
    change Printed query.verbatims (Spelling.verbatims (Atom.word "EXISTS" :: enclosed query.spelling))
    simpa using hquery
  | struct fields items => exact printed_struct h
  | cast safe operand type =>
    have hoperand : Printed operand.verbatims operand.spelling.verbatims :=
      h (.expr operand) List.mem_cons_self
    change Printed (operand.verbatims ++ type.verbatims) (Spelling.verbatims
      (callSpelling [Atom.word (if safe then "SAFE_CAST" else "CAST")]
        [operand.spelling ++ [.gap, Atom.word "AS", .gap] ++ type.spelling]))
    simpa using hoperand.append (.refl type.verbatims)
  | extract part operand zone => exact printed_extract h
  | case operand branches otherwise => exact printed_case h
  | interval count unit =>
    have hcount : Printed count.verbatims count.spelling.verbatims := h (.expr count) List.mem_cons_self
    change Printed (count.verbatims ++ unit.verbatims) (Spelling.verbatims
      ([Atom.word "INTERVAL", .gap] ++ count.spelling ++ .gap :: unit.spelling))
    simpa using hcount.append (.refl unit.verbatims)
  | member operand negated target =>
    simp only [Node.ofExpr, List.mem_cons] at h
    have hoperand : Printed operand.verbatims operand.spelling.verbatims := h (.expr operand) (.inl rfl)
    have htarget := printed_target fun child hchild => h child (.inr hchild)
    change Printed (operand.verbatims ++ target.verbatims) (Spelling.verbatims
      (operand.spelling ++ .gap :: words (if negated then ["NOT", "IN"] else ["IN"])
        ++ .gap :: target.spelling))
    simpa using hoperand.append htarget
  | between operand negated low high =>
    simp only [Node.ofExpr, List.mem_cons] at h
    have hoperand : Printed operand.verbatims operand.spelling.verbatims := h (.expr operand) (.inl rfl)
    have hlow : Printed low.verbatims low.spelling.verbatims := h (.expr low) (.inr (.inl rfl))
    have hhigh : Printed high.verbatims high.spelling.verbatims :=
      h (.expr high) (.inr (.inr (.inl rfl)))
    change Printed (operand.verbatims ++ low.verbatims ++ high.verbatims) (Spelling.verbatims
      (operand.spelling ++ .gap :: words (if negated then ["NOT", "BETWEEN"] else ["BETWEEN"])
        ++ .gap :: low.spelling ++ [.gap, Atom.word "AND", .gap] ++ high.spelling))
    simpa using hoperand.append (hlow.append hhigh)
  | isValue operand negated value =>
    have hoperand : Printed operand.verbatims operand.spelling.verbatims :=
      h (.expr operand) List.mem_cons_self
    change Printed operand.verbatims (Spelling.verbatims
      (operand.spelling ++ .gap :: words (if negated then ["IS", "NOT"] else ["IS"])
        ++ .gap :: [Atom.word value.text]))
    simpa using hoperand
  | index base kind position =>
    simp only [Node.ofExpr, List.mem_cons] at h
    have hbase : Printed base.verbatims base.spelling.verbatims := h (.expr base) (.inl rfl)
    have hposition : Printed position.verbatims position.spelling.verbatims :=
      h (.expr position) (.inr (.inl rfl))
    change Printed (base.verbatims ++ position.verbatims) (Spelling.verbatims
      (base.spelling ++ subscriptSpelling kind position.spelling))
    simpa using hbase.append hposition
  | field base name =>
    have hbase : Printed base.verbatims base.spelling.verbatims := h (.expr base) List.mem_cons_self
    exact printed_field hlocal.2 hbase

end Expressions

section Queries

theorem printed_commonTable {table : CommonTable}
    (h : Printed table.query.verbatims table.query.spelling.verbatims) :
    (Node.commonTable table).PrintsTexts := by
  obtain ⟨name, query⟩ := table
  change Printed (name.verbatims ++ query.verbatims) (List.flatMap Spelling.verbatims
    [name.spelling ++ [.gap, Atom.word "AS", .gap] ++ enclosed query.spelling])
  simpa using (Printed.refl name.verbatims).append h

theorem printed_commonTables {common : Option CommonTables}
    (h : ∀ child ∈ Node.ofCommonTables common, child.PrintsTexts) :
    Printed (verbatims? CommonTables.verbatims common)
      (verbatims? (fun common => common.spelling.verbatims) common) := by
  apply Printed.optional
  rintro ⟨isRecursive, tables⟩ rfl
  change Printed (tables.flatMap CommonTable.verbatims) (Spelling.verbatims
    (clauseSpelling (if isRecursive then ["WITH", "RECURSIVE"] else ["WITH"])
      (commas (commonTableSpellings tables))))
  rw [verbatims_clause, verbatims_commas]
  induction tables with
  | nil => exact .nil
  | cons table tables ih =>
    have htable : (Node.commonTable table).PrintsTexts := h (.commonTable table) List.mem_cons_self
    have hrest := ih fun child hchild => h child (List.mem_cons_of_mem _ hchild)
    obtain ⟨name, query⟩ := table
    rw [Node.PrintsTexts, commonTableSpellings, commonTableSpellings] at htable
    rw [commonTableSpellings]
    simpa using htable.append hrest

theorem Query.printed {query : Query} (h : ∀ child ∈ (Node.query query).children, child.PrintsTexts) :
    (Node.query query).PrintsTexts := by
  obtain ⟨common, body, order⟩ := query
  simp only [Node.children, List.mem_append, List.mem_singleton] at h
  have hcommon := printed_commonTables fun child hchild => h child (.inl (.inl hchild))
  have hbody : Printed body.verbatims body.spelling.verbatims := h (.setExpr body) (.inl (.inr rfl))
  have horder : Printed (verbatims? RowOrder.verbatims order)
      (verbatims? (fun order => order.spelling.verbatims) order) := by
    apply Printed.optional
    rintro order rfl
    exact printed_rowOrder fun child hchild => h child (.inr hchild)
  change Printed (commonTablesVerbatims? common ++ body.verbatims ++ rowOrderVerbatims? order)
    (Query.spelling _).verbatims
  rw [Query.spelling_mk]
  simpa using hcommon.append (hbody.append horder)

theorem SetExpr.printed {body : SetExpr} (h : ∀ child ∈ Node.ofSetExpr body, child.PrintsTexts) :
    (Node.setExpr body).PrintsTexts := by
  cases body with
  | select select => exact h (.select select) List.mem_cons_self
  | paren query =>
    have hquery : Printed query.verbatims query.spelling.verbatims := h (.query query) List.mem_cons_self
    change Printed query.verbatims (Spelling.verbatims (enclosed query.spelling))
    simpa using hquery
  | combine op quantifier left right =>
    simp only [Node.ofSetExpr, List.mem_cons] at h
    have hleft : Printed left.verbatims left.spelling.verbatims := h (.setExpr left) (.inl rfl)
    have hright : Printed right.verbatims right.spelling.verbatims :=
      h (.setExpr right) (.inr (.inl rfl))
    change Printed (left.verbatims ++ right.verbatims) (Spelling.verbatims
      (left.spelling ++ .gap :: combineSpelling op quantifier ++ .gap :: right.spelling))
    simpa using hleft.append hright

theorem verbatims_selectItem (item : SelectItem) :
    (selectItemSpellings [item]).flatMap Spelling.verbatims =
      match item with
        | .wildcard qualifier except replace =>
          verbatims? QualifiedName.verbatims qualifier ++ except.flatMap Identifier.verbatims
            ++ (replacementSpellings replace).flatMap Spelling.verbatims
        | .expr e aliasName => e.spelling.verbatims ++ verbatims? Identifier.verbatims aliasName := by
  rw [selectItemSpellings_cons, selectItemSpellings]
  cases item with
  | wildcard qualifier except replace => cases qualifier <;> simp [starSpelling, List.flatMap_map]
  | expr e aliasName => simp

theorem SelectItem.printed {item : SelectItem}
    (h : ∀ child ∈ Node.ofSelectItem item, child.PrintsTexts) :
    (Node.selectItem item).PrintsTexts := by
  rw [Node.PrintsTexts, verbatims_selectItem]
  cases item with
  | wildcard qualifier except replace => exact (Printed.refl _).append (printed_replacements h)
  | expr e aliasName =>
    have hexpr : Printed e.verbatims e.spelling.verbatims := h (.expr e) List.mem_cons_self
    exact hexpr.append (.refl _)

theorem printed_selectItems {items : List SelectItem}
    (h : ∀ child ∈ items.map Node.selectItem, child.PrintsTexts) :
    Printed (items.flatMap SelectItem.verbatims)
      ((selectItemSpellings items).flatMap Spelling.verbatims) := by
  induction items with
  | nil => exact .nil
  | cons item items ih =>
    have hitem : (Node.selectItem item).PrintsTexts := h (.selectItem item) List.mem_cons_self
    have hrest := ih fun child hchild => h child (List.mem_cons_of_mem _ hchild)
    rw [Node.PrintsTexts, selectItemSpellings_cons, selectItemSpellings] at hitem
    rw [selectItemSpellings_cons]
    simpa using hitem.append hrest

theorem Select.printed {select : Select} (h : ∀ child ∈ Node.ofSelect select, child.PrintsTexts) :
    (Node.select select).PrintsTexts := by
  obtain ⟨distinct, shape, items, source, filter, groupBy, having, qualify⟩ := select
  simp only [Node.ofSelect, List.mem_append] at h
  have hitems := printed_selectItems fun child hchild => h child (.inl (.inl (.inl (.inl (.inl hchild)))))
  have hsource : Printed (verbatims? TableExpr.verbatims source)
      (verbatims? (fun source => source.spelling.verbatims) source) := by
    apply Printed.optional
    rintro table rfl
    exact h (.tableExpr table) (.inl (.inl (.inl (.inl (.inr (by simp))))))
  have hfilter := printed_optional fun child hchild => h child (.inl (.inl (.inl (.inr hchild))))
  have hgroup := printed_exprs fun child hchild => h child (.inr hchild)
  have hhaving := printed_optional fun child hchild => h child (.inl (.inl (.inr hchild)))
  have hqualify := printed_optional fun child hchild => h child (.inl (.inr hchild))
  change Printed (selectItemsVerbatims items ++ tableExprVerbatims? source ++ exprVerbatims? filter
    ++ exprsVerbatims groupBy ++ exprVerbatims? having ++ exprVerbatims? qualify)
    (Select.spelling _).verbatims
  rw [Select.spelling_mk]
  simpa using hitems.append (hsource.append (hfilter.append (hgroup.append (hhaving.append hqualify))))

theorem TableExpr.printed {table : TableExpr} (hlocal : table.IsLocallySound)
    (h : ∀ child ∈ Node.ofTableExpr table, child.PrintsTexts) : (Node.tableExpr table).PrintsTexts := by
  cases table with
  | table name aliasName =>
    change Printed (name.verbatims ++ verbatims? Identifier.verbatims aliasName)
      (Spelling.verbatims (name.spelling ++ aliasSpelling aliasName))
    rw [Spelling.verbatims_append, QualifiedName.verbatims_spelling, Spelling.verbatims_alias]
  | subquery query aliasName =>
    have hquery : Printed query.verbatims query.spelling.verbatims := h (.query query) List.mem_cons_self
    change Printed (query.verbatims ++ verbatims? Identifier.verbatims aliasName)
      (Spelling.verbatims (enclosed query.spelling ++ aliasSpelling aliasName))
    simpa using hquery.append (.refl (verbatims? Identifier.verbatims aliasName))
  | unnest array aliasName offset =>
    have harray : Printed array.verbatims array.spelling.verbatims := h (.expr array) List.mem_cons_self
    have happended := (harray.append (.refl (verbatims? Identifier.verbatims aliasName))).append
      (.refl (verbatims? (verbatims? Identifier.verbatims) offset))
    cases offset with
    | none =>
      change Printed (array.verbatims ++ verbatims? Identifier.verbatims aliasName ++ [])
        (Spelling.verbatims (callSpelling [Atom.word "UNNEST"] [array.spelling] ++ aliasSpelling aliasName
          ++ []))
      simpa using happended
    | some offset =>
      change Printed (array.verbatims ++ verbatims? Identifier.verbatims aliasName
        ++ verbatims? Identifier.verbatims offset)
        (Spelling.verbatims (callSpelling [Atom.word "UNNEST"] [array.spelling] ++ aliasSpelling aliasName
          ++ (.gap :: words ["WITH", "OFFSET"] ++ aliasSpelling offset)))
      simpa using happended
  | join left kind right condition =>
    simp only [Node.ofTableExpr, List.mem_append, List.mem_cons] at h
    have hleft : Printed left.verbatims left.spelling.verbatims := h (.tableExpr left) (.inl (.inl rfl))
    have hright : Printed right.verbatims right.spelling.verbatims :=
      h (.tableExpr right) (.inl (.inr (.inl rfl)))
    have hcomma (hsome : condition.isSome) : kind ≠ .comma := by
      rintro rfl
      cases hlocal.2.1 hsome
    rcases condition with _ | test | columns
    · change Printed (left.verbatims ++ right.verbatims ++ [])
        (joinSpelling left.spelling kind right.spelling []).verbatims
      rw [verbatims_join _ _ _ fun _ => rfl]
      exact (hleft.append hright).append .nil
    · have htest : Printed test.verbatims test.spelling.verbatims :=
        h (.expr test) (.inr List.mem_cons_self)
      change Printed (left.verbatims ++ right.verbatims ++ test.verbatims)
        (joinSpelling left.spelling kind right.spelling
          ([.gap, Atom.word "ON", .gap] ++ test.spelling)).verbatims
      rw [verbatims_join _ _ _ fun h => absurd h (hcomma rfl)]
      simpa using hleft.append (hright.append htest)
    · change Printed (left.verbatims ++ right.verbatims ++ columns.flatMap Identifier.verbatims)
        (joinSpelling left.spelling kind right.spelling
          (.gap :: Atom.word "USING" :: .gap
            :: callSpelling [] (columns.map Identifier.spelling))).verbatims
      rw [verbatims_join _ _ _ fun h => absurd h (hcomma rfl)]
      simpa [List.flatMap_map] using
        hleft.append (hright.append (.refl (columns.flatMap Identifier.verbatims)))

end Queries

section Statements

@[simp] theorem OptionItem.verbatims_spelling (item : OptionItem) :
    item.spelling.verbatims = item.name.verbatims ++ item.value.spelling.verbatims := by
  simp [OptionItem.spelling]

@[simp] theorem verbatims_object (head : List String) (ifNotExists : Bool) (name : QualifiedName) :
    (objectSpelling head ifNotExists name).verbatims = name.verbatims := by
  simp [objectSpelling]

theorem printed_options {options : List OptionItem}
    (h : ∀ child ∈ Node.optionValues options, child.PrintsTexts) :
    Printed (options.flatMap OptionItem.verbatims)
      ((optionSpellings options).flatMap Spelling.verbatims) := by
  have hoptions : (optionSpellings options).flatMap Spelling.verbatims =
      options.flatMap fun item => item.name.verbatims ++ item.value.spelling.verbatims := by
    cases options <;> simp [optionSpellings, List.flatMap_map]
  rw [hoptions]
  apply Printed.flatMap
  intro item hmem
  have hvalue : Printed item.value.verbatims item.value.spelling.verbatims :=
    h (.expr item.value) (List.mem_map_of_mem (f := fun item => Node.expr (OptionItem.value item)) hmem)
  exact (Printed.refl _).append hvalue

theorem printed_body {body : FunctionBody} (h : ∀ child ∈ Node.ofBody body, child.PrintsTexts) :
    Printed body.verbatims (body.spellings.flatMap Spelling.verbatims) := by
  cases body with
  | sql value =>
    have hvalue : Printed value.verbatims value.spelling.verbatims := h (.expr value) List.mem_cons_self
    simpa [FunctionBody.spellings, FunctionBody.verbatims] using hvalue
  | «foreign» language code options =>
    simpa [FunctionBody.spellings, FunctionBody.verbatims] using
      (Printed.refl language.verbatims).append ((Printed.refl code.verbatims).append (printed_options h))

theorem FunctionDef.printed {function : FunctionDef}
    (h : ∀ child ∈ Node.ofBody function.body, child.PrintsTexts) :
    Printed function.verbatims function.spelling.verbatims := by
  have hhead := Printed.refl (function.name.verbatims ++ function.params.flatMap Declaration.verbatims
    ++ verbatims? SqlType.verbatims function.returns)
  simpa [FunctionDef.spelling, FunctionDef.verbatims, List.flatMap_map] using
    hhead.append (printed_body h)

theorem TableDef.printed {table : TableDef}
    (h : ∀ child ∈ Node.ofAction (.createTable table), child.PrintsTexts) :
    Printed table.verbatims table.spelling.verbatims := by
  simp only [Node.ofAction, List.mem_append] at h
  have hoptions := printed_options fun child hchild => h child (.inl hchild)
  have hquery : Printed (verbatims? Query.verbatims table.query)
      (verbatims? (fun query => query.spelling.verbatims) table.query) := by
    apply Printed.optional
    intro query hsome
    exact h (.query query) (.inr (by simp_all))
  have hhead : Spelling.verbatims (if table.columns.isEmpty then
        objectSpelling (createWords table.orReplace table.temporary "TABLE") table.ifNotExists table.name
      else callSpelling (objectSpelling (createWords table.orReplace table.temporary "TABLE")
        table.ifNotExists table.name ++ [Atom.gap]) (table.columns.map Declaration.spelling)) =
      table.name.verbatims ++ table.columns.flatMap Declaration.verbatims := by
    cases table.columns <;> simp [List.flatMap_map]
  have hnamed := Printed.refl (table.name.verbatims ++ table.columns.flatMap Declaration.verbatims)
  rw [TableDef.spelling, verbatims_spaced, List.flatMap_append, List.flatMap_cons, hhead]
  simpa [TableDef.verbatims] using hnamed.append (hoptions.append hquery)

theorem ViewDef.printed {view : ViewDef}
    (h : ∀ child ∈ Node.ofAction (.createView view), child.PrintsTexts) :
    Printed view.verbatims view.spelling.verbatims := by
  simp only [Node.ofAction, List.mem_append, List.mem_singleton] at h
  have hoptions := printed_options fun child hchild => h child (.inl hchild)
  have hquery : Printed view.query.verbatims view.query.spelling.verbatims :=
    h (.query view.query) (.inr rfl)
  simpa [ViewDef.spelling, ViewDef.verbatims] using
    (Printed.refl view.name.verbatims).append (hoptions.append hquery)

theorem printed_source {source : InsertSource}
    (h : ∀ child ∈ Node.ofInsertSource source, child.PrintsTexts) :
    Printed source.verbatims source.spelling.verbatims := by
  cases source with
  | query body => exact h (.query body) List.mem_cons_self
  | values rows =>
    have hrows : Printed (rows.flatMap (List.flatMap Expr.verbatims))
        (rows.flatMap fun row => (exprSpellings row).flatMap Spelling.verbatims) := by
      apply Printed.flatMap
      intro row hrow
      exact printed_exprs fun child hchild => h child (List.mem_flatMap.mpr ⟨row, hrow, hchild⟩)
    simpa [InsertSource.spelling, InsertSource.verbatims, rowSpelling, List.flatMap_map] using hrows

theorem Insertion.printed {insertion : Insertion}
    (h : ∀ child ∈ Node.ofInsertSource insertion.source, child.PrintsTexts) :
    Printed insertion.verbatims insertion.spelling.verbatims := by
  have hcolumns : (columnSpelling insertion.columns).verbatims =
      insertion.columns.flatMap Identifier.verbatims := by
    unfold columnSpelling
    cases insertion.columns <;> simp [List.flatMap_map]
  have hhead := Printed.refl (insertion.table.verbatims ++ insertion.columns.flatMap Identifier.verbatims)
  simpa [Insertion.spelling, Insertion.verbatims, hcolumns] using hhead.append (printed_source h)

theorem Action.printed {action : Action} (h : ∀ child ∈ Node.ofAction action, child.PrintsTexts) :
    Printed action.verbatims action.spelling.verbatims := by
  cases action with
  | query body => exact h (.query body) List.mem_cons_self
  | createFunction definition => exact h (.function definition) List.mem_cons_self
  | createTable definition => exact definition.printed h
  | createView definition => exact definition.printed h
  | insert insertion => exact insertion.printed h

end Statements

section Scripts

theorem verbatims_commentRows (comments : List String) :
    (commentRows comments).flatMap Spelling.verbatims = [] := by
  simp only [commentRows, List.flatMap_map, List.flatMap_eq_nil_iff]
  intro comment _
  unfold commentGlyph
  split <;> rfl

theorem Statement.verbatims_rows (statement : Statement) (isTerminated : Bool) :
    (statement.rows isTerminated).flatMap Spelling.verbatims = statement.action.spelling.verbatims := by
  rw [rows, List.flatMap_append, verbatims_commentRows]
  cases isTerminated <;> simp

theorem verbatims_statementRows (lastIsTerminated : Bool) (statements : List Statement) :
    (statementRows [] lastIsTerminated statements).flatMap Spelling.verbatims =
      statements.flatMap fun statement => statement.action.spelling.verbatims := by
  induction statements with
  | nil => rfl
  | cons statement statements ih =>
    cases statements with
    | nil => simp [statementRows, Statement.verbatims_rows]
    | cons next statements =>
      rw [statementRows, List.append_nil, List.flatMap_append, Statement.verbatims_rows, ih]
      rfl

theorem Script.printed {script : Script}
    (h : ∀ statement ∈ script.statements, (Node.statement statement).PrintsTexts) :
    Printed script.verbatims script.spelling.verbatims := by
  have hspelling : script.spelling.verbatims =
      script.statements.flatMap fun statement => statement.action.spelling.verbatims := by
    rw [spelling, lines, Spelling.verbatims_intercalate rfl, rows]
    simp [verbatims_statementRows, verbatims_commentRows]
  rw [hspelling]
  exact .flatMap h

end Scripts

/-- Every node of a sound tree prints its texts. -/
theorem Node.printsTexts (node : Node) : node.IsSound → node.PrintsTexts := by
  induction node using Node.induct with
  | h node ih =>
    intro hsound
    have hlocal := hsound.here
    have h : ∀ child ∈ node.children, child.PrintsTexts := fun child hchild =>
      ih child hchild (hsound.child hchild)
    cases node with
    | script body => exact Script.printed fun statement hmem => h _ (List.mem_map_of_mem hmem)
    | statement body => exact body.action.printed h
    | function definition => exact definition.printed h
    | query body => exact body.printed h
    | commonTable table => exact printed_commonTable (h (.query table.query) List.mem_cons_self)
    | setExpr body => exact body.printed h
    | select body => exact body.printed h
    | selectItem item => exact item.printed h
    | tableExpr table => exact table.printed hlocal h
    | expr body => exact body.printed hlocal.1 h

end SqlLayout
