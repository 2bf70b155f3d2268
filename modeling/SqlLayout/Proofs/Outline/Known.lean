import SqlLayout.Proofs.Outline.Choice
import SqlLayout.Proofs.Outline.Word
import SqlLayout.Proofs.Syntax.Sound

/-!
# Parts Known from Their Outlines

A node is known from its outline if no other node of its kind has the same one. Where the nodes inside a
list or an order are known, the list or the order is. There is one exception: an aggregate over an array
shows its subscript like the offset of its order, so a subscript right after a limit is not told from an
offset.
-/

namespace SqlLayout

open Outline

/-- Whether the subscript of an aggregate over an array is shown like an offset after its limit. -/
def Expr.hidesSubscript : Expr → Bool
  | .arrayAgg _ _ _ (some order) none (some _) => order.limit.isSome && order.offset.isNone
  | _ => false

def Node.hidesSubscript : Node → Bool
  | expr body => body.hidesSubscript
  | _ => false

/-- Whether some subscript of a script is shown like an offset. -/
def Script.hidesSubscript (script : Script) : Bool :=
  script.nodes.any Node.hidesSubscript

namespace Node

/-- A sound node in which every subscript is told from an offset. -/
structure IsClear (node : Node) : Prop where
  sound : node.IsSound
  subscripts : ∀ inner ∈ node.all, inner.hidesSubscript = false

theorem IsClear.child {node child : Node} (h : node.IsClear) (hchild : child ∈ node.children) :
    child.IsClear where
  sound := h.sound.child hchild
  subscripts inner hinner := h.subscripts inner (mem_all_iff.mpr (.inr ⟨child, hchild, hinner⟩))

theorem IsClear.hidesSubscript {body : Expr} (h : (expr body).IsClear) : body.hidesSubscript = false :=
  h.subscripts (expr body) (mem_all_iff.mpr (.inl rfl))

/-- No other node of the same kind has the same outline. -/
def IsKnown : Node → Prop
  | script body => ∀ other, (script other).IsClear → body.outline = other.outline → body = other
  | statement body =>
    ∀ other, (statement other).IsClear → body.outline true = other.outline true → body = other
  | function body =>
    ∀ other, (function other).IsClear → (function body).outline = (function other).outline → body = other
  | query body => ∀ other, (query other).IsClear → body.outline = other.outline → body = other
  | commonTable body => ∀ other, (commonTable other).IsClear → body.outline = other.outline → body = other
  | setExpr body => ∀ other, (setExpr other).IsClear → body.outline = other.outline → body = other
  | select body => ∀ other, (select other).IsClear → body.outline = other.outline → body = other
  | selectItem body => ∀ other, (selectItem other).IsClear → body.outline = other.outline → body = other
  | tableExpr body => ∀ other, (tableExpr other).IsClear → body.outline = other.outline → body = other
  | expr body => ∀ other, (expr other).IsClear → body.outline = other.outline → body = other

end Node

section Lists

theorem Outline.above_inj {label label' : String} {child child' : Outline}
    (h : above label child = above label' child') : label = label' ∧ child = child' := by
  obtain ⟨hlabel, hchildren⟩ := node.inj h
  exact ⟨hlabel, (List.cons.inj hchildren).1⟩

/-- Items are known from their outlines if each of them is. -/
theorem eq_of_outlines {α : Type} {outline : α → Outline} {items others : List α}
    (h : ∀ item ∈ items, ∀ other ∈ others, outline item = outline other → item = other)
    (heq : items.map outline = others.map outline) : items = others := by
  induction items generalizing others with
  | nil => exact (List.map_eq_nil_iff.mp heq.symm).symm
  | cons item items ih =>
    cases others with
    | nil => cases heq
    | cons other others =>
      obtain ⟨hitem, hitems⟩ := List.cons.inj heq
      obtain rfl := h item List.mem_cons_self other List.mem_cons_self hitem
      have hrest : items = others := by
        refine ih (fun inner hinner next hnext => ?_) hitems
        exact h inner (List.mem_cons_of_mem _ hinner) next (List.mem_cons_of_mem _ hnext)
      rw [hrest]

theorem eq_of_option {α : Type} {outline : α → Outline} {o other : Option α}
    (h : ∀ item ∈ o, ∀ next ∈ other, outline item = outline next → item = next)
    (heq : o.toList.map outline = other.toList.map outline) : o = other := by
  have hlists : o.toList = other.toList := by
    refine eq_of_outlines (fun item hitem next hnext => ?_) heq
    exact h item (Option.mem_toList.mp hitem) next (Option.mem_toList.mp hnext)
  cases o <;> cases other <;> simp_all

theorem eq_of_leaf {α : Type} {head : String} {write : α → String} {o other : Option α}
    (h : ∀ item ∈ o, ∀ next ∈ other, write item = write next → item = next)
    (heq : (o.map fun item => leaf (head ++ write item)).toList =
      (other.map fun item => leaf (head ++ write item)).toList) : o = other := by
  rw [Option.toList_map, Option.toList_map] at heq
  refine eq_of_option (fun item hitem next hnext hsame => ?_) heq
  have htext : write item = write next := by simpa using (node.inj hsame).1
  exact h item hitem next hnext htext

/-- Items are known from their outlines if the node in each of them is. -/
theorem eq_of_nodes {α : Type} {wrap : α → Node} {outline : α → Outline}
    (hwrap : ∀ item other, (wrap item).IsKnown → (wrap other).IsClear → outline item = outline other →
      item = other) {items others : List α} (h : ∀ node ∈ items.map wrap, node.IsKnown)
    (hclear : ∀ node ∈ others.map wrap, node.IsClear) (heq : items.map outline = others.map outline) :
    items = others := by
  refine eq_of_outlines (fun item hitem other hother hsame => ?_) heq
  exact hwrap item other (h _ (List.mem_map_of_mem hitem)) (hclear _ (List.mem_map_of_mem hother)) hsame

theorem eq_of_exprs {items others : List Expr} (h : ∀ node ∈ Node.exprs items, node.IsKnown)
    (hclear : ∀ node ∈ Node.exprs others, node.IsClear)
    (heq : items.map Expr.outline = others.map Expr.outline) : items = others :=
  @eq_of_nodes _ Node.expr Expr.outline (fun _ other hknown hclear => hknown other hclear) items others h
    hclear heq

theorem eq_of_part {label : String} {o other : Option Expr} (h : ∀ node ∈ Node.exprs o.toList, node.IsKnown)
    (hclear : ∀ node ∈ Node.exprs other.toList, node.IsClear) (heq : part label o = part label other) :
    o = other := by
  have hlists : o.toList = other.toList :=
    @eq_of_nodes _ Node.expr (fun item : Expr => above label item.outline)
      (fun _ next hknown hclear hsame => hknown next hclear (above_inj hsame).2) _ _ h hclear heq
  cases o <;> cases other <;> simp_all

theorem eq_of_sortKeys {keys others : List SortKey} (h : ∀ node ∈ Node.sortKeys keys, node.IsKnown)
    (hclear : ∀ node ∈ Node.sortKeys others, node.IsClear)
    (heq : keys.map SortKey.outline = others.map SortKey.outline) : keys = others := by
  refine @eq_of_nodes _ (fun key : SortKey => .expr key.expr) SortKey.outline
    (fun key other hknown hclear hsame => ?_) keys others h hclear heq
  obtain ⟨hlabel, hexpr⟩ := above_inj hsame
  have hexprs := hknown other.expr hclear hexpr
  obtain ⟨hdirection, hnulls⟩ := eq_of_sortFlags (flagTail_of_flagged hlabel)
  cases key
  cases other
  simp_all

end Lists

section Orders

/-- The keys of an order, if there is one. -/
def orderKeys (order : Option RowOrder) : List SortKey :=
  (order.map RowOrder.keys).getD []

theorem Node.ofRowOrder_eq (order : Option RowOrder) :
    ofRowOrder order = sortKeys (orderKeys order) ++ exprs (order.bind RowOrder.limit).toList ++
      exprs (order.bind RowOrder.offset).toList := by
  cases order <;> rfl

theorem orderOutlines_eq (order : Option RowOrder) :
    orderOutlines order = group "OrderBy" ((orderKeys order).map SortKey.outline) ++
      (part "Limit" (order.bind RowOrder.limit) ++ part "Offset" (order.bind RowOrder.offset)) := by
  cases order with
  | none => rfl
  | some order => exact order.outlines_eq

/-- An order says something, so it is known from what it says. -/
theorem RowOrder.eq_of_parts {order other : Option RowOrder} (h : ∀ inner ∈ order, inner.IsSound)
    (hother : ∀ inner ∈ other, inner.IsSound) (hkeys : orderKeys order = orderKeys other)
    (hlimit : order.bind RowOrder.limit = other.bind RowOrder.limit)
    (hoffset : order.bind RowOrder.offset = other.bind RowOrder.offset) : order = other := by
  have hnone {order : RowOrder} (hsound : order.IsSound) (hkeys : order.keys = [])
      (hlimit : order.limit = none) : False := by
    have hnonempty := hsound.nonempty
    rw [hkeys, hlimit] at hnonempty
    simp at hnonempty
  cases order with
  | none =>
    cases other with
    | none => rfl
    | some other => exact (hnone (hother other rfl) hkeys.symm hlimit.symm).elim
  | some order =>
    cases other with
    | none => exact (hnone (h order rfl) hkeys hlimit).elim
    | some other =>
      cases order
      cases other
      cases hkeys
      cases hlimit
      cases hoffset
      rfl

theorem haveWords_order (order : Option RowOrder) :
    HaveWords ["OrderBy", "Limit", "Offset"] (orderOutlines order) := by
  rw [orderOutlines_eq]
  exact (haveWords_group (by decide)).append
    ((haveWords_part (by decide) _).append (haveWords_part (by decide) _))

variable {order other : Option RowOrder}

theorem eq_of_order (h : ∀ inner ∈ order, inner.IsSound) (hother : ∀ inner ∈ other, inner.IsSound)
    (hknown : ∀ node ∈ Node.ofRowOrder order, node.IsKnown)
    (hclear : ∀ node ∈ Node.ofRowOrder other, node.IsClear)
    (heq : orderOutlines order = orderOutlines other) : order = other := by
  simp only [Node.ofRowOrder_eq, List.forall_mem_append] at hknown hclear
  rw [orderOutlines_eq, orderOutlines_eq] at heq
  have hrest (order : Option RowOrder) : HaveWords ["Limit", "Offset"]
      (part "Limit" (order.bind RowOrder.limit) ++ part "Offset" (order.bind RowOrder.offset)) :=
    (haveWords_part (by decide) _).append (haveWords_part (by decide) _)
  obtain ⟨hkeys, htail⟩ := append_inj_of_words (by decide) (haveWords_group (by decide))
    (haveWords_group (by decide)) (hrest order) (hrest other) heq
  obtain ⟨hlimit, hoffset⟩ := append_inj_of_words (by decide) (haveWords_part (by decide) _)
    (haveWords_part (by decide) _) (haveWords_part (by decide) _) (haveWords_part (by decide) _) htail
  exact RowOrder.eq_of_parts h hother (eq_of_sortKeys hknown.1.1 hclear.1.1 (group_inj hkeys))
    (eq_of_part hknown.1.2 hclear.1.2 hlimit) (eq_of_part hknown.2 hclear.2 hoffset)

end Orders

section Windows

theorem Window.eq_of_outline {window other : Window} (h : window.IsSound) (hother : other.IsSound)
    (hknown : ∀ node ∈ Node.ofWindow (some window), node.IsKnown)
    (hclear : ∀ node ∈ Node.ofWindow (some other), node.IsClear)
    (heq : window.outline = other.outline) : window = other := by
  simp only [Node.ofWindow, List.forall_mem_append] at hknown hclear
  rw [Window.outline_eq, Window.outline_eq, node.injEq] at heq
  have hframes (frame : Option Frame) :
      HaveWords ["Frame"] (frame.map fun frame => leaf ("Frame " ++ frame.text)).toList :=
    haveWords_leaf "Frame" (by decide) (by decide) Frame.text frame
  have hrest (window : Window) : HaveWords ["OrderBy", "Frame"]
      (group "OrderBy" (window.order.map SortKey.outline) ++
        (window.frame.map fun frame => leaf ("Frame " ++ frame.text)).toList) :=
    (haveWords_group (by decide)).append (hframes window.frame)
  obtain ⟨hpartition, htail⟩ := append_inj_of_words (by decide) (haveWords_group (by decide))
    (haveWords_group (by decide)) (hrest window) (hrest other) heq.2
  obtain ⟨horder, hframe⟩ := append_inj_of_words (by decide) (haveWords_group (by decide))
    (haveWords_group (by decide)) (hframes window.frame) (hframes other.frame) htail
  have hpartitions := eq_of_exprs hknown.1 hclear.1 (group_inj hpartition)
  have horders := eq_of_sortKeys hknown.2 hclear.2 (group_inj horder)
  have hframesEq : window.frame = other.frame :=
    eq_of_leaf (fun frame hmem next hnext => Frame.eq_of_text (h.frame frame hmem) (hother.frame next hnext))
      hframe
  cases window
  cases other
  simp_all

theorem eq_of_window {window other : Option Window} (h : ∀ inner ∈ window, inner.IsSound)
    (hother : ∀ inner ∈ other, inner.IsSound) (hknown : ∀ node ∈ Node.ofWindow window, node.IsKnown)
    (hclear : ∀ node ∈ Node.ofWindow other, node.IsClear)
    (heq : windowOutlines window = windowOutlines other) : window = other := by
  refine eq_of_option (fun inner hinner next hnext hsame => ?_) heq
  rw [Option.mem_def] at hinner hnext
  subst hinner hnext
  exact Window.eq_of_outline (h inner rfl) (hother next rfl) hknown hclear hsame

theorem haveWords_window (window : Option Window) : HaveWords ["Analytic"] (windowOutlines window) := by
  refine haveWords_map fun inner _ => ?_
  rw [Window.outline_eq]
  exact firstWord_mem "Analytic" (by decide) []

end Windows

end SqlLayout
