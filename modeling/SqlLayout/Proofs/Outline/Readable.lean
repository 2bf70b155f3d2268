import SqlLayout.Proofs.Outline.Choice
import SqlLayout.Proofs.Outline.Render
import SqlLayout.Proofs.Outline.Shape

/-!
# The Outline of a Sound Tree Is Readable

Every label is a phrase: words, then a name, a constant or a type, then flags. Only the columns of a join
may be missing after their word.
-/

namespace SqlLayout

open Spelling

namespace Outline

variable {label : String} {outlines others : List Outline}

/-- All of some outlines are readable. -/
def AllReadable (outlines : List Outline) : Prop :=
  ∀ outline ∈ outlines, outline.IsReadable

@[simp]
theorem allReadable_nil : AllReadable [] := by
  simp [AllReadable]

@[simp]
theorem allReadable_cons {outline : Outline} :
    AllReadable (outline :: outlines) ↔ outline.IsReadable ∧ AllReadable outlines :=
  List.forall_mem_cons

@[simp]
theorem allReadable_append : AllReadable (outlines ++ others) ↔ AllReadable outlines ∧ AllReadable others :=
  List.forall_mem_append

theorem isReadable_node (hlabel : IsPhraseText label) (h : AllReadable outlines) :
    (node label outlines).IsReadable :=
  .node hlabel.isLabelText h

theorem isReadable_leaf (h : IsPhraseText label) : (leaf label).IsReadable :=
  isReadable_node h allReadable_nil

theorem isReadable_above {child : Outline} (hlabel : IsPhraseText label) (h : child.IsReadable) :
    (above label child).IsReadable :=
  isReadable_node hlabel (by simpa using h)

theorem allReadable_group (hlabel : IsPhraseText label) (h : AllReadable outlines) :
    AllReadable (group label outlines) := by
  unfold group
  split
  · exact allReadable_nil
  · simpa using isReadable_node hlabel h

end Outline

open Outline

section Labels

variable {label text : String}

theorem IsFlag.isPhraseText (h : IsFlag text) : IsPhraseText text := by
  obtain ⟨spelling, hwrites, -⟩ := h
  exact ⟨spelling, hwrites⟩

theorem isPhraseText_dotted {name : QualifiedName} (h : ∀ segment ∈ name.segments, segment.IsSegment) :
    IsPhraseText name.dotted :=
  ⟨_, QualifiedName.writes h⟩

theorem isPhraseText_type {type : SqlType} (h : type.IsSound) : IsPhraseText type.text :=
  ⟨_, SqlType.writes h⟩

/-- A label with one more part that may be missing. -/
theorem IsPhraseText.optional {α : Type} {write : α → String} {o : Option α} (h : IsPhraseText label)
    (ho : ∀ a ∈ o, IsPhraseText (write a)) : IsPhraseText (flagged label [o.map write]) := by
  apply h.withFlags
  rw [List.forall_mem_singleton]
  cases o with
  | none => simp
  | some a => simpa using ho a rfl

theorem IsPhraseText.aliased (h : IsPhraseText label) {aliasName : Option Identifier}
    (hname : ∀ name ∈ aliasName, name.IsSound) : IsPhraseText (withAlias label aliasName) := by
  apply h.optional
  exact fun name hmem => (isPhraseText_name (hname name hmem).isSegment).after "AS" (by decide) (by decide)

/-- Flags that are words. -/
theorem IsPhraseText.flagWords (h : IsPhraseText label) {flags : List (Option String)}
    (hflags : ∀ item ∈ flags, ∀ text ∈ item, IsFlag text) : IsPhraseText (flagged label flags) :=
  h.withFlags fun item hmem text htext => (hflags item hmem text htext).isPhraseText

theorem BinaryOp.writes (op : BinaryOp) : op.spelling.Writes op.text where
  phrase := op.isPhrase
  inline := by cases op <;> rfl
  toList_eq := op.toList_text

theorem UnaryOp.writes (op : UnaryOp) : op.spelling.Writes op.text where
  phrase := op.isPhrase
  inline := by cases op <;> rfl
  toList_eq := op.toList_text

theorem JoinKind.writes (kind : JoinKind) : kind.spelling.Writes kind.text where
  phrase := kind.isPhrase
  inline := by cases kind <;> rfl
  toList_eq := kind.toList_text

end Labels

section Parts

/-- Some nodes are readable. -/
def AreReadable (nodes : List Node) : Prop :=
  ∀ node ∈ nodes, node.outline.IsReadable

variable {nodes others : List Node}

@[simp]
theorem areReadable_append : AreReadable (nodes ++ others) ↔ AreReadable nodes ∧ AreReadable others :=
  List.forall_mem_append

@[simp]
theorem areReadable_cons {node : Node} :
    AreReadable (node :: nodes) ↔ node.outline.IsReadable ∧ AreReadable nodes :=
  List.forall_mem_cons

@[simp]
theorem areReadable_nil : AreReadable [] := by
  simp [AreReadable]

theorem allReadable_map {α : Type} {items : List α} {node : α → Node} {outline : α → Outline}
    (houtline : ∀ item ∈ items, (node item).outline.IsReadable → (outline item).IsReadable)
    (h : AreReadable (items.map node)) : AllReadable (items.map outline) := by
  intro shown hshown
  obtain ⟨item, hitem, rfl⟩ := List.mem_map.mp hshown
  exact houtline item hitem (h (node item) (List.mem_map_of_mem hitem))

/-- A text that may be missing, with a word before it. -/
theorem allReadable_leaf {α : Type} (word : String) {head : String} (hhead : head = word ++ " ")
    (hword : isKeyword word = true) {write : α → String} {o : Option α}
    (h : ∀ item ∈ o, IsPhraseText (write item)) :
    AllReadable (o.map fun item => leaf (head ++ write item)).toList := by
  cases o with
  | none => exact allReadable_nil
  | some item => simpa using isReadable_leaf ((h item rfl).after word hhead hword)

theorem allReadable_exprs {items : List Expr} (h : AreReadable (Node.exprs items)) :
    AllReadable (items.map Expr.outline) :=
  @allReadable_map _ _ Node.expr Expr.outline (fun _ _ hitem => hitem) h

theorem allReadable_sortKeys {keys : List SortKey} (h : AreReadable (Node.sortKeys keys)) :
    AllReadable (keys.map SortKey.outline) := by
  refine @allReadable_map _ _ (fun key : SortKey => Node.expr key.expr) SortKey.outline
    (fun key _ hkey => ?_) h
  apply isReadable_above _ hkey
  rcases key.direction with _ | _ | _ <;> rcases key.nulls with _ | _ | _ <;>
    exact isPhraseText_words (by decide)

theorem allReadable_part {label : String} (hlabel : isWords label = true) {o : Option Expr}
    (h : AreReadable (Node.exprs o.toList)) : AllReadable (part label o) :=
  @allReadable_map _ _ Node.expr (fun expr => above label expr.outline)
    (fun _ _ hexpr => isReadable_above (isPhraseText_words hlabel) hexpr) h

theorem allReadable_order {order : Option RowOrder} (h : AreReadable (Node.ofRowOrder order)) :
    AllReadable (orderOutlines order) := by
  cases order with
  | none => exact allReadable_nil
  | some order =>
    simp only [Node.ofRowOrder, areReadable_append] at h
    rw [orderOutlines, RowOrder.outlines_eq, allReadable_append, allReadable_append]
    exact ⟨allReadable_group (isPhraseText_words (by decide)) (allReadable_sortKeys h.1.1),
      allReadable_part (by decide) h.1.2, allReadable_part (by decide) h.2⟩

theorem Window.isReadable {window : Window} (hsound : window.IsSound)
    (h : AreReadable (Node.ofWindow (some window))) : window.outline.IsReadable := by
  simp only [Node.ofWindow, areReadable_append] at h
  have hframe : AllReadable (window.frame.map fun frame => leaf ("Frame " ++ frame.text)).toList :=
    allReadable_leaf "Frame" (by decide) (by decide) fun frame hmem =>
      ⟨_, Frame.writes (hsound.frame frame hmem)⟩
  rw [Window.outline_eq]
  apply isReadable_node (isPhraseText_words (by decide))
  rw [allReadable_append, allReadable_append]
  exact ⟨allReadable_group (isPhraseText_words (by decide)) (allReadable_exprs h.1),
    allReadable_group (isPhraseText_words (by decide)) (allReadable_sortKeys h.2), hframe⟩

theorem allReadable_window {window : Option Window} (hsound : ∀ inner ∈ window, inner.IsSound)
    (h : AreReadable (Node.ofWindow window)) : AllReadable (windowOutlines window) := by
  cases window with
  | none => exact allReadable_nil
  | some window => simpa [windowOutlines] using Window.isReadable (hsound window rfl) h

theorem allReadable_structItems {items : List StructItem} (hsound : ∀ item ∈ items, item.IsSound)
    (h : AreReadable (Node.structItems items)) : AllReadable (items.map StructItem.outline) := by
  refine @allReadable_map _ _ (fun item : StructItem => Node.expr item.expr) StructItem.outline
    (fun item hmem hitem => ?_) h
  exact isReadable_above ((isPhraseText_words (by decide)).aliased (hsound item hmem).aliasName) hitem

theorem allReadable_branches {branches : List Branch} (h : AreReadable (Node.ofBranches branches)) :
    AllReadable (branches.map Branch.outline) := by
  intro shown hshown
  obtain ⟨branch, hmem, rfl⟩ := List.mem_map.mp hshown
  have hexprs : AreReadable [.expr branch.condition, .expr branch.result] := fun node hnode =>
    h node (List.mem_flatMap.mpr ⟨branch, hmem, hnode⟩)
  exact isReadable_node (isPhraseText_words (by decide)) (by simpa [Node.outline] using hexprs)

theorem allReadable_replacements {items : List Replacement} (hsound : ∀ item ∈ items, item.IsSound)
    (h : AreReadable (Node.replacements items)) : AllReadable (items.map Replacement.outline) := by
  refine @allReadable_map _ _ (fun item : Replacement => Node.expr item.expr) Replacement.outline
    (fun item hmem hitem => ?_) h
  have hname := isPhraseText_name (hsound item hmem).aliasName.isSegment
  exact isReadable_above (hname.after "Replace" (by decide) (by decide)) hitem

theorem MemberTarget.isReadable {target : MemberTarget} (h : AreReadable (Node.ofMemberTarget target)) :
    target.outline.IsReadable := by
  cases target with
  | list items =>
    rw [outline_list]
    exact isReadable_node (isPhraseText_words (by decide)) (allReadable_exprs h)
  | query body => exact h (.query body) (by simp [Node.ofMemberTarget])
  | unnest array =>
    exact isReadable_above (isPhraseText_words (by decide)) (h (.expr array) (by simp [Node.ofMemberTarget]))

end Parts

section Expressions

theorem Expr.isReadable {body : Expr} (hlocal : body.IsLocallySound) (h : AreReadable (Node.ofExpr body)) :
    body.outline.IsReadable := by
  have hwords {label : String} (hlabel : isWords label = true) : IsPhraseText label :=
    isPhraseText_words hlabel
  cases body with
  | constant value =>
    have hkind : ∀ kind : ConstantKind, isWords ("Constant " ++ kind.label) = true := by
      rintro (_ | _ | _ | _ | _) <;> decide
    obtain ⟨spelling, hhead⟩ := hwords (hkind value.kind)
    exact isReadable_leaf ⟨_, hhead.gap (Constant.writes hlocal)⟩
  | name path =>
    have hpath := isPhraseText_dotted (QualifiedName.isSegment_of_isSound hlocal)
    exact isReadable_leaf (hpath.after "Path" (by decide) (by decide))
  | star => exact isReadable_leaf (hwords (by decide))
  | call function distinct args nulls =>
    have hname := isPhraseText_dotted (QualifiedName.isSegment_of_isFunction hlocal.1)
    have hhead : IsPhraseText ("Function " ++ function.dotted) :=
      hname.after "Function" (by decide) (by decide)
    rw [Expr.outline_call]
    exact isReadable_node (hhead.flagWords (isFlag_call distinct nulls)) (allReadable_exprs h)
  | array type items =>
    have hlabel : IsPhraseText (flagged "ArrayLiteral" [type.map SqlType.text]) := by
      exact (hwords (by decide)).optional fun inner hinner => isPhraseText_type (hlocal.1 inner hinner)
    rw [Expr.outline_array]
    exact isReadable_node hlabel (allReadable_exprs h)
  | arrayQuery query => exact isReadable_above (hwords (by decide)) (h (.query query) (by simp [Node.ofExpr]))
  | arrayAgg distinct operand nulls order window offset =>
    simp only [Node.ofExpr, areReadable_append, areReadable_cons] at h
    rw [Expr.outline_arrayAgg]
    apply isReadable_node ((hwords (by decide)).flagWords (isFlag_call distinct nulls))
    simp only [allReadable_cons, allReadable_append]
    exact ⟨h.1.1.1.1, allReadable_order h.1.1.2, allReadable_window hlocal.2.2.1 h.1.2,
      allReadable_part (by decide) h.2⟩
  | stringAgg function distinct operand delimiter nulls order window accessor =>
    simp only [Node.ofExpr, areReadable_append, areReadable_cons] at h
    have hfunction : ∀ function : StringFunction, isWords ("StringAgg " ++ function.text) = true := by
      rintro (_ | _) <;> decide
    have hdelimiter : AllReadable (delimiter.map fun text => leaf ("Delimiter " ++ text.text)).toList :=
      allReadable_leaf "Delimiter" (by decide) (by decide) fun text hmem =>
        ⟨_, Constant.writes (hlocal.2.1 text hmem)⟩
    have haccessor : AllReadable (accessor.toList.map Accessor.outline) := by
      cases accessor with
      | none => exact allReadable_nil
      | some accessor =>
        have hlabel : IsPhraseText (flagged "Accessor" [accessor.name.map Identifier.raw]) := by
          exact (hwords (by decide)).optional fun name hname =>
            isPhraseText_name ((hlocal.2.2.2.2.1 accessor rfl).name name hname)
        have hposition : accessor.position.outline.IsReadable :=
          h.2 (.expr accessor.position) (by simp [Node.ofAccessor])
        simpa [Accessor.outline] using isReadable_above hlabel hposition
    rw [Expr.outline_stringAgg]
    apply isReadable_node ((hwords (hfunction function)).flagWords (isFlag_call distinct nulls))
    simp only [allReadable_cons, allReadable_append]
    exact ⟨h.1.1.1.1, hdelimiter, allReadable_order h.1.1.2,
      allReadable_window hlocal.2.2.2.1 h.1.2, haccessor⟩
  | «over» operand window =>
    simp only [Node.ofExpr, areReadable_cons] at h
    apply isReadable_node (hwords (by decide))
    simp only [allReadable_cons, allReadable_nil, and_true]
    exact ⟨h.1, Window.isReadable hlocal.2 h.2⟩
  | binary op left right =>
    have hlabel : IsPhraseText ("Binary " ++ op.text) :=
      .after "Binary" (by decide) (by decide) ⟨_, op.writes⟩
    exact isReadable_node hlabel (by simpa [Node.ofExpr, Node.outline] using h)
  | unary op operand =>
    have hlabel : IsPhraseText ("Unary " ++ op.text) :=
      .after "Unary" (by decide) (by decide) ⟨_, op.writes⟩
    exact isReadable_above hlabel (by simpa [Node.ofExpr, Node.outline] using h)
  | paren inner => exact isReadable_above (hwords (by decide)) (h (.expr inner) (by simp [Node.ofExpr]))
  | subquery query => exact isReadable_above (hwords (by decide)) (h (.query query) (by simp [Node.ofExpr]))
  | existsQuery query =>
    exact isReadable_above (hwords (by decide)) (h (.query query) (by simp [Node.ofExpr]))
  | struct fields items =>
    have hlabel : IsPhraseText
        (flagged "Struct" [fields.map fun fields => "STRUCT<" ++ fieldsText fields ++ ">"]) := by
      apply (hwords (by decide)).optional
      intro inner hinner
      have hstruct : (SqlType.struct inner).IsSound := by
        rw [SqlType.IsSound]
        exact hlocal.1 inner hinner
      exact isPhraseText_type hstruct
    rw [Expr.outline_struct]
    exact isReadable_node hlabel (allReadable_structItems hlocal.2 h)
  | cast safe operand type =>
    have hlabel : IsPhraseText ((if safe then "SafeCast " else "Cast ") ++ type.text) := by
      have htype := isPhraseText_type hlocal.2
      cases safe with
      | true => exact htype.after "SafeCast" (by decide) (by decide)
      | false => exact htype.after "Cast" (by decide) (by decide)
    exact isReadable_above hlabel (h (.expr operand) (by simp [Node.ofExpr]))
  | extract part operand zone =>
    simp only [Node.ofExpr, areReadable_append, areReadable_cons] at h
    rw [Expr.outline_extract]
    apply isReadable_node (hwords (by decide))
    simp only [allReadable_cons]
    exact ⟨h.1.1, h.1.2.1, allReadable_part (by decide) h.2⟩
  | case operand branches otherwise =>
    simp only [Node.ofExpr, areReadable_append] at h
    rw [Expr.outline_case]
    apply isReadable_node (hwords (by decide))
    simp only [allReadable_append]
    exact ⟨allReadable_part (by decide) h.1.1, allReadable_branches h.1.2,
      allReadable_part (by decide) h.2⟩
  | interval count unit =>
    have hunit := isPhraseText_name (Identifier.IsSound.isSegment hlocal)
    exact isReadable_above (hunit.after "Interval" (by decide) (by decide))
      (h (.expr count) (by simp [Node.ofExpr]))
  | member operand negated target =>
    simp only [Node.ofExpr, areReadable_cons] at h
    have hlabel : IsPhraseText (flagged "In" [flag negated "NOT"]) := by
      cases negated <;> exact hwords (by decide)
    apply isReadable_node hlabel
    simp only [allReadable_cons, allReadable_nil, and_true]
    exact ⟨h.1, MemberTarget.isReadable h.2⟩
  | between operand negated low high =>
    have hlabel : IsPhraseText (flagged "Between" [flag negated "NOT"]) := by
      cases negated <;> exact hwords (by decide)
    exact isReadable_node hlabel (by simpa [Node.ofExpr, Node.outline] using h)
  | isValue operand negated value =>
    have hlabel : IsPhraseText (flagged "Is" [flag negated "NOT", some value.text]) := by
      cases negated <;> cases value <;> exact hwords (by decide)
    exact isReadable_above hlabel (h (.expr operand) (by simp [Node.ofExpr]))
  | index base kind position =>
    have hlabel : IsPhraseText (flagged "Index" [kind.map IndexKind.text]) := by
      rcases kind with _ | _ | _ | _ | _ <;> exact hwords (by decide)
    exact isReadable_node hlabel (by simpa [Node.ofExpr, Node.outline] using h)
  | field base label =>
    have hname := isPhraseText_name hlocal.2
    exact isReadable_above (hname.after "Field" (by decide) (by decide))
      (h (.expr base) (by simp [Node.ofExpr]))

end Expressions

section Queries

theorem SetQuantifier.isWords_text : ∀ quantifier : SetQuantifier, isWords quantifier.text = true := by
  rintro (_ | _) <;> decide

theorem CommonTables.isReadable {common : CommonTables}
    (h : AreReadable (common.tables.map Node.commonTable)) : common.outline.IsReadable := by
  have hlabel : IsPhraseText (flagged "With" [flag common.isRecursive "RECURSIVE"]) := by
    cases common.isRecursive <;> exact isPhraseText_words (by decide)
  have htables : AllReadable (common.tables.map CommonTable.outline) :=
    @allReadable_map _ _ Node.commonTable CommonTable.outline (fun _ _ htable => htable) h
  rw [CommonTables.outline_eq]
  exact isReadable_node hlabel htables

theorem CommonTable.isReadable {table : CommonTable} (hname : table.name.IsSound)
    (h : table.query.outline.IsReadable) : table.outline.IsReadable :=
  isReadable_above ((isPhraseText_name hname.isSegment).after "Cte" (by decide) (by decide)) h

theorem Query.isReadable {query : Query} (h : AreReadable (Node.children (.query query))) :
    query.outline.IsReadable := by
  simp only [Node.children, areReadable_append, areReadable_cons] at h
  have hcommon : AllReadable (query.common.toList.map CommonTables.outline) := by
    cases hsome : query.common with
    | none => exact allReadable_nil
    | some common =>
      have htables := h.1.1
      rw [hsome] at htables
      simpa using CommonTables.isReadable htables
  rw [Query.outline_eq]
  apply isReadable_node (isPhraseText_words (by decide))
  simp only [allReadable_append, allReadable_cons]
  exact ⟨hcommon, h.1.2.1, allReadable_order h.2⟩

theorem SetExpr.isReadable {body : SetExpr} (h : AreReadable (Node.ofSetExpr body)) :
    body.outline.IsReadable := by
  cases body with
  | select select => exact h (.select select) (by simp [Node.ofSetExpr])
  | paren query =>
    exact isReadable_above (isPhraseText_words (by decide)) (h (.query query) (by simp [Node.ofSetExpr]))
  | combine op quantifier left right =>
    have hlabel : IsPhraseText
        (flagged ("SetOperation " ++ op.text) [quantifier.map SetQuantifier.text]) := by
      cases op <;> rcases quantifier with _ | _ | _ <;> exact isPhraseText_words (by decide)
    exact isReadable_node hlabel (by simpa [Node.ofSetExpr, Node.outline] using h)

theorem Select.isReadable {select : Select} (h : AreReadable (Node.ofSelect select)) :
    select.outline.IsReadable := by
  simp only [Node.ofSelect, areReadable_append] at h
  have hlabel : IsPhraseText
      (flagged "Select" [flag select.distinct "DISTINCT", select.shape.map SelectAs.text]) := by
    cases select.distinct <;> rcases select.shape with _ | _ | _ <;> exact isPhraseText_words (by decide)
  have hitems : AllReadable (select.items.map SelectItem.outline) :=
    @allReadable_map _ _ Node.selectItem SelectItem.outline (fun _ _ hitem => hitem) h.1.1.1.1.1
  have hsource : AllReadable
      (select.source.toList.map fun source => Outline.above "From" source.outline) :=
    @allReadable_map _ _ Node.tableExpr (fun source => above "From" source.outline)
      (fun _ _ htable => isReadable_above (isPhraseText_words (by decide)) htable) h.1.1.1.1.2
  rw [Select.outline_eq]
  apply isReadable_node hlabel
  simp only [allReadable_append]
  exact ⟨hitems, hsource, allReadable_part (by decide) h.1.1.1.2,
    allReadable_group (isPhraseText_words (by decide)) (allReadable_exprs h.2),
    allReadable_part (by decide) h.1.1.2, allReadable_part (by decide) h.1.2⟩

theorem isPhraseText_identifierList {names : List Identifier} (hne : names ≠ [])
    (h : ∀ name ∈ names, name.IsSound) : IsPhraseText (identifierList names) :=
  ⟨_, writes_identifierList hne h⟩

theorem SelectItem.isReadable {item : SelectItem} (hlocal : item.IsLocallySound)
    (h : AreReadable (Node.ofSelectItem item)) : item.outline.IsReadable := by
  cases item with
  | wildcard qualifier except replace =>
    have hlabel : IsPhraseText (wildcardLabel qualifier except) := by
      apply (isPhraseText_words (by decide)).withFlags
      rw [List.forall_mem_cons, List.forall_mem_singleton]
      constructor
      · cases qualifier with
        | none => simp
        | some name =>
          rintro text ⟨⟩
          exact isPhraseText_dotted (QualifiedName.isSegment_of_isSound (hlocal.1 name rfl))
      · cases except with
        | nil => simp [flag]
        | cons first rest =>
          rintro text ⟨⟩
          exact (isPhraseText_identifierList (List.cons_ne_nil first rest) hlocal.2.1).after "EXCEPT"
            (by decide) (by decide)
    exact isReadable_node hlabel (allReadable_replacements hlocal.2.2 h)
  | expr value aliasName =>
    exact isReadable_above ((isPhraseText_words (by decide)).aliased hlocal.2)
      (h (.expr value) (by simp [Node.ofSelectItem]))

theorem isPhraseText_unnest {aliasName : Option Identifier} {offset : Option (Option Identifier)}
    (hname : ∀ name ∈ aliasName, name.IsSound) (hoffset : ∀ inner ∈ offset, ∀ name ∈ inner, name.IsSound) :
    IsPhraseText (unnestLabel aliasName offset) := by
  have hunnest : IsPhraseText (withAlias "Unnest" aliasName) :=
    (isPhraseText_words (by decide)).aliased hname
  cases offset with
  | none => exact hunnest
  | some offset =>
    have hwords : isWords "WITH OFFSET" = true := by decide
    have hwith : IsPhraseText (flagged (withAlias "Unnest" aliasName) [some "WITH OFFSET"]) :=
      hunnest.flagWords (by simpa using isFlag_words hwords)
    rw [flagged_some, flagged_nil, String.append_assoc] at hwith
    exact hwith.aliased (hoffset offset rfl)

/-- The label of the columns of a join ends with a blank if there are none. -/
theorem isReadable_using {names : List Identifier} (h : ∀ name ∈ names, name.IsSound) :
    (leaf ("Using " ++ identifierList names)).IsReadable := by
  cases names with
  | nil =>
    have hword : Writes [Atom.word "Using"] "Using" := .keyword (by decide)
    have hlegible : IsLegible ([Atom.word "Using"] ++ [Atom.gap]) := by
      apply isLegible_append hword.phrase.legible (isLegible_blank (by simp))
      rintro last ⟨⟩ next ⟨⟩
      exact ⟨rfl, Token.Kind.noConfusion⟩
    have hlabel : IsLabelText "Using " := ⟨_, ⟨hlegible, ⟨_, rfl⟩, rfl⟩, rfl⟩
    exact .node hlabel (by simp)
  | cons first rest =>
    have hnames := isPhraseText_identifierList (List.cons_ne_nil first rest) h
    exact isReadable_leaf (hnames.after "Using" (by decide) (by decide))

theorem TableExpr.isReadable {table : TableExpr} (hlocal : table.IsLocallySound)
    (h : AreReadable (Node.ofTableExpr table)) : table.outline.IsReadable := by
  cases table with
  | table name aliasName =>
    have hname := isPhraseText_dotted (QualifiedName.isSegment_of_isSound hlocal.1)
    have hlabel : IsPhraseText ("Table " ++ name.dotted) := hname.after "Table" (by decide) (by decide)
    exact isReadable_leaf (hlabel.aliased hlocal.2)
  | subquery query aliasName =>
    exact isReadable_above ((isPhraseText_words (by decide)).aliased hlocal)
      (h (.query query) (by simp [Node.ofTableExpr]))
  | unnest array aliasName offset =>
    exact isReadable_above (isPhraseText_unnest hlocal.2.1 hlocal.2.2)
      (h (.expr array) (by simp [Node.ofTableExpr]))
  | join left kind right condition =>
    simp only [Node.ofTableExpr, areReadable_append, areReadable_cons] at h
    have hlabel : IsPhraseText ("Join " ++ kind.text) :=
      .after "Join" (by decide) (by decide) ⟨_, kind.writes⟩
    have hcondition : AllReadable (condition.toList.map JoinCondition.outline) := by
      rcases condition with _ | test | names
      · exact allReadable_nil
      · have htest : test.outline.IsReadable := h.2 (.expr test) (by simp [Node.ofJoinCondition])
        simpa [JoinCondition.outline] using isReadable_above (isPhraseText_words (by decide)) htest
      · simpa [JoinCondition.outline] using isReadable_using (hlocal.2.2 (.columns names) rfl)
    rw [TableExpr.outline_join]
    apply isReadable_node hlabel
    simp only [allReadable_cons]
    exact ⟨h.1.1, h.1.2.1, hcondition⟩

end Queries

section Statements

theorem allReadable_options {options : List OptionItem} (hsound : ∀ item ∈ options, item.IsSound)
    (h : AreReadable (Node.optionValues options)) : AllReadable (optionOutlines options) := by
  refine allReadable_map (fun item hmem hitem => ?_) h
  have hname := isPhraseText_name (hsound item hmem).name.isSegment
  exact isReadable_above (hname.after "Option" (by decide) (by decide)) hitem

theorem allReadable_declarations {word : String} (hword : isKeyword word = true)
    {declarations : List Declaration} (h : ∀ declaration ∈ declarations, declaration.IsSound) :
    AllReadable (declarationOutlines word declarations) := by
  intro shown hshown
  obtain ⟨declaration, hmem, rfl⟩ := List.mem_map.mp hshown
  have htext : IsPhraseText declaration.text := ⟨_, Declaration.writes (h declaration hmem)⟩
  exact isReadable_leaf (htext.after word rfl hword)

theorem isReadable_quoted (word : String) {head : String} (hhead : head = word ++ " ")
    (hword : isKeyword word = true) (text : String) : (leaf (head ++ Text.quoted text)).IsReadable := by
  have htext : IsPhraseText (Text.quoted text) := ⟨_, writes_quoted text⟩
  exact isReadable_leaf (htext.after word hhead hword)

theorem allReadable_comments (comments : List String) : AllReadable (commentOutlines comments) := by
  intro shown hshown
  obtain ⟨comment, -, rfl⟩ := List.mem_map.mp hshown
  exact isReadable_quoted "Comment" (by decide) (by decide) comment

theorem FunctionBody.allReadable {body : FunctionBody} (hsound : body.IsSound)
    (h : AreReadable (Node.ofBody body)) : AllReadable body.outlines := by
  cases body with
  | sql body =>
    have hbody : body.outline.IsReadable := h (.expr body) (by simp [Node.ofBody])
    simpa [FunctionBody.outlines] using isReadable_above (isPhraseText_words (by decide)) hbody
  | foreign language code options =>
    have hlanguage := isPhraseText_name hsound.1.isSegment
    simp only [FunctionBody.outlines, allReadable_append, allReadable_cons, allReadable_nil, and_true]
    exact ⟨⟨isReadable_leaf (hlanguage.after "Language" (by decide) (by decide)),
      isReadable_quoted "Code" (by decide) (by decide) code.text⟩,
      allReadable_options hsound.2.2.2 h⟩

theorem FunctionDef.isReadable {definition : FunctionDef} (hsound : definition.IsLocallySound)
    (h : AreReadable (Node.ofBody definition.body)) :
    (Node.function definition).outline.IsReadable := by
  have hname := isPhraseText_dotted (QualifiedName.isSegment_of_isSound hsound.name)
  have hhead : IsPhraseText ("CreateFunction " ++ definition.name.dotted) :=
    hname.after "CreateFunction" (by decide) (by decide)
  have hlabel : IsPhraseText (Action.createFunction definition).label :=
    hhead.flagWords (isFlag_createFunction definition.orReplace definition.temporary)
  have hreturns : AllReadable (definition.returns.map fun type => leaf ("Returns " ++ type.text)).toList :=
    allReadable_leaf "Returns" (by decide) (by decide) fun type hmem =>
      isPhraseText_type (hsound.returns type hmem)
  refine isReadable_node hlabel ?_
  simp only [Action.outlines, allReadable_append]
  exact ⟨⟨allReadable_declarations (by decide) hsound.params, hreturns⟩,
    FunctionBody.allReadable hsound.body h⟩

theorem InsertSource.isReadable {source : InsertSource} (h : AreReadable (Node.ofInsertSource source)) :
    source.outline.IsReadable := by
  cases source with
  | query body => exact h (.query body) (by simp [Node.ofInsertSource])
  | values rows =>
    refine isReadable_node (isPhraseText_words (by decide)) ?_
    intro shown hshown
    obtain ⟨row, hmem, rfl⟩ := List.mem_map.mp hshown
    have hrow : AreReadable (Node.exprs row) := fun node hnode =>
      h node (List.mem_flatMap.mpr ⟨row, hmem, hnode⟩)
    rw [exprOutlines_eq_map]
    exact isReadable_node (isPhraseText_words (by decide)) (allReadable_exprs hrow)

theorem Action.isReadable {action : Action} (hsound : action.IsSound)
    (h : AreReadable (Node.ofAction action)) : (node action.label action.outlines).IsReadable := by
  cases action with
  | query body =>
    have hlabel : IsPhraseText (Action.query body).label :=
      isPhraseText_words (show isWords "QueryStatement" = true by decide)
    exact isReadable_above hlabel (h (.query body) (by simp [Node.ofAction]))
  | createFunction definition => exact h (.function definition) (by simp [Node.ofAction])
  | createTable definition =>
    have hname := isPhraseText_dotted (QualifiedName.isSegment_of_isSound hsound.name)
    have hhead : IsPhraseText ("CreateTable " ++ definition.name.dotted) :=
      hname.after "CreateTable" (by decide) (by decide)
    have hquery : AllReadable (definition.query.map Query.outline).toList := by
      rw [Option.toList_map]
      exact @allReadable_map _ _ Node.query Query.outline (fun _ _ hbody => hbody)
        fun node hnode => h node (List.mem_append_right _ hnode)
    refine isReadable_node (hhead.flagWords (isFlag_createTable _ _ _)) ?_
    simp only [Action.outlines, allReadable_append]
    exact ⟨⟨allReadable_declarations (by decide) hsound.columns,
      allReadable_options hsound.options fun node hnode => h node (List.mem_append_left _ hnode)⟩, hquery⟩
  | createView definition =>
    have hname := isPhraseText_dotted (QualifiedName.isSegment_of_isSound hsound.name)
    have hhead : IsPhraseText ("CreateView " ++ definition.name.dotted) :=
      hname.after "CreateView" (by decide) (by decide)
    have hquery : definition.query.outline.IsReadable :=
      h (.query definition.query) (by simp [Node.ofAction])
    refine isReadable_node (hhead.flagWords (isFlag_createView _ _)) ?_
    simp only [Action.outlines, allReadable_append]
    exact ⟨allReadable_options hsound.options fun node hnode => h node (List.mem_append_left _ hnode),
      by simpa using hquery⟩
  | insert insertion =>
    have hname := isPhraseText_dotted (QualifiedName.isSegment_of_isSound hsound.table)
    have hcolumns : AllReadable (if insertion.columns.isEmpty then []
        else [leaf ("Columns " ++ identifierList insertion.columns)]) := by
      split
      · exact allReadable_nil
      · rename_i hne
        have hnames := isPhraseText_identifierList (by simpa using hne) hsound.columns
        simpa using isReadable_leaf (hnames.after "Columns" (by decide) (by decide))
    refine isReadable_node (hname.after "Insert" (by decide) (by decide)) ?_
    simp only [Action.outlines, allReadable_append]
    exact ⟨hcolumns, by simpa using InsertSource.isReadable h⟩

theorem Statement.isReadable {statement : Statement} (hsound : statement.IsLocallySound)
    (h : AreReadable (Node.ofAction statement.action)) : (statement.outline true).IsReadable := by
  obtain ⟨hlabel, hparts⟩ := Action.isReadable hsound.action h
  exact .node hlabel (allReadable_append.mpr ⟨allReadable_comments statement.comments, hparts⟩)

theorem Script.isReadable {script : Script} (h : AreReadable (script.statements.map Node.statement)) :
    script.outline.IsReadable := by
  have hstatements : AllReadable (script.statements.map (Statement.outline true)) :=
    @allReadable_map _ _ Node.statement (Statement.outline true) (fun _ _ hstatement => hstatement) h
  exact isReadable_node (isPhraseText_words (by decide))
    (allReadable_append.mpr ⟨hstatements, allReadable_comments script.trailingComments⟩)

end Statements

/-- What is shown of a sound tree is readable. -/
theorem Node.isReadable (node : Node) : node.IsSound → node.outline.IsReadable := by
  induction node using Node.induct with
  | h node ih =>
    intro hsound
    have hlocal := hsound.here
    have h : AreReadable node.children := fun child hchild =>
      ih child hchild (hsound.child hchild)
    cases node with
    | script body => exact Script.isReadable h
    | statement body => exact Statement.isReadable hlocal h
    | function definition => exact FunctionDef.isReadable hlocal h
    | query body => exact Query.isReadable h
    | commonTable table =>
      exact CommonTable.isReadable hlocal (h (.query table.query) (by simp [Node.children]))
    | setExpr body => exact SetExpr.isReadable h
    | select body => exact Select.isReadable h
    | selectItem item => exact SelectItem.isReadable hlocal h
    | tableExpr table => exact TableExpr.isReadable hlocal h
    | expr body => exact Expr.isReadable hlocal.1 h

end SqlLayout
