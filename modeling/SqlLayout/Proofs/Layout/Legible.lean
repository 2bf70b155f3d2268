import SqlLayout.Proofs.Layout.Parts
import SqlLayout.Proofs.Layout.Script

/-!
# Sound Trees Are Legible

Every node of a sound tree spells a phrase when the nodes inside it do. What stands next to each other
without blanks is a name or a bracket, but for two things: a sign right before its operand, which is no
second sign, and a point after something that it does not belong to.
-/

namespace SqlLayout

open Token Token.Scan Spelling

section Nodes

/-- What an expression spells is a phrase. One on the highest level does not start with a sign, and only
digits alone go on with a point. -/
structure Expr.IsLegible (e : Expr) : Prop where
  phrase : e.spelling.IsPhrase
  first_ne_minus : e.level = 12 → ∀ c ∈ first? e.spelling, c ≠ '-'
  endsBefore_dot : e.level = 12 → e.whole? = none → e.spelling.EndsBefore '.'

/-- What every node spells. -/
def Node.IsLegible : Node → Prop
  | script body => ∀ row ∈ body.rows [], row.IsRow
  | statement body => body.action.spelling.IsPhrase
  | function definition => definition.spelling.IsPhrase
  | query body => body.spelling.IsPhrase
  | commonTable table => ∀ spelling ∈ commonTableSpellings [table], spelling.IsPhrase
  | setExpr body => body.spelling.IsPhrase
  | select body => body.spelling.IsPhrase
  | selectItem item => ∀ spelling ∈ selectItemSpellings [item], spelling.IsPhrase
  | tableExpr table => table.spelling.IsPhrase
  | expr body => body.IsLegible

/-- What is true of a node whenever it is true of all nodes inside it. -/
theorem Node.induct {motive : Node → Prop}
    (h : ∀ node : Node, (∀ child ∈ node.children, motive child) → motive node) (node : Node) :
    motive node :=
  h node fun child _ => Node.induct h child
termination_by sizeOf node
decreasing_by exact sizeOf_lt_of_mem_children ‹_›

end Nodes

section Lists

theorem exprSpellings_eq (items : List Expr) : exprSpellings items = items.map Expr.spelling := by
  induction items with
  | nil => rfl
  | cons item items ih => rw [exprSpellings, ih, List.map_cons]

theorem isPhrase_exprs {items : List Expr} (h : ∀ child ∈ Node.exprs items, child.IsLegible) :
    ∀ spelling ∈ exprSpellings items, spelling.IsPhrase := by
  rw [exprSpellings_eq]
  apply isPhrase_map
  intro item hitem
  have hlegible : item.IsLegible := h (.expr item) (List.mem_map_of_mem hitem)
  exact hlegible.phrase

theorem isPhrase_sortKeys {keys : List SortKey} (h : ∀ child ∈ Node.sortKeys keys, child.IsLegible) :
    ∀ spelling ∈ sortKeySpellings keys, spelling.IsPhrase := by
  induction keys with
  | nil =>
    intro spelling hmem
    rw [sortKeySpellings] at hmem
    cases hmem
  | cons key keys ih =>
    obtain ⟨e, direction, nulls⟩ := key
    intro spelling hmem
    rw [sortKeySpellings] at hmem
    rcases List.mem_cons.mp hmem with rfl | hmem
    · have hlegible : e.IsLegible := h (.expr e) (by simp [Node.sortKeys])
      apply isPhrase_modified
      · apply isPhrase_modified hlegible.phrase
        intro inner hinner
        obtain ⟨direction, -, rfl⟩ := Option.map_eq_some_iff.mp hinner
        exact direction.isPhrase
      · intro inner hinner
        obtain ⟨nulls, -, rfl⟩ := Option.map_eq_some_iff.mp hinner
        exact nulls.isPhrase
    · exact ih (fun child hchild => h child (List.mem_cons_of_mem _ hchild)) spelling hmem

theorem isPhrase_structItems {items : List StructItem} (hsound : ∀ item ∈ items, item.IsSound)
    (h : ∀ child ∈ Node.structItems items, child.IsLegible) :
    ∀ spelling ∈ structItemSpellings items, spelling.IsPhrase := by
  induction items with
  | nil =>
    intro spelling hmem
    rw [structItemSpellings] at hmem
    cases hmem
  | cons item items ih =>
    have hitem := hsound item (by simp)
    obtain ⟨e, aliasName⟩ := item
    intro spelling hmem
    rw [structItemSpellings] at hmem
    rcases List.mem_cons.mp hmem with rfl | hmem
    · have hlegible : e.IsLegible := h (.expr e) (by simp [Node.structItems])
      exact isPhrase_aliased hlegible.phrase hitem.aliasName
    · exact ih (fun other hother => hsound other (List.mem_cons_of_mem _ hother))
        (fun child hchild => h child (List.mem_cons_of_mem _ hchild)) spelling hmem

theorem isPhrase_replacements {items : List Replacement} (hsound : ∀ item ∈ items, item.IsSound)
    (h : ∀ child ∈ Node.replacements items, child.IsLegible) :
    ∀ spelling ∈ replacementSpellings items, spelling.IsPhrase := by
  induction items with
  | nil =>
    intro spelling hmem
    rw [replacementSpellings] at hmem
    cases hmem
  | cons item items ih =>
    have hitem := hsound item (by simp)
    obtain ⟨e, aliasName⟩ := item
    intro spelling hmem
    rw [replacementSpellings] at hmem
    rcases List.mem_cons.mp hmem with rfl | hmem
    · have hlegible : e.IsLegible := h (.expr e) (by simp [Node.replacements])
      apply isPhrase_aliased hlegible.phrase
      intro name hname
      cases hname
      exact hitem.aliasName
    · exact ih (fun other hother => hsound other (List.mem_cons_of_mem _ hother))
        (fun child hchild => h child (List.mem_cons_of_mem _ hchild)) spelling hmem

theorem isPhrase_branches {branches : List Branch}
    (h : ∀ child ∈ Node.ofBranches branches, child.IsLegible) :
    ∀ spelling ∈ branchSpellings branches, spelling.IsPhrase := by
  induction branches with
  | nil =>
    intro spelling hmem
    rw [branchSpellings] at hmem
    cases hmem
  | cons branch branches ih =>
    obtain ⟨condition, result⟩ := branch
    intro spelling hmem
    rw [branchSpellings] at hmem
    rcases List.mem_cons.mp hmem with rfl | hmem
    · have hcondition : condition.IsLegible := h (.expr condition) (by simp [Node.ofBranches])
      have hresult : result.IsLegible := h (.expr result) (by simp [Node.ofBranches])
      have hwhen : IsPhrase [Atom.word "WHEN"] := isPhrase_keyword (by decide)
      have hthen : IsPhrase [Atom.word "THEN"] := isPhrase_keyword (by decide)
      have hphrase := ((hwhen.gap hcondition.phrase).gap hthen).gap hresult.phrase
      simpa using hphrase
    · refine ih (fun child hchild => h child ?_) spelling hmem
      simp only [Node.ofBranches, List.flatMap_cons, List.mem_append]
      exact .inr hchild

theorem RowOrder.isPhrase {order : RowOrder} (hsound : order.IsSound)
    (h : ∀ child ∈ Node.ofRowOrder (some order), child.IsLegible) : order.spelling.IsPhrase := by
  obtain ⟨keys, limit, offset⟩ := order
  rw [RowOrder.spelling_mk]
  have hkeys : ∀ child ∈ Node.sortKeys keys, child.IsLegible := fun child hchild =>
    h child (by simp [Node.ofRowOrder, hchild])
  apply isPhrase_spaced
  · rcases hsound.nonempty with hsome | hsome
    · obtain ⟨⟨e, direction, nulls⟩, keys, rfl⟩ := List.exists_cons_of_ne_nil hsome
      simp [sortKeySpellings, listClauses]
    · cases limit with
      | none => cases hsome
      | some limit => simp
  · intro spelling hmem
    rcases List.mem_append.mp hmem with hmem | hmem
    · rcases List.mem_append.mp hmem with hmem | hmem
      · exact isPhrase_listClauses (by decide) (by decide) (isPhrase_sortKeys hkeys) spelling hmem
      · refine isPhrase_optional ?_ spelling hmem
        rintro e rfl
        have hlegible : e.IsLegible := h (.expr e) (by simp [Node.ofRowOrder, Node.exprs])
        exact isPhrase_clause (by decide) (by decide) hlegible.phrase
    · refine isPhrase_optional ?_ spelling hmem
      rintro e rfl
      have hlegible : e.IsLegible := h (.expr e) (by simp [Node.ofRowOrder, Node.exprs])
      exact isPhrase_clause (by decide) (by decide) hlegible.phrase

theorem Window.isPhrase {window : Window} (hsound : window.IsSound)
    (h : ∀ child ∈ Node.ofWindow (some window), child.IsLegible) : window.spelling.IsPhrase := by
  obtain ⟨partition, order, frame⟩ := window
  have hpartition : ∀ child ∈ Node.exprs partition, child.IsLegible := fun child hchild =>
    h child (by simp [Node.ofWindow, hchild])
  have horder : ∀ child ∈ Node.sortKeys order, child.IsLegible := fun child hchild =>
    h child (by simp [Node.ofWindow, hchild])
  rw [Window.spelling]
  apply isPhrase_window
  intro spelling hmem
  rcases List.mem_append.mp hmem with hmem | hmem
  · rcases List.mem_append.mp hmem with hmem | hmem
    · exact isPhrase_listClauses (by decide) (by decide) (isPhrase_exprs hpartition) spelling hmem
    · exact isPhrase_listClauses (by decide) (by decide) (isPhrase_sortKeys horder) spelling hmem
  · exact isPhrase_optional (fun frame hframe => Frame.isPhrase (hsound.frame frame hframe)) spelling hmem

end Lists

section Expressions

variable {e : Expr}

namespace Expr.IsLegible

/-- An expression that starts with no sign and does not go on with a point. -/
theorem of (spelling : Spelling) (heq : e.spelling = spelling) (phrase : spelling.IsPhrase)
    (hfirst : ∀ c ∈ first? spelling, c ≠ '-') (hends : spelling.EndsBefore '.') : e.IsLegible :=
  ⟨heq ▸ phrase, fun _ => heq ▸ hfirst, fun _ _ => heq ▸ hends⟩

/-- An expression below the highest level. -/
theorem ofLevel (spelling : Spelling) (heq : e.spelling = spelling) (phrase : spelling.IsPhrase)
    (hlevel : e.level ≠ 12) : e.IsLegible :=
  ⟨heq ▸ phrase, fun h => absurd h hlevel, fun h => absurd h hlevel⟩

end Expr.IsLegible

/-- What starts with something else than a sign. -/
theorem ne_minus_of_first? {spelling : Spelling} (d : Char) (h : first? spelling = some d)
    (hd : d ≠ '-') : ∀ c ∈ first? spelling, c ≠ '-' := by
  intro c hc
  rw [h] at hc
  cases hc
  exact hd

theorem QualifiedName.first_ne_minus {name : QualifiedName}
    (h : ∀ segment ∈ name.segments, segment.IsSegment) : ∀ c ∈ first? name.spelling, c ≠ '-' := by
  rintro c hc rfl
  rcases first_of_isSegment h hc with hstart | hquote
  · exact absurd hstart (by decide)
  · exact absurd hquote (by decide)

theorem isLegible_constant {constant : Constant} (h : constant.IsSound) :
    (Expr.constant constant).IsLegible where
  phrase := constant.isPhrase h
  first_ne_minus := fun _ c hc => constant.first_ne_minus h hc
  endsBefore_dot := by
    intro _ hwhole
    apply constant.endsBefore_dot h
    intro hkind
    obtain ⟨kind, text⟩ := constant
    cases hkind
    by_contra hall
    rw [Bool.not_eq_false] at hall
    rw [Expr.whole?, if_pos hall] at hwhole
    cases hwhole

theorem isLegible_call {function : QualifiedName} {distinct : Bool} {args : List Expr}
    {nulls : Option NullHandling} (hfunction : function.IsFunction)
    (h : ∀ child ∈ Node.exprs args, child.IsLegible) :
    (Expr.call function distinct args nulls).IsLegible := by
  have hsegments := QualifiedName.isSegment_of_isFunction hfunction
  have hname := QualifiedName.isPhrase hsegments
  have hitems : ∀ spelling ∈ modifyLast (· ++ modifier (nulls.map NullHandling.spelling))
      (modifyFirst (distinctSpelling distinct) (exprSpellings args)), spelling.IsPhrase := by
    apply isPhrase_modifyLast
    · exact isPhrase_modifyFirst (isPhrase_exprs h) fun _ => isPhrase_distinct distinct
    · intro spelling hspelling
      apply isPhrase_modified hspelling
      intro inner hinner
      obtain ⟨nulls, -, rfl⟩ := Option.map_eq_some_iff.mp hinner
      exact nulls.isPhrase
  apply Expr.IsLegible.of (callSpelling function.spelling _) rfl (isPhrase_call hname hitems)
  · rw [first?_call hname.ne_nil]
    exact QualifiedName.first_ne_minus hsegments
  · exact endsBefore_call

theorem isLegible_array {type : Option SqlType} {items : List Expr}
    (htype : ∀ inner ∈ type, inner.IsSound) (h : ∀ child ∈ Node.exprs items, child.IsLegible) :
    (Expr.array type items).IsLegible := by
  have hitems := isPhrase_bracketList (isPhrase_exprs h)
  cases type with
  | none =>
    apply Expr.IsLegible.of (Atom.bracketOpen :: commas (exprSpellings items) ++ [Atom.bracketClose]) rfl
      hitems
    · exact ne_minus_of_first? '[' rfl (by decide)
    · exact endsBefore_bracketClose
  | some type =>
    have hangles := (type.isTypePhrase (htype type rfl)).inAngles
    have hword : IsPhrase [Atom.word "ARRAY"] := isPhrase_keyword (by decide)
    have hhead := hword.append hangles (by
      intro c hc
      cases hc
      exact endsBefore_keyword (by decide))
    have hphrase := hhead.appendBracket hitems
    apply Expr.IsLegible.of ([Atom.word "ARRAY", Atom.symbol .lt "<"] ++ type.spelling
      ++ [Atom.symbol .gt ">", Atom.bracketOpen] ++ commas (exprSpellings items)
      ++ [Atom.bracketClose]) rfl
    · simpa using hphrase
    · exact ne_minus_of_first? 'A' rfl (by decide)
    · exact endsBefore_bracketClose

/-- Something in parentheses after a keyword. -/
theorem isLegible_headed {keyword : String} {body : Spelling} (hkeyword : isKeyword keyword)
    (hbody : body.IsPhrase) (heq : e.spelling = Atom.word keyword :: enclosed body) : e.IsLegible := by
  have hword := isPhrase_keyword hkeyword
  apply Expr.IsLegible.of _ heq (isPhrase_headed hword hbody)
  · intro c hc hminus
    obtain ⟨first, rest, htext, hfirst, -⟩ := isWord_of_isKeyword hkeyword
    have hc : c ∈ keyword.toList.head? := hc
    rw [htext] at hc
    cases hc
    rw [hminus] at hfirst
    exact absurd hfirst (by decide)
  · exact @endsBefore_enclosed body [Atom.word keyword]

theorem isLegible_enclosed {body : Spelling} (hbody : body.IsPhrase) (heq : e.spelling = enclosed body) :
    e.IsLegible := by
  apply Expr.IsLegible.of _ heq hbody.enclosed
  · exact ne_minus_of_first? '(' rfl (by decide)
  · exact @endsBefore_enclosed body []

/-- The parts of an aggregate after its operand. -/
theorem isPhrase_modifiers {first : Spelling} (hfirst : first.IsPhrase) (nulls : Option NullHandling)
    {order : Option RowOrder} {window : Option Window} (horder : ∀ inner ∈ order, inner.IsSound)
    (hwindow : ∀ inner ∈ window, inner.IsSound) (h : ∀ child ∈ Node.ofRowOrder order, child.IsLegible)
    (h' : ∀ child ∈ Node.ofWindow window, child.IsLegible) :
    ∀ spelling ∈ first :: (nulls.map NullHandling.spelling).toList
      ++ (order.map RowOrder.spelling).toList ++ (window.map Window.spelling).toList,
      spelling.IsPhrase := by
  intro spelling hmem
  rcases List.mem_append.mp hmem with hmem | hmem
  · rcases List.mem_append.mp hmem with hmem | hmem
    · rcases List.mem_cons.mp hmem with rfl | hmem
      · exact hfirst
      · exact isPhrase_optional (fun nulls _ => nulls.isPhrase) spelling hmem
    · refine isPhrase_optional ?_ spelling hmem
      rintro order rfl
      exact RowOrder.isPhrase (horder order rfl) h
  · refine isPhrase_optional ?_ spelling hmem
    rintro window rfl
    exact Window.isPhrase (hwindow window rfl) h'

theorem isLegible_arrayAgg {distinct : Bool} {operand : Expr} {nulls : Option NullHandling}
    {order : Option RowOrder} {window : Option Window} {offset : Option Expr}
    (hlocal : (Expr.arrayAgg distinct operand nulls order window offset).IsLocallySound)
    (h : ∀ child ∈ Node.ofExpr (.arrayAgg distinct operand nulls order window offset), child.IsLegible) :
    (Expr.arrayAgg distinct operand nulls order window offset).IsLegible := by
  obtain ⟨-, horder, hwindow, -, -⟩ := hlocal
  simp only [Node.ofExpr, List.mem_append, List.mem_singleton] at h
  have hoperand : operand.IsLegible := h (.expr operand) (.inl (.inl (.inl rfl)))
  have hparts := isPhrase_modifiers (isPhrase_distinct distinct hoperand.phrase) nulls horder hwindow
    (fun child hchild => h child (.inl (.inl (.inr hchild)))) fun child hchild =>
    h child (.inl (.inr hchild))
  have hword : IsPhrase [Atom.word "ARRAY_AGG"] := isPhrase_keyword (by decide)
  have hcall := isPhrase_aggregate hword (by simp) hparts
  apply Expr.IsLegible.of _ (Expr.spelling_arrayAgg _ _ _ _ _ _)
  · cases offset with
    | none =>
      rw [List.append_nil]
      exact hcall
    | some offset =>
      have hoffset : offset.IsLegible := h (.expr offset) (.inr (by simp [Node.exprs]))
      exact isPhrase_subscript hcall hoffset.phrase (some .offset)
  · exact ne_minus_of_first? 'A' rfl (by decide)
  · cases offset with
    | none =>
      rw [List.append_nil]
      exact endsBefore_enclosed
    | some offset => exact endsBefore_subscript (some .offset)

theorem isPhrase_delimited {spelling : Spelling} (h : spelling.IsPhrase) (delimiter : Option Constant) :
    (∀ inner ∈ delimiter, inner.IsSound) → IsPhrase (spelling ++ match delimiter with
      | some delimiter => [Atom.comma, .gap] ++ delimiter.spelling
      | none => []) := by
  intro hdelimiter
  cases delimiter with
  | none =>
    rw [List.append_nil]
    exact h
  | some delimiter =>
    have hphrase := (h.appendNeutral isPhrase_comma (by decide)).gap
      (delimiter.isPhrase (hdelimiter delimiter rfl))
    simpa using hphrase

theorem isLegible_stringAgg {function : StringFunction} {distinct : Bool} {operand : Expr}
    {delimiter : Option Constant} {nulls : Option NullHandling} {order : Option RowOrder}
    {window : Option Window} {accessor : Option Accessor}
    (hlocal : (Expr.stringAgg function distinct operand delimiter nulls order window
      accessor).IsLocallySound)
    (h : ∀ child ∈ Node.ofExpr (.stringAgg function distinct operand delimiter nulls order window
      accessor), child.IsLegible) :
    (Expr.stringAgg function distinct operand delimiter nulls order window accessor).IsLegible := by
  obtain ⟨-, hdelimiter, horder, hwindow, haccessor, -⟩ := hlocal
  simp only [Node.ofExpr, List.mem_append, List.mem_singleton] at h
  have hoperand : operand.IsLegible := h (.expr operand) (.inl (.inl (.inl rfl)))
  have hfirst := isPhrase_delimited (isPhrase_distinct distinct hoperand.phrase) delimiter hdelimiter
  have hparts := isPhrase_modifiers hfirst nulls horder hwindow
    (fun child hchild => h child (.inl (.inl (.inr hchild)))) fun child hchild =>
    h child (.inl (.inr hchild))
  have hcall := isPhrase_aggregate function.isPhrase (by simp) hparts
  apply Expr.IsLegible.of _ (Expr.spelling_stringAgg _ _ _ _ _ _ _ _)
  · cases accessor with
    | none =>
      rw [List.append_nil]
      exact hcall
    | some accessor =>
      have hposition : accessor.position.IsLegible :=
        h (.expr accessor.position) (.inr (by simp [Node.ofAccessor]))
      exact isPhrase_accessor hcall hposition.phrase (haccessor accessor rfl).name
  · cases function with
    | stringAgg => exact ne_minus_of_first? 'S' rfl (by decide)
    | split => exact ne_minus_of_first? 'S' rfl (by decide)
  · cases accessor with
    | none =>
      rw [List.append_nil]
      exact endsBefore_enclosed
    | some accessor => exact endsBefore_accessor accessor.name

theorem level_of_isPrimary (h : e.isPrimary) : e.level = 12 := by
  cases e <;> first | rfl | cases h

theorem isLegible_over {operand : Expr} {window : Window} (hprimary : operand.isPrimary)
    (hsound : window.IsSound) (hoperand : operand.IsLegible)
    (h : ∀ child ∈ Node.ofWindow (some window), child.IsLegible) :
    (Expr.over operand window).IsLegible := by
  have hwindow := Window.isPhrase hsound h
  apply Expr.IsLegible.of (operand.spelling ++ .gap :: window.spelling) rfl
    (hoperand.phrase.gap hwindow)
  · rw [first?_append hoperand.phrase.ne_nil]
    exact hoperand.first_ne_minus (level_of_isPrimary hprimary)
  · obtain ⟨partition, order, frame⟩ := window
    have hends := @endsBefore_window (listClauses ["PARTITION", "BY"] (exprSpellings partition)
      ++ listClauses ["ORDER", "BY"] (sortKeySpellings order) ++ (frame.map Frame.spelling).toList)
      (operand.spelling ++ [Atom.gap])
    rw [List.append_assoc] at hends
    exact hends

theorem isLegible_binary {op : BinaryOp} {left right : Expr} (hleft : left.IsLegible)
    (hright : right.IsLegible) : (Expr.binary op left right).IsLegible := by
  have hphrase := (hleft.phrase.gap op.isPhrase).gap hright.phrase
  apply Expr.IsLegible.ofLevel (left.spelling ++ .gap :: op.spelling ++ .gap :: right.spelling) rfl
    hphrase
  have hlevel := op.level_le
  rw [Expr.level]
  omega

/-- A sign right before an operand that starts with no sign. -/
theorem isLegible_unary {op : UnaryOp} {operand : Expr} (hlevel : op.level ≤ operand.level)
    (h : operand.IsLegible) : (Expr.unary op operand).IsLegible := by
  have hphrase : (signSpelling op operand operand.spelling).IsPhrase := by
    unfold signSpelling
    split
    · exact op.isPhrase.gap h.phrase
    · rename_i hop
      simp only [Bool.or_eq_true, decide_eq_true_eq, not_or, Bool.not_eq_true] at hop
      have hhighest : operand.level = 12 := by
        have heleven : 11 ≤ operand.level := by
          cases op with
          | not => exact absurd rfl hop.1
          | _ => exact hlevel
        cases operand with
        | unary inner operand =>
          cases inner <;> simp_all [Expr.isSigned, Expr.level, UnaryOp.level]
        | binary inner left right =>
          cases inner <;> simp [Expr.level, BinaryOp.level] at heleven
        | _ => simp_all [Expr.level]
      exact op.isPhrase.append h.phrase fun c hc =>
        UnaryOp.endsBefore hop.1 (h.first_ne_minus hhighest c hc)
  apply Expr.IsLegible.ofLevel (signSpelling op operand operand.spelling) rfl hphrase
  have hlevel := op.level_le
  rw [Expr.level]
  omega

theorem isLegible_struct {fields : Option (List Field)} {items : List StructItem}
    (hfields : ∀ inner ∈ fields, fieldsAreSound inner) (hitems : ∀ item ∈ items, item.IsSound)
    (h : ∀ child ∈ Node.structItems items, child.IsLegible) :
    (Expr.struct fields items).IsLegible := by
  have hword : IsPhrase [Atom.word "STRUCT"] := isPhrase_keyword (by decide)
  have hphrases := isPhrase_structItems hitems h
  cases fields with
  | none =>
    apply Expr.IsLegible.of (callSpelling [Atom.word "STRUCT"] (structItemSpellings items)) rfl
      (isPhrase_call hword hphrases)
    · exact ne_minus_of_first? 'S' rfl (by decide)
    · exact endsBefore_call
  | some fields =>
    have hhead := (SqlType.isTypePhrase (.struct fields) (hfields fields rfl)).toIsPhrase
    apply Expr.IsLegible.of
      (callSpelling (Atom.word "STRUCT" :: angled (fieldSpellings fields)) (structItemSpellings items))
      rfl (isPhrase_call hhead hphrases)
    · exact ne_minus_of_first? 'S' rfl (by decide)
    · exact endsBefore_call

theorem isLegible_cast {safe : Bool} {operand : Expr} {type : SqlType} (htype : type.IsSound)
    (h : operand.IsLegible) : (Expr.cast safe operand type).IsLegible := by
  have has : IsPhrase [Atom.word "AS"] := isPhrase_keyword (by decide)
  have hitem := (h.phrase.gap has).gap (type.isTypePhrase htype).toIsPhrase
  have hword : IsPhrase [Atom.word (if safe then "SAFE_CAST" else "CAST")] := by
    cases safe <;> exact isPhrase_keyword (by decide)
  apply Expr.IsLegible.of (callSpelling [Atom.word (if safe then "SAFE_CAST" else "CAST")]
    [operand.spelling ++ [.gap, Atom.word "AS", .gap] ++ type.spelling]) rfl
  · apply isPhrase_call hword
    intro spelling hmem
    cases List.mem_singleton.mp hmem
    simpa using hitem
  · cases safe with
    | true => exact ne_minus_of_first? 'S' rfl (by decide)
    | false => exact ne_minus_of_first? 'C' rfl (by decide)
  · exact endsBefore_call

theorem isLegible_extract {part operand : Expr} {zone : Option Expr} (hpart : part.IsLegible)
    (hoperand : operand.IsLegible) (hzone : ∀ inner ∈ zone, inner.IsLegible) :
    (Expr.extract part operand zone).IsLegible := by
  have hfrom : IsPhrase [Atom.word "FROM"] := isPhrase_keyword (by decide)
  have hextract : IsPhrase [Atom.word "EXTRACT"] := isPhrase_keyword (by decide)
  have hitem := (hpart.phrase.gap hfrom).gap hoperand.phrase
  cases zone with
  | none =>
    apply Expr.IsLegible.of (callSpelling [Atom.word "EXTRACT"]
      [part.spelling ++ [.gap, Atom.word "FROM", .gap] ++ operand.spelling ++ []]) rfl
    · apply isPhrase_call hextract
      intro spelling hmem
      cases List.mem_singleton.mp hmem
      simpa using hitem
    · exact ne_minus_of_first? 'E' rfl (by decide)
    · exact endsBefore_call
  | some zone =>
    have hat : (words ["AT", "TIME", "ZONE"]).IsPhrase := isPhrase_words (by decide) (by decide)
    have hzoned := (hitem.gap hat).gap (hzone zone rfl).phrase
    apply Expr.IsLegible.of (callSpelling [Atom.word "EXTRACT"]
      [part.spelling ++ [.gap, Atom.word "FROM", .gap] ++ operand.spelling
        ++ (.gap :: words ["AT", "TIME", "ZONE"] ++ .gap :: zone.spelling)]) rfl
    · apply isPhrase_call hextract
      intro spelling hmem
      cases List.mem_singleton.mp hmem
      simpa using hzoned
    · exact ne_minus_of_first? 'E' rfl (by decide)
    · exact endsBefore_call

theorem isPhrase_caseHead (operand : Option Expr) : (∀ inner ∈ operand, inner.spelling.IsPhrase) →
    IsPhrase (Atom.word "CASE" :: match operand with
      | some operand => .gap :: operand.spelling
      | none => []) := by
  intro h
  have hcase : IsPhrase [Atom.word "CASE"] := isPhrase_keyword (by decide)
  cases operand with
  | none => exact hcase
  | some operand => exact hcase.gap (h operand rfl)

theorem isLegible_case {operand : Option Expr} {branches : List Branch} {otherwise : Option Expr}
    (h : ∀ child ∈ Node.ofExpr (.case operand branches otherwise), child.IsLegible) :
    (Expr.case operand branches otherwise).IsLegible := by
  simp only [Node.ofExpr, List.mem_append] at h
  have hhead := isPhrase_caseHead operand fun inner hinner => by
    have hlegible : inner.IsLegible := h (.expr inner) (.inl (.inl (by simp_all [Node.exprs])))
    exact hlegible.phrase
  have hbranches := isPhrase_branches fun child hchild => h child (.inl (.inr hchild))
  have hotherwise : ∀ spelling ∈ (otherwise.map fun otherwise =>
      clauseSpelling ["ELSE"] otherwise.spelling).toList, spelling.IsPhrase := by
    apply isPhrase_optional
    rintro otherwise rfl
    have hlegible : otherwise.IsLegible := h (.expr otherwise) (.inr (by simp [Node.exprs]))
    exact isPhrase_clause (by decide) (by decide) hlegible.phrase
  apply Expr.IsLegible.of _ (Expr.spelling_case _ _ _)
  · apply isPhrase_spaced (by simp)
    intro spelling hmem
    rcases List.mem_append.mp hmem with hmem | hmem
    · rcases List.mem_append.mp hmem with hmem | hmem
      · rcases List.mem_cons.mp hmem with rfl | hmem
        · exact hhead
        · exact hbranches spelling hmem
      · exact hotherwise spelling hmem
    · cases List.mem_singleton.mp hmem
      exact isPhrase_keyword (by decide)
  · rw [List.cons_append, List.cons_append, first?_spaced (by simp)]
    exact ne_minus_of_first? 'C' rfl (by decide)
  · have hends : EndsBefore [Atom.word "END"] '.' := endsBefore_keyword (by decide)
    exact EndsBefore.spaced hends (by simp)

theorem isLegible_interval {count : Expr} {unit : Identifier} (hunit : unit.IsSound)
    (h : count.IsLegible) : (Expr.interval count unit).IsLegible := by
  have hword : IsPhrase [Atom.word "INTERVAL"] := isPhrase_keyword (by decide)
  have hname := unit.isPhrase hunit.isSegment
  apply Expr.IsLegible.of ([Atom.word "INTERVAL", .gap] ++ count.spelling ++ .gap :: unit.spelling) rfl
    ((hword.gap h.phrase).gap hname)
  · exact ne_minus_of_first? 'I' rfl (by decide)
  · have hends : EndsBefore ([Atom.word "INTERVAL", .gap] ++ count.spelling ++ [.gap] ++ unit.spelling) '.' :=
      (unit.endsBefore_dot hunit.isSegment).append hname.ne_nil
    rw [List.append_assoc] at hends
    exact hends

theorem isPhrase_target {target : MemberTarget} (h : ∀ child ∈ Node.ofMemberTarget target, child.IsLegible) :
    target.spelling.IsPhrase := by
  cases target with
  | list items => exact isPhrase_list (isPhrase_exprs h)
  | query query =>
    have hquery : query.spelling.IsPhrase := h (.query query) (by simp [Node.ofMemberTarget])
    exact hquery.enclosed
  | unnest array =>
    have harray : array.IsLegible := h (.expr array) (by simp [Node.ofMemberTarget])
    have hword : IsPhrase [Atom.word "UNNEST"] := isPhrase_keyword (by decide)
    apply isPhrase_call hword
    intro spelling hmem
    cases List.mem_singleton.mp hmem
    exact harray.phrase

theorem isLegible_member {operand : Expr} {negated : Bool} {target : MemberTarget}
    (hoperand : operand.IsLegible) (h : ∀ child ∈ Node.ofMemberTarget target, child.IsLegible) :
    (Expr.member operand negated target).IsLegible := by
  have hwords : (words (if negated then ["NOT", "IN"] else ["IN"])).IsPhrase := by
    cases negated <;> exact isPhrase_words (by decide) (by decide)
  exact Expr.IsLegible.ofLevel _ rfl ((hoperand.phrase.gap hwords).gap (isPhrase_target h))
    (show (4 : Nat) ≠ 12 by decide)

theorem isLegible_between {operand low high : Expr} {negated : Bool} (hoperand : operand.IsLegible)
    (hlow : low.IsLegible) (hhigh : high.IsLegible) :
    (Expr.between operand negated low high).IsLegible := by
  have hwords : (words (if negated then ["NOT", "BETWEEN"] else ["BETWEEN"])).IsPhrase := by
    cases negated <;> exact isPhrase_words (by decide) (by decide)
  have hand : IsPhrase [Atom.word "AND"] := isPhrase_keyword (by decide)
  have hphrase := (((hoperand.phrase.gap hwords).gap hlow.phrase).gap hand).gap hhigh.phrase
  apply Expr.IsLegible.ofLevel (operand.spelling
    ++ .gap :: words (if negated then ["NOT", "BETWEEN"] else ["BETWEEN"])
    ++ .gap :: low.spelling ++ [.gap, Atom.word "AND", .gap] ++ high.spelling) rfl
  · simpa using hphrase
  · exact show (4 : Nat) ≠ 12 by decide

theorem isLegible_isValue {operand : Expr} {negated : Bool} {value : IsValue}
    (hoperand : operand.IsLegible) : (Expr.isValue operand negated value).IsLegible := by
  have hwords : (words (if negated then ["IS", "NOT"] else ["IS"])).IsPhrase := by
    cases negated <;> exact isPhrase_words (by decide) (by decide)
  exact Expr.IsLegible.ofLevel _ rfl ((hoperand.phrase.gap hwords).gap value.isPhrase)
    (show (4 : Nat) ≠ 12 by decide)

theorem isLegible_index {base position : Expr} {kind : Option IndexKind} (hlevel : base.level = 12)
    (hbase : base.IsLegible) (hposition : position.IsLegible) :
    (Expr.index base kind position).IsLegible := by
  apply Expr.IsLegible.of (base.spelling ++ subscriptSpelling kind position.spelling) rfl
    (isPhrase_subscript hbase.phrase hposition.phrase kind)
  · rw [first?_append hbase.phrase.ne_nil]
    exact hbase.first_ne_minus hlevel
  · exact endsBefore_subscript kind

theorem eq_of_whole? {digits : String} (h : e.whole? = some digits) :
    e = .constant ⟨.number, digits⟩ ∧ ∀ c ∈ digits.toList, c.isDigit := by
  unfold Expr.whole? at h
  split at h
  · split at h
    · rename_i hall
      cases h
      exact ⟨rfl, by simpa using hall⟩
    · cases h
  · cases h

theorem isLegible_field {base : Expr} {name : Identifier} (hlevel : base.level = 12)
    (hsound : base.IsLocallySound) (hname : name.IsSegment) (h : base.IsLegible) :
    (Expr.field base name).IsLegible := by
  cases hwhole : base.whole? with
  | none =>
    have heq : (Expr.field base name).spelling = base.spelling ++ Atom.dot :: name.spelling := by
      show fieldSpelling base base.spelling name = _
      simp [fieldSpelling, hwhole]
    have hdot := name.isPhrase_dot hname
    apply Expr.IsLegible.of _ heq
    · refine h.phrase.append hdot ?_
      intro c hc
      cases hc
      exact h.endsBefore_dot hlevel hwhole
    · rw [first?_append h.phrase.ne_nil]
      exact h.first_ne_minus hlevel
    · have hends : EndsBefore (base.spelling ++ [Atom.dot] ++ name.spelling) '.' :=
        (name.endsBefore_dot hname).append (name.isPhrase hname).ne_nil
      rw [List.append_assoc] at hends
      exact hends
  | some digits =>
    have heq : (Expr.field base name).spelling = digitField digits name.raw := by
      show fieldSpelling base base.spelling name = _
      simp [fieldSpelling, hwhole]
    obtain ⟨rfl, hdigits⟩ := eq_of_whole? hwhole
    have hnumber : IsNumber digits.toList := hsound
    obtain ⟨hphrase, hends, hfirst⟩ := isPhrase_digitField hnumber.2 hdigits hname
    apply Expr.IsLegible.of _ heq hphrase _ hends
    intro c hc hminus
    rw [hfirst] at hc
    have hdigit := hdigits c (List.mem_of_mem_head? hc)
    rw [hminus] at hdigit
    cases hdigit

/-- An expression is legible if what is inside it is. -/
theorem Expr.isLegible (hlocal : e.IsLocallySound) (hbinds : e.BindsByLevel)
    (hsound : ∀ child ∈ Node.ofExpr e, child.IsLocallySound)
    (h : ∀ child ∈ Node.ofExpr e, child.IsLegible) : e.IsLegible := by
  cases e with
  | constant constant => exact isLegible_constant hlocal
  | name name =>
    have hsegments := QualifiedName.isSegment_of_isSound hlocal
    exact .of _ rfl (name.isPhrase hsegments) (name.first_ne_minus hsegments)
      (name.endsBefore_dot hsegments)
  | star => exact .ofLevel [Atom.symbol .star "*"] rfl (isPhrase_symbol (by decide)) (by decide)
  | call function distinct args nulls => exact isLegible_call hlocal.1 h
  | array type items => exact isLegible_array hlocal.1 h
  | arrayQuery query =>
    have hquery : query.spelling.IsPhrase := h (.query query) (by simp [Node.ofExpr])
    exact isLegible_headed (show isKeyword "ARRAY" by decide) hquery rfl
  | arrayAgg distinct operand nulls order window offset => exact isLegible_arrayAgg hlocal h
  | stringAgg function distinct operand delimiter nulls order window accessor =>
    exact isLegible_stringAgg hlocal h
  | «over» operand window =>
    have hoperand : operand.IsLegible := h (.expr operand) (by simp [Node.ofExpr])
    exact isLegible_over hlocal.1 hlocal.2 hoperand fun child hchild =>
      h child (List.mem_cons_of_mem _ hchild)
  | binary op left right =>
    have hleft : left.IsLegible := h (.expr left) (by simp [Node.ofExpr])
    have hright : right.IsLegible := h (.expr right) (by simp [Node.ofExpr])
    exact isLegible_binary hleft hright
  | unary op operand =>
    have hoperand : operand.IsLegible := h (.expr operand) (by simp [Node.ofExpr])
    exact isLegible_unary hbinds hoperand
  | paren inner =>
    have hinner : inner.IsLegible := h (.expr inner) (by simp [Node.ofExpr])
    exact isLegible_enclosed hinner.phrase rfl
  | subquery query =>
    have hquery : query.spelling.IsPhrase := h (.query query) (by simp [Node.ofExpr])
    exact isLegible_enclosed hquery rfl
  | existsQuery query =>
    have hquery : query.spelling.IsPhrase := h (.query query) (by simp [Node.ofExpr])
    exact isLegible_headed (show isKeyword "EXISTS" by decide) hquery rfl
  | struct fields items => exact isLegible_struct hlocal.1 hlocal.2 h
  | cast safe operand type =>
    have hoperand : operand.IsLegible := h (.expr operand) (by simp [Node.ofExpr])
    exact isLegible_cast hlocal.2 hoperand
  | extract part operand zone =>
    have hpart : part.IsLegible := h (.expr part) (by simp [Node.ofExpr])
    have hoperand : operand.IsLegible := h (.expr operand) (by simp [Node.ofExpr])
    apply isLegible_extract hpart hoperand
    rintro zone rfl
    have hzone : zone.IsLegible := h (.expr zone) (by simp [Node.ofExpr, Node.exprs])
    exact hzone
  | case operand branches otherwise => exact isLegible_case h
  | interval count unit =>
    have hcount : count.IsLegible := h (.expr count) (by simp [Node.ofExpr])
    exact isLegible_interval hlocal hcount
  | member operand negated target =>
    have hoperand : operand.IsLegible := h (.expr operand) (by simp [Node.ofExpr])
    exact isLegible_member hoperand fun child hchild => h child (List.mem_cons_of_mem _ hchild)
  | between operand negated low high =>
    have hoperand : operand.IsLegible := h (.expr operand) (by simp [Node.ofExpr])
    have hlow : low.IsLegible := h (.expr low) (by simp [Node.ofExpr])
    have hhigh : high.IsLegible := h (.expr high) (by simp [Node.ofExpr])
    exact isLegible_between hoperand hlow hhigh
  | isValue operand negated value =>
    have hoperand : operand.IsLegible := h (.expr operand) (by simp [Node.ofExpr])
    exact isLegible_isValue hoperand
  | index base kind position =>
    have hbase : base.IsLegible := h (.expr base) (by simp [Node.ofExpr])
    have hposition : position.IsLegible := h (.expr position) (by simp [Node.ofExpr])
    exact isLegible_index hbinds hbase hposition
  | field base name =>
    have hbase : base.IsLegible := h (.expr base) (by simp [Node.ofExpr])
    have hlocalBase : (Node.expr base).IsLocallySound := hsound (.expr base) (by simp [Node.ofExpr])
    exact isLegible_field hbinds hlocalBase.1 hlocal.2 hbase

end Expressions

section Queries

theorem isPhrase_commonTable {table : CommonTable} (hname : table.name.IsSound)
    (h : table.query.spelling.IsPhrase) :
    ∀ spelling ∈ commonTableSpellings [table], spelling.IsPhrase := by
  obtain ⟨name, query⟩ := table
  intro spelling hmem
  rw [commonTableSpellings, commonTableSpellings] at hmem
  cases List.mem_singleton.mp hmem
  have has : IsPhrase [Atom.word "AS"] := isPhrase_keyword (by decide)
  have hphrase := ((name.isPhrase hname.isSegment).gap has).gap h.enclosed
  simpa using hphrase

theorem isPhrase_commonTables {tables : List CommonTable}
    (h : ∀ child ∈ tables.map Node.commonTable, child.IsLegible) :
    ∀ spelling ∈ commonTableSpellings tables, spelling.IsPhrase := by
  induction tables with
  | nil =>
    intro spelling hmem
    rw [commonTableSpellings] at hmem
    cases hmem
  | cons table tables ih =>
    have hfirst : ∀ spelling ∈ commonTableSpellings [table], spelling.IsPhrase :=
      h (.commonTable table) (by simp)
    obtain ⟨name, query⟩ := table
    intro spelling hmem
    rw [commonTableSpellings] at hmem hfirst
    rcases List.mem_cons.mp hmem with rfl | hmem
    · exact hfirst _ List.mem_cons_self
    · exact ih (fun child hchild => h child (List.mem_cons_of_mem _ hchild)) spelling hmem

theorem Query.isLegible {query : Query} (hlocal : query.IsLocallySound)
    (h : ∀ child ∈ (Node.query query).children, child.IsLegible) : query.spelling.IsPhrase := by
  obtain ⟨common, body, order⟩ := query
  simp only [Node.children, List.mem_append, List.mem_singleton] at h
  have hbody : body.spelling.IsPhrase := h (.setExpr body) (.inl (.inr rfl))
  rw [Query.spelling_mk]
  apply isPhrase_spaced (by simp)
  intro spelling hmem
  rcases List.mem_append.mp hmem with hmem | hmem
  · refine isPhrase_optional ?_ spelling hmem
    rintro ⟨isRecursive, tables⟩ rfl
    have htables : tables ≠ [] := hlocal.1 _ rfl
    have hphrases := isPhrase_commonTables fun child hchild => h child (.inl (.inl hchild))
    have hne : commonTableSpellings tables ≠ [] := by
      obtain ⟨⟨name, query⟩, rest, rfl⟩ := List.exists_cons_of_ne_nil htables
      simp [commonTableSpellings]
    have hcommas := isPhrase_commas hne hphrases
    cases isRecursive with
    | true => exact isPhrase_clause (by decide) (by decide) hcommas
    | false => exact isPhrase_clause (by decide) (by decide) hcommas
  · rcases List.mem_cons.mp hmem with rfl | hmem
    · exact hbody
    · refine isPhrase_optional ?_ spelling hmem
      rintro order rfl
      exact RowOrder.isPhrase (hlocal.2 order rfl) fun child hchild => h child (.inr hchild)

theorem SetExpr.isLegible {body : SetExpr} (h : ∀ child ∈ Node.ofSetExpr body, child.IsLegible) :
    body.spelling.IsPhrase := by
  cases body with
  | select select =>
    have hselect : select.spelling.IsPhrase := h (.select select) (by simp [Node.ofSetExpr])
    exact hselect
  | paren query =>
    have hquery : query.spelling.IsPhrase := h (.query query) (by simp [Node.ofSetExpr])
    exact hquery.enclosed
  | combine op quantifier left right =>
    have hleft : left.spelling.IsPhrase := h (.setExpr left) (by simp [Node.ofSetExpr])
    have hright : right.spelling.IsPhrase := h (.setExpr right) (by simp [Node.ofSetExpr])
    exact (hleft.gap (isPhrase_combine op quantifier)).gap hright

/-- The star of a selection, perhaps after the name of a table. -/
def starSpelling (qualifier : Option QualifiedName) : Spelling :=
  match qualifier with
  | some name => name.spelling ++ [Atom.dot, Atom.symbol .star "*"]
  | none => [Atom.symbol .star "*"]

theorem selectItemSpellings_cons (item : SelectItem) (items : List SelectItem) :
    selectItemSpellings (item :: items) =
      (match item with
        | .wildcard qualifier except replace =>
          starSpelling qualifier ++ suffixSpelling "EXCEPT" (except.map Identifier.spelling)
            ++ suffixSpelling "REPLACE" (replacementSpellings replace)
        | .expr e aliasName => e.spelling ++ aliasSpelling aliasName) :: selectItemSpellings items := by
  cases item with
  | wildcard qualifier except replace => cases qualifier <;> rfl
  | expr e aliasName => rfl

theorem isPhrase_selectItems {items : List SelectItem}
    (h : ∀ child ∈ items.map Node.selectItem, child.IsLegible) :
    ∀ spelling ∈ selectItemSpellings items, spelling.IsPhrase := by
  induction items with
  | nil =>
    intro spelling hmem
    rw [selectItemSpellings] at hmem
    cases hmem
  | cons item items ih =>
    have hfirst : ∀ spelling ∈ selectItemSpellings [item], spelling.IsPhrase :=
      h (.selectItem item) (by simp)
    intro spelling hmem
    rw [selectItemSpellings_cons] at hmem hfirst
    rcases List.mem_cons.mp hmem with rfl | hmem
    · exact hfirst _ List.mem_cons_self
    · exact ih (fun child hchild => h child (List.mem_cons_of_mem _ hchild)) spelling hmem

theorem isPhrase_star {qualifier : Option QualifiedName} (h : ∀ name ∈ qualifier, name.IsSound) :
    (starSpelling qualifier).IsPhrase := by
  have hstar : IsPhrase [Atom.symbol .star "*"] := isPhrase_symbol (by decide)
  cases qualifier with
  | none => exact hstar
  | some name =>
    have hsegments := QualifiedName.isSegment_of_isSound (h name rfl)
    have hdot : IsPhrase [Atom.dot] := isPhrase_symbol (by decide)
    have hstarred : IsPhrase ([Atom.dot] ++ [Atom.symbol .star "*"]) := by
      apply hdot.append hstar
      intro c hc
      cases hc
      exact endsBefore_ofDot (by decide)
    apply (name.isPhrase hsegments).append hstarred
    intro c hc
    cases hc
    exact name.endsBefore_dot hsegments

theorem SelectItem.isLegible {item : SelectItem} (hlocal : item.IsLocallySound)
    (h : ∀ child ∈ Node.ofSelectItem item, child.IsLegible) :
    ∀ spelling ∈ selectItemSpellings [item], spelling.IsPhrase := by
  intro spelling hmem
  rw [selectItemSpellings_cons, selectItemSpellings] at hmem
  cases item with
  | wildcard qualifier except replace =>
    cases List.mem_singleton.mp hmem
    exact isPhrase_suffix (by decide) (isPhrase_suffix (by decide) (isPhrase_star hlocal.1)
      (isPhrase_names hlocal.2.1)) (isPhrase_replacements hlocal.2.2 h)
  | expr e aliasName =>
    cases List.mem_singleton.mp hmem
    have hlegible : e.IsLegible := h (.expr e) (by simp [Node.ofSelectItem])
    exact isPhrase_aliased hlegible.phrase hlocal.2

/-- A clause with an expression that may be left out. -/
theorem isPhrase_exprClause {keyword : List String} (hne : keyword ≠ [])
    (hkeyword : ∀ text ∈ keyword, isKeyword text) {o : Option Expr}
    (h : ∀ child ∈ Node.exprs o.toList, child.IsLegible) :
    ∀ spelling ∈ (o.map fun e => clauseSpelling keyword e.spelling).toList, spelling.IsPhrase := by
  apply isPhrase_optional
  rintro e rfl
  have hlegible : e.IsLegible := h (.expr e) (by simp [Node.exprs])
  exact isPhrase_clause hne hkeyword hlegible.phrase

theorem Select.isLegible {select : Select} (hlocal : select.IsLocallySound)
    (h : ∀ child ∈ Node.ofSelect select, child.IsLegible) : select.spelling.IsPhrase := by
  obtain ⟨distinct, shape, items, source, filter, groupBy, having, qualify⟩ := select
  simp only [Node.ofSelect, List.mem_append] at h
  rw [Select.spelling_mk]
  have hphrases := isPhrase_selectItems fun child hchild =>
    h child (.inl (.inl (.inl (.inl (.inl hchild)))))
  have hne : selectItemSpellings items ≠ [] := by
    obtain ⟨item, rest, rfl⟩ := List.exists_cons_of_ne_nil hlocal.items
    cases item <;> simp [selectItemSpellings]
  have hhead := (isPhrase_selectHead distinct shape).gap (isPhrase_commas hne hphrases)
  have hsource : ∀ spelling ∈ (source.map fun source => clauseSpelling ["FROM"] source.spelling).toList,
      spelling.IsPhrase := by
    apply isPhrase_optional
    rintro table rfl
    have htable : table.spelling.IsPhrase :=
      h (.tableExpr table) (.inl (.inl (.inl (.inl (.inr (by simp))))))
    exact isPhrase_clause (by decide) (by decide) htable
  have hfilter := isPhrase_exprClause (show ["WHERE"] ≠ [] by decide) (by decide) fun child hchild =>
    h child (.inl (.inl (.inl (.inr hchild))))
  have hgroup := isPhrase_listClauses (show ["GROUP", "BY"] ≠ [] by decide) (by decide)
    (isPhrase_exprs fun child hchild => h child (.inr hchild))
  have hhaving := isPhrase_exprClause (show ["HAVING"] ≠ [] by decide) (by decide) fun child hchild =>
    h child (.inl (.inl (.inr hchild)))
  have hqualify := isPhrase_exprClause (show ["QUALIFY"] ≠ [] by decide) (by decide) fun child hchild =>
    h child (.inl (.inr hchild))
  apply isPhrase_spaced (by simp)
  intro spelling hmem
  simp only [List.mem_append, List.mem_cons] at hmem
  rcases hmem with (((((rfl | hmem) | hmem) | hmem) | hmem) | hmem)
  · exact hhead
  · exact hsource spelling hmem
  · exact hfilter spelling hmem
  · exact hgroup spelling hmem
  · exact hhaving spelling hmem
  · exact hqualify spelling hmem

theorem isPhrase_offset {spelling : Spelling} (h : spelling.IsPhrase)
    (offset : Option (Option Identifier)) : (∀ inner ∈ offset, ∀ name ∈ inner, name.IsSound) →
    IsPhrase (spelling ++ match offset with
      | some offset => .gap :: words ["WITH", "OFFSET"] ++ aliasSpelling offset
      | none => []) := by
  intro hoffset
  cases offset with
  | none =>
    rw [List.append_nil]
    exact h
  | some offset =>
    have hwords : (words ["WITH", "OFFSET"]).IsPhrase := isPhrase_words (by decide) (by decide)
    have hphrase := isPhrase_aliased (h.gap hwords) (hoffset offset rfl)
    rw [List.append_assoc] at hphrase
    exact hphrase

theorem TableExpr.isLegible {table : TableExpr} (hlocal : table.IsLocallySound)
    (h : ∀ child ∈ Node.ofTableExpr table, child.IsLegible) : table.spelling.IsPhrase := by
  cases table with
  | table name aliasName =>
    exact isPhrase_aliased (name.isPhrase (QualifiedName.isSegment_of_isSound hlocal.1)) hlocal.2
  | subquery query aliasName =>
    have hquery : query.spelling.IsPhrase := h (.query query) (by simp [Node.ofTableExpr])
    exact isPhrase_aliased hquery.enclosed hlocal
  | unnest array aliasName offset =>
    have harray : array.IsLegible := h (.expr array) (by simp [Node.ofTableExpr])
    have hword : IsPhrase [Atom.word "UNNEST"] := isPhrase_keyword (by decide)
    have hcall : (callSpelling [Atom.word "UNNEST"] [array.spelling]).IsPhrase := by
      apply isPhrase_call hword
      intro spelling hmem
      cases List.mem_singleton.mp hmem
      exact harray.phrase
    exact isPhrase_offset (isPhrase_aliased hcall hlocal.2.1) offset hlocal.2.2
  | join left kind right condition =>
    have hleft : left.spelling.IsPhrase := h (.tableExpr left) (by simp [Node.ofTableExpr])
    have hright : right.spelling.IsPhrase := h (.tableExpr right) (by simp [Node.ofTableExpr])
    have hjoin {suffix : Option Spelling} (hsuffix : ∀ inner ∈ suffix, inner.IsPhrase) :=
      isPhrase_join hleft kind hright hsuffix
    cases condition with
    | none => exact @hjoin none (by simp)
    | some condition =>
      cases condition with
      | condition test =>
        have htest : test.IsLegible := h (.expr test) (by simp [Node.ofTableExpr, Node.ofJoinCondition])
        have hword : IsPhrase [Atom.word "ON"] := isPhrase_keyword (by decide)
        refine @hjoin (some ([Atom.word "ON", .gap] ++ test.spelling)) ?_
        intro inner hinner
        cases hinner
        exact hword.gap htest.phrase
      | columns columns =>
        have hnames : ∀ name ∈ columns, name.IsSound := hlocal.2.2 _ rfl
        have hword : IsPhrase [Atom.word "USING"] := isPhrase_keyword (by decide)
        refine @hjoin (some (Atom.word "USING" :: .gap
          :: callSpelling [] (columns.map Identifier.spelling))) ?_
        intro inner hinner
        cases hinner
        exact hword.gap (isPhrase_list (isPhrase_names hnames))

end Queries

section Statements

theorem isKeyword_createWords {object : String} (hobject : isKeyword object) (orReplace : Bool)
    (temporary : Option TempKeyword) : ∀ text ∈ createWords orReplace temporary object, isKeyword text := by
  have hreplace : ∀ text ∈ if orReplace then ["OR", "REPLACE"] else [], isKeyword text := by
    cases orReplace <;> decide
  have htemporary : ∀ text ∈ (temporary.map TempKeyword.text).toList, isKeyword text := by
    rcases temporary with _ | keyword
    · decide
    · cases keyword <;> decide
  intro text hmem
  simp only [createWords, List.cons_append, List.mem_cons, List.mem_append, List.not_mem_nil,
    or_false] at hmem
  rcases hmem with rfl | (hmem | hmem) | rfl
  · decide
  · exact hreplace text hmem
  · exact htemporary text hmem
  · exact hobject

theorem isPhrase_object {head : List String} (hne : head ≠ []) (hhead : ∀ text ∈ head, isKeyword text)
    (ifNotExists : Bool) {name : QualifiedName} (hname : name.IsSound) :
    (objectSpelling head ifNotExists name).IsPhrase := by
  have hwords : (words (head ++ if ifNotExists then ["IF", "NOT", "EXISTS"] else [])).IsPhrase := by
    apply isPhrase_words (by simp [hne])
    intro text hmem
    rcases List.mem_append.mp hmem with hmem | hmem
    · exact hhead text hmem
    · cases ifNotExists with
      | false => cases hmem
      | true =>
        have hexists : ∀ text ∈ ["IF", "NOT", "EXISTS"], isKeyword text := by decide
        exact hexists text hmem
  exact hwords.gap (name.isPhrase (QualifiedName.isSegment_of_isSound hname))

theorem isPhrase_options {options : List OptionItem} (hsound : ∀ item ∈ options, item.IsSound)
    (h : ∀ child ∈ Node.optionValues options, child.IsLegible) :
    ∀ spelling ∈ optionSpellings options, spelling.IsPhrase := by
  intro spelling hmem
  unfold optionSpellings at hmem
  split at hmem
  · cases hmem
  · cases List.mem_singleton.mp hmem
    have hword : IsPhrase [Atom.word "OPTIONS"] := isPhrase_keyword (by decide)
    apply isPhrase_call hword
    apply isPhrase_map
    intro item hitem
    have hvalue : item.value.IsLegible := h (.expr item.value) (List.mem_map_of_mem (f := fun item =>
      Node.expr (OptionItem.value item)) hitem)
    have heq : IsPhrase [Atom.symbol .eq "="] := isPhrase_symbol (by decide)
    have hphrase := ((item.name.isPhrase (hsound item hitem).name.isSegment).gap heq).gap hvalue.phrase
    simpa [OptionItem.spelling] using hphrase

theorem isPhrase_body {body : FunctionBody} (hsound : body.IsSound)
    (h : ∀ child ∈ Node.ofBody body, child.IsLegible) : ∀ spelling ∈ body.spellings, spelling.IsPhrase := by
  intro spelling hmem
  cases body with
  | sql value =>
    have hvalue : value.IsLegible := h (.expr value) (by simp [Node.ofBody])
    cases List.mem_singleton.mp hmem
    exact isPhrase_clause (by decide) (by decide) hvalue.phrase
  | «foreign» language code options =>
    obtain ⟨hlanguage, hcode, -, hoptions⟩ := hsound
    rcases List.mem_append.mp hmem with hmem | hmem
    · rcases List.mem_pair.mp hmem with rfl | rfl
      · exact isPhrase_clause (by decide) (by decide) (language.isPhrase hlanguage.isSegment)
      · exact isPhrase_clause (by decide) (by decide) (code.isPhrase hcode)
    · exact isPhrase_options hoptions h spelling hmem

theorem FunctionDef.isLegible {function : FunctionDef} (hlocal : function.IsLocallySound)
    (h : ∀ child ∈ Node.ofBody function.body, child.IsLegible) : function.spelling.IsPhrase := by
  have hhead := isPhrase_object (createWords_ne_nil function.orReplace function.temporary "FUNCTION")
    (isKeyword_createWords (by decide) _ _) false hlocal.name
  have hcall := isPhrase_call hhead
    (isPhrase_map fun param hmem => Declaration.isPhrase (hlocal.params param hmem))
  apply isPhrase_spaced (by simp)
  intro spelling hmem
  simp only [List.mem_append, List.mem_cons] at hmem
  rcases hmem with (rfl | hmem) | hmem
  · exact hcall
  · refine isPhrase_optional ?_ spelling hmem
    intro type htype
    exact isPhrase_clause (by decide) (by decide)
      (type.isTypePhrase (hlocal.returns type htype)).toIsPhrase
  · exact isPhrase_body hlocal.body h spelling hmem

theorem TableDef.isLegible {table : TableDef} (hsound : table.IsSound)
    (h : ∀ child ∈ Node.ofAction (.createTable table), child.IsLegible) : table.spelling.IsPhrase := by
  simp only [Node.ofAction, List.mem_append] at h
  have hhead := isPhrase_object (createWords_ne_nil table.orReplace table.temporary "TABLE")
    (isKeyword_createWords (by decide) _ _) table.ifNotExists hsound.name
  have hcolumns := isPhrase_list (isPhrase_map fun column hmem =>
    Declaration.isPhrase (hsound.columns column hmem))
  apply isPhrase_spaced (by simp)
  intro spelling hmem
  simp only [List.mem_append, List.mem_cons] at hmem
  rcases hmem with (rfl | hmem) | hmem
  · split
    · exact hhead
    · have hcall := hhead.gap hcolumns
      simpa [callSpelling] using hcall
  · exact isPhrase_options hsound.options (fun child hchild => h child (.inl hchild)) spelling hmem
  · refine isPhrase_optional ?_ spelling hmem
    intro query hquery
    have hphrase : query.spelling.IsPhrase := h (.query query) (.inr (by simp_all))
    exact isPhrase_clause (by decide) (by decide) hphrase

theorem ViewDef.isLegible {view : ViewDef} (hsound : view.IsSound)
    (h : ∀ child ∈ Node.ofAction (.createView view), child.IsLegible) : view.spelling.IsPhrase := by
  simp only [Node.ofAction, List.mem_append, List.mem_singleton] at h
  have hhead := isPhrase_object (createWords_ne_nil view.orReplace none "VIEW")
    (isKeyword_createWords (by decide) _ _) view.ifNotExists hsound.name
  have hquery : view.query.spelling.IsPhrase := h (.query view.query) (.inr rfl)
  apply isPhrase_spaced (by simp)
  intro spelling hmem
  simp only [List.mem_append, List.mem_cons, List.not_mem_nil, or_false] at hmem
  rcases hmem with (rfl | hmem) | rfl
  · exact hhead
  · exact isPhrase_options hsound.options (fun child hchild => h child (.inl hchild)) spelling hmem
  · exact isPhrase_clause (by decide) (by decide) hquery

theorem isPhrase_source {source : InsertSource} (hsound : source.IsSound)
    (h : ∀ child ∈ Node.ofInsertSource source, child.IsLegible) : source.spelling.IsPhrase := by
  cases source with
  | query body =>
    have hquery : body.spelling.IsPhrase := h (.query body) (by simp [Node.ofInsertSource])
    exact hquery
  | values rows =>
    have hrows : ∀ spelling ∈ rows.map rowSpelling, spelling.IsPhrase := by
      apply isPhrase_map
      intro row hrow
      apply isPhrase_list
      apply isPhrase_exprs
      intro child hchild
      exact h child (List.mem_flatMap.mpr ⟨row, hrow, hchild⟩)
    exact isPhrase_clause (by decide) (by decide) (isPhrase_commas (by simp [hsound.1]) hrows)

theorem Insertion.isLegible {insertion : Insertion} (hsound : insertion.IsSound)
    (h : ∀ child ∈ Node.ofInsertSource insertion.source, child.IsLegible) :
    insertion.spelling.IsPhrase := by
  have htable := insertion.table.isPhrase (QualifiedName.isSegment_of_isSound hsound.table)
  have hclause : (clauseSpelling ["INSERT", "INTO"] insertion.table.spelling).IsPhrase :=
    isPhrase_clause (by decide) (by decide) htable
  have hhead : (clauseSpelling ["INSERT", "INTO"] insertion.table.spelling
      ++ columnSpelling insertion.columns).IsPhrase := by
    unfold columnSpelling
    split
    · rw [List.append_nil]
      exact hclause
    · exact hclause.gap (isPhrase_list (isPhrase_names hsound.columns))
  exact hhead.gap (isPhrase_source hsound.source h)

theorem Action.isLegible {action : Action} (hsound : action.IsSound)
    (h : ∀ child ∈ Node.ofAction action, child.IsLegible) : action.spelling.IsPhrase := by
  cases action with
  | query body => exact h (.query body) (by simp [Node.ofAction])
  | createFunction definition => exact h (.function definition) (by simp [Node.ofAction])
  | createTable definition => exact definition.isLegible hsound h
  | createView definition => exact definition.isLegible hsound h
  | insert insertion => exact insertion.isLegible hsound h

end Statements

section Scripts

theorem isGenuine_commentGlyph {text : String} (h : IsComment text) :
    (commentGlyph text).IsGenuine ∧ (commentGlyph text).kind.isComment := by
  obtain ⟨hline | hblock, -⟩ := h
  · have hkind : (commentGlyph text).kind = .lineComment := by
      obtain ⟨opener, body, htext, hopener, -⟩ := hline
      have hnone : ['/', '*'].isPrefixOf text.toList = false := by
        rw [htext]
        rcases hopener with rfl | rfl <;> rfl
      simp [commentGlyph, hnone]
    unfold Glyph.IsGenuine
    rw [hkind]
    exact ⟨hline, rfl⟩
  · have hkind : (commentGlyph text).kind = .blockComment := by
      obtain ⟨body, htext, -⟩ := hblock
      simp [commentGlyph, htext]
    unfold Glyph.IsGenuine
    rw [hkind]
    exact ⟨hblock, rfl⟩

theorem isRow_comments {comments : List String} (h : ∀ comment ∈ comments, IsComment comment) :
    ∀ row ∈ commentRows comments, row.IsRow := by
  intro row hmem
  obtain ⟨comment, hcomment, rfl⟩ := List.mem_map.mp hmem
  exact .single (isGenuine_commentGlyph (h comment hcomment)).1 rfl

theorem isRow_lines {rows : List Spelling} (hne : rows ≠ []) (h : ∀ row ∈ rows, row.IsRow) :
    (lines rows).IsRow := by
  induction rows with
  | nil => exact absurd rfl hne
  | cons row rows ih =>
    cases rows with
    | nil => simpa [lines] using h row (by simp)
    | cons next rows =>
      have hrest := ih (by simp) fun other hmem => h other (List.mem_cons_of_mem _ hmem)
      have hrow := (h row (by simp)).line hrest
      simp only [lines, List.intercalate_cons_cons, List.append_assoc] at hrow ⊢
      exact hrow

theorem isLegible_lines {rows : List Spelling} (h : ∀ row ∈ rows, row.IsRow) : (lines rows).IsLegible := by
  cases rows with
  | nil => exact ⟨by simp [lines], by simp [lines]⟩
  | cons row rows => exact (isRow_lines (by simp) h).legible

/-- The row of a statement, with a semicolon or without. -/
theorem isPhrase_terminated {spelling : Spelling} (h : spelling.IsPhrase) (isTerminated : Bool) :
    IsPhrase (if isTerminated then spelling ++ [Atom.symbol .semicolon ";"] else spelling) := by
  have hsemicolon : IsPhrase [Atom.symbol .semicolon ";"] := isPhrase_symbol (by decide)
  split
  · exact h.appendNeutral hsemicolon (by decide)
  · exact h

theorem Statement.isRow {statement : Statement}
    (hcomments : ∀ comment ∈ statement.comments, IsComment comment)
    (haction : statement.action.spelling.IsPhrase) (isTerminated : Bool) :
    ∀ row ∈ statement.rows isTerminated, row.IsRow := by
  intro row hmem
  rcases List.mem_append.mp hmem with hmem | hmem
  · exact isRow_comments hcomments row hmem
  · cases List.mem_singleton.mp hmem
    exact (isPhrase_terminated haction isTerminated).toIsRow

theorem isRow_statements {statements : List Statement} (lastIsTerminated : Bool)
    (h : ∀ statement ∈ statements, ∀ isTerminated, ∀ row ∈ statement.rows isTerminated, row.IsRow) :
    ∀ row ∈ statementRows [] lastIsTerminated statements, row.IsRow := by
  induction statements with
  | nil =>
    intro row hmem
    cases hmem
  | cons statement statements ih =>
    intro row hmem
    cases statements with
    | nil => exact h statement (by simp) lastIsTerminated row hmem
    | cons next statements =>
      rw [statementRows, List.append_nil] at hmem
      rcases List.mem_append.mp hmem with hmem | hmem
      · exact h statement (by simp) true row hmem
      · exact ih (fun other hother => h other (List.mem_cons_of_mem _ hother)) row hmem

theorem Script.isRow {script : Script}
    (htrailing : ∀ comment ∈ script.trailingComments, IsComment comment)
    (hcomments : ∀ statement ∈ script.statements, ∀ comment ∈ statement.comments, IsComment comment)
    (h : ∀ statement ∈ script.statements, statement.action.spelling.IsPhrase) :
    ∀ row ∈ script.rows [], row.IsRow := by
  intro row hmem
  simp only [Script.rows, ite_self, List.append_nil] at hmem
  rcases List.mem_append.mp hmem with hmem | hmem
  · refine isRow_statements _ ?_ row hmem
    intro statement hstatement
    exact Statement.isRow (hcomments statement hstatement) (h statement hstatement)
  · exact isRow_comments htrailing row hmem

end Scripts

/-- Every node of a sound tree is legible. -/
theorem Node.isLegible (node : Node) : node.IsSound → node.IsLegible := by
  induction node using Node.induct with
  | h node ih =>
    intro hsound
    have hlocal := hsound.here
    have h : ∀ child ∈ node.children, child.IsLegible := fun child hchild =>
      ih child hchild (hsound.child hchild)
    cases node with
    | script body =>
      refine Script.isRow hlocal ?_ fun statement hmem =>
        h (.statement statement) (List.mem_map_of_mem hmem)
      intro statement hmem
      have hstatement : (Node.statement statement).IsLocallySound :=
        (hsound.child (List.mem_map_of_mem hmem)).here
      exact hstatement.comments
    | statement body => exact Action.isLegible hlocal.action h
    | function definition => exact definition.isLegible hlocal h
    | query body => exact body.isLegible hlocal h
    | commonTable table => exact isPhrase_commonTable hlocal (h (.query table.query) (by simp [children]))
    | setExpr body => exact body.isLegible h
    | select body => exact body.isLegible hlocal h
    | selectItem item => exact item.isLegible hlocal h
    | tableExpr table => exact table.isLegible hlocal h
    | expr body =>
      exact body.isLegible hlocal.1 hlocal.2 (fun child hchild => (hsound.child hchild).here) h

end SqlLayout
