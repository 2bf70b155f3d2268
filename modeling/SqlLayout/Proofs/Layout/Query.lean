import SqlLayout.Proofs.Layout.Printing

/-!
# Layouts of Expressions and Queries

The forms of an expression or a query print its spelling, by induction on the tree.
-/

namespace SqlLayout

open Spelling Form

/-- A text split at any place spells what the whole text does. -/
theorem prints_texts {first second : String} {spelling : Spelling}
    (h : first.toList ++ second.toList = spelling.plain) :
    (Form.line [text first, text second]).Prints spelling := by
  have hline : (Doc.line [.text first, .text second]).Spells spelling := by
    refine ⟨.line (by simp [Doc.IsPlain.text]), ?_⟩
    rw [Doc.content_line_cons, Doc.content_line_cons, Doc.content_text, Doc.content_text,
      String.toList_append, String.toList_append, ← h]
    simp [Doc.content, Doc.texts, Doc.textsOf]
  exact ⟨hline, hline.prints⟩

theorem plain_digitField (digits name : String) :
    (digitField digits name).plain = digits.toList ++ '.' :: name.toList := by
  have hdot : ".".toList = ['.'] := by decide
  have hname := List.take_append_drop (Token.Scan.exponent name.toList) name.toList
  unfold digitField
  by_cases hrest : (String.ofList (name.toList.drop (Token.Scan.exponent name.toList))).isEmpty
  · have hdrop : name.toList.drop (Token.Scan.exponent name.toList) = [] := by
      simpa using hrest
    rw [hdrop, List.append_nil] at hname
    simp [hrest, hdot, hname]
  · simp [hrest, hdot, Identifier.glyph]

theorem Expr.eq_constant_of_whole? {base : Expr} {digits : String} (h : base.whole? = some digits) :
    base = .constant ⟨.number, digits⟩ := by
  unfold Expr.whole? at h
  split at h
  · split at h
    · cases h
      rfl
    · cases h
  · cases h

theorem prints_field {base : Expr} {spelling : Spelling} (h : base.form.toForm.Prints spelling)
    (name : Identifier) :
    (Form.line [base.form.toForm, .text ("." ++ name.raw)]).Prints
      (fieldSpelling base spelling name) := by
  have hdot : ".".toList = ['.'] := by decide
  unfold fieldSpelling
  cases hwhole : base.whole? with
  | none =>
    have htext : (text ("." ++ name.raw)).Prints (Atom.dot :: name.spelling) :=
      prints_text (by simp [Identifier.toList_raw, Atom.dot])
    exact prints_pairLine h htext
  | some digits =>
    have hbase := Expr.eq_constant_of_whole? hwhole
    rw [hbase]
    apply prints_texts
    rw [plain_digitField, String.toList_append, hdot, List.singleton_append]

/-- A body in parentheses after a head that does not end in a blank. -/
theorem prints_headed {form : Form} {spelling : Spelling} {head : String} (headSpelling : Spelling)
    (h : form.Prints spelling) (hhead : head.toList = (headSpelling ++ [Atom.parenOpen]).plain) :
    (Form.enclosed head form ")").Prints (headSpelling ++ Spelling.enclosed spelling) := by
  have hclose : ")".toList = plain [Atom.parenClose] := by decide
  exact (prints_enclosed h hhead hclose).of_eq (by simp [Spelling.enclosed])

/-- An aggregate whose name is its head up to the parenthesis. -/
theorem prints_aggregateForm {forms : List Form} {spellings : List Spelling} {head : String}
    (name : Spelling) (h : List.Forall₂ Form.Prints forms spellings)
    (hhead : head.toList = (name ++ [Atom.parenOpen]).plain) :
    (aggregate head forms).Prints (aggregateSpelling name spellings) :=
  (prints_aggregate h hhead).of_eq (by simp [aggregateSpelling, Spelling.enclosed])

/-- A call whose name is its head up to the parenthesis. -/
theorem prints_named {forms : List Form} {spellings : List Spelling} {head : String}
    (name : Spelling) (h : List.Forall₂ Form.Prints forms spellings)
    (hhead : head.toList = (name ++ [Atom.parenOpen]).plain) :
    (call head ")" forms).Prints (callSpelling name spellings) := by
  have hclose : ")".toList = plain [Atom.parenClose] := by decide
  exact (prints_call h hhead hclose (by decide)).of_eq (by simp [callSpelling])

/-- A modifier as a part of its own. -/
theorem prints_option {α : Type} {text : α → String} {spelling : α → Spelling}
    (htext : ∀ a, (text a).toList = (spelling a).plain) (o : Option α) :
    List.Forall₂ Form.Prints (o.map fun a => Form.text (text a)).toList (o.map spelling).toList := by
  cases o with
  | none => exact .nil
  | some a => exact .cons (prints_text (htext a)) .nil

theorem prints_sign {operand : Expr} {spelling : Spelling} (op : UnaryOp)
    (h : operand.form.toForm.Prints spelling) :
    (Form.line [.text (unaryHead op operand), operand.form.toForm]).Prints
      (signSpelling op operand spelling) := by
  unfold unaryHead signSpelling
  split
  · have hhead : (text (op.text ++ " ")).Prints (op.spelling ++ [Atom.gap]) :=
      prints_text (by simp [UnaryOp.toList_text])
    exact (prints_pairLine hhead h).of_eq (by simp)
  · have hhead : (text op.text).Prints op.spelling := prints_text op.toList_text
    exact prints_pairLine hhead h

theorem prints_member {operand target : Form} {spelling targetSpelling : Spelling}
    (h : operand.Prints spelling) (negated : Bool) (htarget : target.Prints targetSpelling) :
    (Form.line [operand, .text (if negated then " NOT IN " else " IN "), target]).Prints
      (spelling ++ .gap :: words (if negated then ["NOT", "IN"] else ["IN"])
        ++ .gap :: targetSpelling) := by
  have hphrase : (text (if negated then " NOT IN " else " IN ")).Prints
      (.gap :: words (if negated then ["NOT", "IN"] else ["IN"]) ++ [Atom.gap]) :=
    prints_text (by cases negated <;> decide)
  exact (prints_tripleLine h hphrase htarget).of_eq (by simp)

theorem prints_isValue {operand : Form} {spelling : Spelling} (h : operand.Prints spelling)
    (negated : Bool) (value : IsValue) :
    (Form.line [operand, .text (if negated then " IS NOT " else " IS "), .text value.text]).Prints
      (spelling ++ .gap :: words (if negated then ["IS", "NOT"] else ["IS"])
        ++ .gap :: value.spelling) := by
  have hphrase : (text (if negated then " IS NOT " else " IS ")).Prints
      (.gap :: words (if negated then ["IS", "NOT"] else ["IS"]) ++ [Atom.gap]) :=
    prints_text (by cases negated <;> decide)
  exact (prints_tripleLine h hphrase (prints_text value.toList_text)).of_eq (by simp)

theorem prints_betweenLine {operand low high : Form} {spelling lowSpelling highSpelling : Spelling}
    (h : operand.Prints spelling) (negated : Bool) (hlow : low.Prints lowSpelling)
    (hhigh : high.Prints highSpelling) :
    (Form.line [operand, .text (if negated then " NOT BETWEEN " else " BETWEEN "), low, .text " AND ",
      high]).Prints
      (spelling ++ .gap :: words (if negated then ["NOT", "BETWEEN"] else ["BETWEEN"])
        ++ .gap :: lowSpelling ++ [.gap, Atom.word "AND", .gap] ++ highSpelling) := by
  have hphrase : (text (if negated then " NOT BETWEEN " else " BETWEEN ")).Prints
      (.gap :: words (if negated then ["NOT", "BETWEEN"] else ["BETWEEN"]) ++ [Atom.gap]) :=
    prints_text (by cases negated <;> decide)
  have hand : (text " AND ").Prints [.gap, Atom.word "AND", .gap] := prints_text (by decide)
  have hline := prints_line (.cons h (.cons hphrase (.cons hlow (.cons hand (.cons hhigh .nil)))))
  exact hline.of_eq (by simp)

theorem prints_over {operand window : Form} {spelling windowSpelling : Spelling}
    (h : operand.Prints spelling) (hwindow : window.Prints windowSpelling) :
    (Form.choose (.line [operand.compact, .text " ", window.compact])
      (.stack [operand.full, window.full])).Prints (spelling ++ .gap :: windowSpelling) := by
  apply prints_choose
  · have hblank : (Doc.text " ").Spells [.gap] := .text (by decide)
    exact (spells_triple h.compact hblank hwindow.compact).of_eq (by simp)
  · exact (h.full.stack (.cons hwindow.full.trails .nil)).of_eq (by simp)

theorem prints_offset {form position : Form} {spelling positionSpelling : Spelling}
    (h : form.Prints spelling) (hposition : position.Prints positionSpelling) :
    (Form.line [form, .text "[OFFSET(", position, .text ")]"]).Prints
      (spelling ++ subscriptSpelling (some .offset) positionSpelling) := by
  have hopen : (text "[OFFSET(").Prints [Atom.bracketOpen, Atom.word "OFFSET", Atom.parenOpen] :=
    prints_text (by decide)
  have hclose : (text ")]").Prints [Atom.parenClose, Atom.bracketClose] := prints_text (by decide)
  have hline := prints_line (.cons h (.cons hopen (.cons hposition (.cons hclose .nil))))
  exact hline.of_eq (by simp [subscriptSpelling, IndexKind.spelling, IndexKind.text])

theorem prints_delimited {form : Form} {spelling : Spelling} (h : form.Prints spelling)
    (delimiter : Option Constant) :
    Form.Prints
      (match delimiter with
        | some delimiter => Form.line [form, .text (", " ++ delimiter.text)]
        | none => form)
      (spelling ++ match delimiter with
        | some delimiter => [Atom.comma, .gap] ++ delimiter.spelling
        | none => []) := by
  cases delimiter with
  | none => exact h.of_eq (List.append_nil _).symm
  | some delimiter =>
    exact prints_pairLine h (prints_text (by simp [Constant.toList_text, Atom.comma]))

theorem prints_typed {operand : Form} {spelling : Spelling} (h : operand.Prints spelling)
    (type : SqlType) :
    (Form.line [operand, .text (" AS " ++ type.text)]).Prints
      (spelling ++ [.gap, Atom.word "AS", .gap] ++ type.spelling) := by
  have htype : (text (" AS " ++ type.text)).Prints ([.gap, Atom.word "AS", .gap] ++ type.spelling) :=
    prints_text (by simp [SqlType.toList_text])
  exact (prints_pairLine h htype).of_eq (by simp)

theorem prints_extract {part operand : Form} {spelling operandSpelling : Spelling}
    (h : part.Prints spelling) (hoperand : operand.Prints operandSpelling) :
    (Form.line [part, .text " FROM ", operand]).Prints
      (spelling ++ [.gap, Atom.word "FROM", .gap] ++ operandSpelling) :=
  prints_tripleLine h (prints_text (by decide)) hoperand

theorem prints_extractZone {part operand zone : Form} {spelling operandSpelling zoneSpelling : Spelling}
    (h : part.Prints spelling) (hoperand : operand.Prints operandSpelling)
    (hzone : zone.Prints zoneSpelling) :
    (Form.line [part, .text " FROM ", operand, .text " AT TIME ZONE ", zone]).Prints
      (spelling ++ [.gap, Atom.word "FROM", .gap] ++ operandSpelling
        ++ (.gap :: words ["AT", "TIME", "ZONE"] ++ .gap :: zoneSpelling)) := by
  have hfrom : (text " FROM ").Prints [.gap, Atom.word "FROM", .gap] := prints_text (by decide)
  have hat : (text " AT TIME ZONE ").Prints (.gap :: words ["AT", "TIME", "ZONE"] ++ [Atom.gap]) :=
    prints_text (by decide)
  have hline := prints_line (.cons h (.cons hfrom (.cons hoperand (.cons hat (.cons hzone .nil)))))
  exact hline.of_eq (by simp)

theorem spaced_cons_spaced_append {spellings : List Spelling} (h : spellings ≠ [])
    (first last : Spelling) :
    Spelling.spaced [first, Spelling.spaced spellings, last] =
      Spelling.spaced (first :: spellings ++ [last]) := by
  have hbody : Spelling.spaced spellings ++ .gap :: last = Spelling.spaced (spellings ++ [last]) := by
    induction spellings with
    | nil => exact absurd rfl h
    | cons spelling spellings ih =>
      cases spellings with
      | nil => simp [Spelling.spaced]
      | cons next spellings =>
        have hrest := ih (by simp)
        simp only [Spelling.spaced, List.cons_append, List.intercalate_cons_cons] at hrest ⊢
        simp [hrest]
  have hne : spellings ++ [last] ≠ [] := by simp
  simp only [Spelling.spaced, List.cons_append, List.intercalate_cons_of_ne_nil hne] at hbody ⊢
  simp [← hbody]

/-- A head above arms that are indented below it, closed by `END`. -/
theorem prints_case {head : Form} {arms : List Form} {spelling : Spelling} {spellings : List Spelling}
    (h : head.Prints spelling) (harms : List.Forall₂ Form.Prints arms spellings) :
    (Form.choose (spaced (head.compact :: arms.map Form.compact ++ [Doc.text "END"]))
      (.stack [head.full, .indent (.stack (arms.map Form.full)), .text "END"])).Prints
      (Spelling.spaced (spelling :: spellings ++ [[Atom.word "END"]])) := by
  have hend : (Doc.text "END").Spells [Atom.word "END"] := .text (by decide)
  apply prints_choose
  · exact spells_spaced (forall₂_append (.cons h.compact (compacts harms)) (.cons hend .nil))
  · have hstack := h.full.stack
      (.cons (prints_stack (fulls harms)).indent (.cons hend.prints.trails .nil))
    cases harms with
    | nil => exact (h.full.stackPastBlank hend.prints).of_eq (by simp [Spelling.spaced])
    | cons harm harms => exact hstack.of_eq (spaced_cons_spaced_append (by simp) _ _)

/-- A keyword before a part, on the line of the part. -/
theorem prints_keyword {form : Form} {spelling : Spelling} {head : String} (keyword : List String)
    (h : form.Prints spelling) (hhead : head.toList = (words keyword ++ [Atom.gap]).plain) :
    (Form.line [.text head, form]).Prints (clauseSpelling keyword spelling) :=
  (prints_pairLine (prints_text hhead) h).of_eq (by simp [clauseSpelling])

theorem prints_branch {condition result : Form} {spelling resultSpelling : Spelling}
    (h : condition.Prints spelling) (hresult : result.Prints resultSpelling) :
    (Form.line [.text "WHEN ", condition, .text " THEN ", result]).Prints
      ([Atom.word "WHEN", .gap] ++ spelling ++ [.gap, Atom.word "THEN", .gap] ++ resultSpelling) := by
  have hwhen : (text "WHEN ").Prints [Atom.word "WHEN", .gap] := prints_text (by decide)
  have hthen : (text " THEN ").Prints [.gap, Atom.word "THEN", .gap] := prints_text (by decide)
  have hline := prints_line (.cons hwhen (.cons h (.cons hthen (.cons hresult .nil))))
  exact hline.of_eq (by simp)

theorem prints_combine {left right : Form} {leftSpelling rightSpelling : Spelling}
    (hleft : left.Prints leftSpelling) (op : SetOperator) (quantifier : Option SetQuantifier)
    (hright : right.Prints rightSpelling) :
    (Form.choose
      (.line [left.compact, .text (" " ++ combineText op quantifier ++ " "), right.compact])
      (.stack [left.full, .text (combineText op quantifier), right.full])).Prints
      (leftSpelling ++ .gap :: combineSpelling op quantifier ++ .gap :: rightSpelling) := by
  apply prints_choose
  · have htext : (" " ++ combineText op quantifier ++ " ").toList =
        plain (.gap :: combineSpelling op quantifier ++ [Atom.gap]) := by
      simp [combineText_toList]
    exact (spells_triple hleft.compact (.text htext) hright.compact).of_eq (by simp)
  · have htext : (Doc.text (combineText op quantifier)).Prints (combineSpelling op quantifier) :=
      Doc.prints_plain (combineText_toList op quantifier)
    exact (hleft.full.stack (.cons htext.trails (.cons hright.full.trails .nil))).of_eq (by simp)

/-- A star with its suffixes. -/
theorem prints_wildcard {star : Form} {spelling : Spelling} (hstar : star.Prints spelling)
    (except : List Identifier) {replace : List Form} {replaceSpellings : List Spelling}
    (hreplace : List.Forall₂ Form.Prints replace replaceSpellings) :
    (Form.line (star :: listSuffix "EXCEPT" (identifierForms except)
      ++ listSuffix "REPLACE" replace)).Prints
      (spelling ++ suffixSpelling "EXCEPT" (except.map Identifier.spelling)
        ++ suffixSpelling "REPLACE" replaceSpellings) := by
  obtain ⟨exceptSpellings, hexcept, hexceptEq⟩ :=
    prints_listSuffix "EXCEPT" (prints_identifierForms except)
  obtain ⟨others, hothers, hothersEq⟩ := prints_listSuffix "REPLACE" hreplace
  have hline := prints_line (forall₂_append (.cons hstar hexcept) hothers)
  exact hline.of_eq (by simp [hexceptEq, hothersEq])

theorem prints_table (name : QualifiedName) (aliasName : Option Identifier) :
    (text (name.dotted ++ aliasSuffix aliasName)).Prints
      (name.spelling ++ aliasSpelling aliasName) :=
  prints_text (by simp [QualifiedName.toList_dotted, aliasSuffix_toList])

theorem prints_derived {query : Form} {spelling : Spelling} (h : query.Prints spelling)
    (aliasName : Option Identifier) :
    (Form.enclosed "(" query (")" ++ aliasSuffix aliasName)).Prints
      (Spelling.enclosed spelling ++ aliasSpelling aliasName) := by
  have hopen : "(".toList = plain [Atom.parenOpen] := by decide
  have hclose : (")" ++ aliasSuffix aliasName).toList =
      plain ([Atom.parenClose] ++ aliasSpelling aliasName) := by
    simp [aliasSuffix_toList, Atom.parenClose]
  exact (prints_enclosed h hopen hclose).of_eq (by simp [Spelling.enclosed])

/-- What stands after the array of `UNNEST`. -/
theorem unnestTail_toList (aliasName : Option Identifier) (offset : Option (Option Identifier)) :
    (")" ++ aliasSuffix aliasName ++ match offset with
      | some offset => " WITH OFFSET" ++ aliasSuffix offset
      | none => "").toList =
      plain ([Atom.parenClose] ++ aliasSpelling aliasName ++ match offset with
        | some offset => .gap :: words ["WITH", "OFFSET"] ++ aliasSpelling offset
        | none => []) := by
  cases offset with
  | none => simp [aliasSuffix_toList, Atom.parenClose]
  | some offset => simp [aliasSuffix_toList, Atom.parenClose, words]

theorem prints_unnest {array : Form} {spelling : Spelling} (h : array.Prints spelling)
    (aliasName : Option Identifier) (offset : Option (Option Identifier)) :
    (Form.line [.text "UNNEST(", array, .text (")" ++ aliasSuffix aliasName
      ++ match offset with
        | some offset => " WITH OFFSET" ++ aliasSuffix offset
        | none => "")]).Prints
      (callSpelling [Atom.word "UNNEST"] [spelling] ++ aliasSpelling aliasName
        ++ match offset with
          | some offset => .gap :: words ["WITH", "OFFSET"] ++ aliasSpelling offset
          | none => []) := by
  have hopen : (text "UNNEST(").Prints [Atom.word "UNNEST", Atom.parenOpen] :=
    prints_text (by decide)
  have htail := prints_text (unnestTail_toList aliasName offset)
  exact (prints_tripleLine hopen h htail).of_eq (by simp [callSpelling, Spelling.commas])

theorem prints_columns (columns : List Identifier) :
    (Form.line [.text " USING (",
      { compact := commaLine ((identifierForms columns).map Form.compact),
        full := commaLine ((identifierForms columns).map Form.full) }, .text ")"]).Prints
      (.gap :: Atom.word "USING" :: .gap :: callSpelling [] (columns.map Identifier.spelling)) := by
  have hopen : (text " USING (").Prints [.gap, Atom.word "USING", .gap, Atom.parenOpen] :=
    prints_text (by decide)
  have hclose : (text ")").Prints [Atom.parenClose] := prints_text (by decide)
  have hnames := prints_identifierForms columns
  have hcolumns : Form.Prints
      { compact := commaLine ((identifierForms columns).map Form.compact),
        full := commaLine ((identifierForms columns).map Form.full) }
      (Spelling.commas (columns.map Identifier.spelling)) :=
    ⟨spells_commaLine (compacts hnames), prints_commaLine (fulls hnames)⟩
  exact (prints_tripleLine hopen hcolumns hclose).of_eq (by simp [callSpelling])

section Forms

theorem Query.form_mk (common : Option CommonTables) (body : SetExpr) (order : Option RowOrder) :
    Query.form ⟨common, body, order⟩ =
      .phrases ((common.map CommonTables.form).toList ++ body.form :: (order.map RowOrder.form).toList) := by
  cases common <;> cases order <;> rfl

theorem RowOrder.form_mk (keys : List SortKey) (limit offset : Option Expr) :
    RowOrder.form ⟨keys, limit, offset⟩ = .phrases
      ((if (sortKeyForms keys).isEmpty then [] else [.listClause "ORDER BY" (sortKeyForms keys)])
        ++ (limit.map fun limit => Form.line [.text "LIMIT ", limit.form.toForm]).toList
        ++ (offset.map fun offset => Form.line [.text "OFFSET ", offset.form.toForm]).toList) := by
  cases limit <;> cases offset <;> rfl

theorem Select.form_mk (distinct : Bool) (shape : Option SelectAs) (items : List SelectItem)
    (source : Option TableExpr) (filter : Option Expr) (groupBy : List Expr)
    (having qualify : Option Expr) :
    Select.form ⟨distinct, shape, items, source, filter, groupBy, having, qualify⟩ = .phrases
      (.listClause (selectHead distinct shape) (selectItemForms items)
        :: (source.map fun source => Form.clause "FROM" source.form).toList
        ++ (filter.map fun filter => Form.clause "WHERE" filter.form.toForm).toList
        ++ (if (exprForms groupBy).isEmpty then [] else [.listClause "GROUP BY" (exprForms groupBy)])
        ++ (having.map fun having => Form.clause "HAVING" having.form.toForm).toList
        ++ (qualify.map fun qualify => Form.clause "QUALIFY" qualify.form.toForm).toList) := by
  cases source <;> cases filter <;> cases having <;> cases qualify <;> rfl

theorem Expr.form_arrayAgg (distinct : Bool) (operand : Expr) (nulls : Option NullHandling)
    (order : Option RowOrder) (window : Option Window) (offset : Option Expr) :
    (Expr.arrayAgg distinct operand nulls order window offset).form =
      let body := Form.aggregate "ARRAY_AGG("
        (Form.distinct distinct operand.form.toForm
          :: (nulls.map fun nulls => Form.text nulls.text).toList
          ++ (order.map RowOrder.form).toList ++ (window.map Window.form).toList)
      { toForm :=
          match offset with
          | some offset => Form.line [body, .text "[OFFSET(", offset.form.toForm, .text ")]"]
          | none => body } := by
  cases order <;> cases window <;> cases offset <;> rfl

theorem Expr.form_stringAgg (function : StringFunction) (distinct : Bool) (operand : Expr)
    (delimiter : Option Constant) (nulls : Option NullHandling) (order : Option RowOrder)
    (window : Option Window) (accessor : Option Accessor) :
    (Expr.stringAgg function distinct operand delimiter nulls order window accessor).form =
      let operand := Form.distinct distinct operand.form.toForm
      let operand :=
        match delimiter with
        | some delimiter => Form.line [operand, .text (", " ++ delimiter.text)]
        | none => operand
      let body := Form.aggregate (function.text ++ "(")
        (operand :: (nulls.map fun nulls => Form.text nulls.text).toList
          ++ (order.map RowOrder.form).toList ++ (window.map Window.form).toList)
      { toForm :=
          match accessor with
          | some accessor =>
            Form.line [body, accessorForm accessor.position.form.toForm accessor.name]
          | none => body } := by
  cases delimiter <;> cases order <;> cases window <;>
    rcases accessor with _ | ⟨label, position⟩ <;> rfl

theorem Expr.form_case (operand : Option Expr) (branches : List Branch) (otherwise : Option Expr) :
    (Expr.case operand branches otherwise).form =
      let head :=
        match operand with
        | some operand => Form.line [.text "CASE ", operand.form.toForm]
        | none => .text "CASE"
      let arms := branchForms branches
        ++ (otherwise.map fun otherwise => Form.line [.text "ELSE ", otherwise.form.toForm]).toList
      { toForm := .choose
          (Form.spaced (head.compact :: arms.map Form.compact ++ [Doc.text "END"]))
          (.stack [head.full, .indent (.stack (arms.map Form.full)), .text "END"]) } := by
  cases operand <;> cases otherwise <;> rfl

end Forms

mutual

theorem Expr.prints : (e : Expr) → e.form.Prints e.spelling
  | .constant constant => .ofForm (prints_text constant.toList_text)
  | .name name => .ofForm (prints_text name.toList_dotted)
  | .star => .ofForm (prints_text (by decide))
  | .call function distinct args nulls => .ofForm (prints_callForm (prints_exprs args))
  | .array (some type) items => by
    have hhead : ("ARRAY<" ++ type.text ++ ">[").toList =
        plain ([Atom.word "ARRAY", Atom.symbol .lt "<"] ++ type.spelling
          ++ [Atom.symbol .gt ">", Atom.bracketOpen]) := by
      simp [SqlType.toList_text, Atom.bracketOpen]
    have hclose : "]".toList = plain [Atom.bracketClose] := by decide
    exact .ofForm (prints_call (prints_exprs items) hhead hclose (by decide))
  | .array none items => by
    have hopen : "[".toList = plain [Atom.bracketOpen] := by decide
    have hclose : "]".toList = plain [Atom.bracketClose] := by decide
    exact .ofForm (prints_call (prints_exprs items) hopen hclose (by decide))
  | .arrayQuery query => .ofForm (prints_headed [Atom.word "ARRAY"] query.prints (by decide))
  | .arrayAgg distinct operand nulls order window offset => by
    rw [Expr.form_arrayAgg, Expr.spelling_arrayAgg]
    apply ExprForm.Prints.ofForm
    have hhead : "ARRAY_AGG(".toList = plain ([Atom.word "ARRAY_AGG"] ++ [Atom.parenOpen]) := by
      decide
    have hbody := prints_aggregateForm _ (forall₂_append (forall₂_append
      (.cons (prints_distinct operand.prints.toForm distinct)
        (prints_option NullHandling.toList_text nulls)) (prints_order? order))
      (prints_window? window)) hhead
    cases offset with
    | none => exact hbody.of_eq (List.append_nil _).symm
    | some offset => exact prints_offset hbody offset.prints.toForm
  | .stringAgg function distinct operand delimiter nulls order window accessor => by
    rw [Expr.form_stringAgg, Expr.spelling_stringAgg]
    apply ExprForm.Prints.ofForm
    have hhead : (function.text ++ "(").toList = plain (function.spelling ++ [Atom.parenOpen]) := by
      cases function <;> decide
    have hbody := prints_aggregateForm function.spelling (forall₂_append (forall₂_append
      (.cons (prints_delimited (prints_distinct operand.prints.toForm distinct) delimiter)
        (prints_option NullHandling.toList_text nulls)) (prints_order? order))
      (prints_window? window)) hhead
    cases accessor with
    | none => exact hbody.of_eq (List.append_nil _).symm
    | some accessor =>
      obtain ⟨name, position⟩ := accessor
      exact prints_pairLine hbody (prints_accessorForm position.prints.toForm name)
  | .over operand window => .ofForm (prints_over operand.prints.toForm window.prints)
  | .binary op left right => ExprForm.prints_binary left.prints op right.prints
  | .unary op operand => .ofForm (prints_sign op operand.prints.toForm)
  | .paren inner => .ofForm (prints_headed [] inner.prints.toForm (by decide))
  | .subquery query => .ofForm (prints_headed [] query.prints (by decide))
  | .existsQuery query => .ofForm (prints_headed [Atom.word "EXISTS"] query.prints (by decide))
  | .struct (some fields) items => by
    have hangled : ("<" ++ fieldsText fields ++ ">").toList = (angled (fieldSpellings fields)).plain :=
      angled_toList (fieldTexts_toList fields)
    have hhead : ("STRUCT<" ++ fieldsText fields ++ ">(").toList =
        plain (Atom.word "STRUCT" :: angled (fieldSpellings fields) ++ [Atom.parenOpen]) := by
      rw [List.cons_append, plain_cons_word, plain_append, ← hangled]
      simp [Atom.parenOpen]
    exact .ofForm (prints_named _ (prints_structItems items) hhead)
  | .struct none items => .ofForm (prints_named [Atom.word "STRUCT"] (prints_structItems items) (by decide))
  | .cast safe operand type => by
    have hhead : (if safe then "SAFE_CAST(" else "CAST(").toList =
        plain ([Atom.word (if safe then "SAFE_CAST" else "CAST")] ++ [Atom.parenOpen]) := by
      cases safe <;> decide
    exact .ofForm (prints_named _ (.cons (prints_typed operand.prints.toForm type) .nil) hhead)
  | .extract part operand none =>
    .ofForm (prints_named [Atom.word "EXTRACT"]
      (.cons ((prints_extract part.prints.toForm operand.prints.toForm).of_eq
        (List.append_nil _).symm) .nil) (by decide))
  | .extract part operand (some zone) =>
    .ofForm (prints_named [Atom.word "EXTRACT"]
      (.cons (prints_extractZone part.prints.toForm operand.prints.toForm zone.prints.toForm) .nil)
      (by decide))
  | .case operand branches otherwise => by
    rw [Expr.form_case, Expr.spelling_case]
    apply ExprForm.Prints.ofForm
    apply prints_case
    · cases operand with
      | none => exact prints_text (by decide)
      | some operand =>
        have hcase : "CASE ".toList = plain [Atom.word "CASE", .gap] := by decide
        exact prints_pairLine (prints_text hcase) operand.prints.toForm
    · exact forall₂_append (prints_branches branches) (prints_exprAfter? ["ELSE"] (by decide) otherwise)
  | .interval count unit => by
    have hhead : (text "INTERVAL ").Prints [Atom.word "INTERVAL", .gap] := prints_text (by decide)
    have hunit : (text (" " ++ unit.raw)).Prints (.gap :: unit.spelling) :=
      prints_text (by simp [Identifier.toList_raw])
    exact .ofForm (prints_tripleLine hhead count.prints.toForm hunit)
  | .member operand negated target =>
    .ofForm (prints_member operand.prints.toForm negated target.prints)
  | .between operand negated low high =>
    .ofForm (prints_betweenLine operand.prints.toForm negated low.prints.toForm high.prints.toForm)
  | .isValue operand negated value => .ofForm (prints_isValue operand.prints.toForm negated value)
  | .index base kind position =>
    .ofForm (prints_indexForm base.prints.toForm position.prints.toForm kind)
  | .field base name => .ofForm (prints_field base.prints.toForm name)

theorem prints_exprs : (exprs : List Expr) →
    List.Forall₂ Form.Prints (exprForms exprs) (exprSpellings exprs)
  | [] => .nil
  | e :: exprs => .cons e.prints.toForm (prints_exprs exprs)

theorem prints_structItems : (items : List StructItem) →
    List.Forall₂ Form.Prints (structItemForms items) (structItemSpellings items)
  | [] => .nil
  | ⟨expr, aliasName⟩ :: items =>
    .cons (prints_aliased expr.prints.toForm aliasName) (prints_structItems items)

theorem MemberTarget.prints : (target : MemberTarget) → target.form.Prints target.spelling
  | .list items => prints_named [] (prints_exprs items) (by decide)
  | .query query => prints_headed [] query.prints (by decide)
  | .unnest array =>
    prints_named [Atom.word "UNNEST"] (.cons array.prints.toForm .nil) (by decide)

theorem prints_branches : (branches : List Branch) →
    List.Forall₂ Form.Prints (branchForms branches) (branchSpellings branches)
  | [] => .nil
  | ⟨condition, result⟩ :: branches =>
    .cons (prints_branch condition.prints.toForm result.prints.toForm) (prints_branches branches)

theorem prints_sortKeys : (keys : List SortKey) →
    List.Forall₂ Form.Prints (sortKeyForms keys) (sortKeySpellings keys)
  | [] => .nil
  | ⟨expr, direction, nulls⟩ :: keys =>
    .cons (prints_sortSuffix expr.prints.toForm direction nulls) (prints_sortKeys keys)

/-- A keyword and the expression after it, if there is one. -/
theorem prints_exprAfter? {head : String} (keyword : List String)
    (hhead : head.toList = (words keyword ++ [Atom.gap]).plain) : (o : Option Expr) →
    List.Forall₂ Form.Prints (o.map fun e => Form.line [.text head, e.form.toForm]).toList
      (o.map fun e => clauseSpelling keyword e.spelling).toList
  | some e => .cons (prints_keyword keyword e.prints.toForm hhead) .nil
  | none => .nil

/-- A clause with an expression, if there is one. -/
theorem prints_exprClause? {head : String} (keyword : List String)
    (hhead : head.toList = (words keyword).plain) : (o : Option Expr) →
    List.Forall₂ Form.Prints (o.map fun e => Form.clause head e.form.toForm).toList
      (o.map fun e => clauseSpelling keyword e.spelling).toList
  | some e => .cons (prints_clause e.prints.toForm hhead) .nil
  | none => .nil

theorem prints_order? : (order : Option RowOrder) →
    List.Forall₂ Form.Prints (order.map RowOrder.form).toList (order.map RowOrder.spelling).toList
  | some order => .cons order.prints .nil
  | none => .nil

theorem RowOrder.prints : (order : RowOrder) → order.form.Prints order.spelling
  | ⟨keys, limit, offset⟩ => by
    rw [RowOrder.form_mk, RowOrder.spelling_mk]
    exact prints_phrases (forall₂_append (forall₂_append
      (prints_listClauses (prints_sortKeys keys) (by decide))
      (prints_exprAfter? ["LIMIT"] (by decide) limit))
      (prints_exprAfter? ["OFFSET"] (by decide) offset))

theorem prints_window? : (window : Option Window) →
    List.Forall₂ Form.Prints (window.map Window.form).toList (window.map Window.spelling).toList
  | some window => .cons window.prints .nil
  | none => .nil

theorem Window.prints : (window : Window) → window.form.Prints window.spelling
  | ⟨partition, order, frame⟩ =>
    prints_windowForm (forall₂_append (forall₂_append
      (prints_listClauses (prints_exprs partition) (by decide))
      (prints_listClauses (prints_sortKeys order) (by decide)))
      (prints_option Frame.toList_text frame))

theorem Query.prints : (query : Query) → query.form.Prints query.spelling
  | ⟨common, body, order⟩ => by
    rw [Query.form_mk, Query.spelling_mk]
    exact prints_phrases (forall₂_append (prints_commonTables? common)
      (.cons body.prints (prints_order? order)))

theorem prints_commonTables? : (common : Option CommonTables) →
    List.Forall₂ Form.Prints (common.map CommonTables.form).toList
      (common.map CommonTables.spelling).toList
  | some common => .cons common.prints .nil
  | none => .nil

theorem CommonTables.prints : (common : CommonTables) → common.form.Prints common.spelling
  | ⟨true, tables⟩ => prints_listClause (prints_commonTableForms tables) (by decide)
  | ⟨false, tables⟩ => prints_listClause (prints_commonTableForms tables) (by decide)

theorem prints_commonTableForms : (tables : List CommonTable) →
    List.Forall₂ Form.Prints (commonTableForms tables) (commonTableSpellings tables)
  | [] => .nil
  | ⟨name, query⟩ :: tables => by
    have hhead : (name.raw ++ " AS (").toList =
        plain (name.spelling ++ [.gap, Atom.word "AS", .gap] ++ [Atom.parenOpen]) := by
      simp [Identifier.toList_raw, Atom.parenOpen]
    exact .cons (prints_headed _ query.prints hhead) (prints_commonTableForms tables)

theorem SetExpr.prints : (body : SetExpr) → body.form.Prints body.spelling
  | .select select => select.prints
  | .paren query => prints_headed [] query.prints (by decide)
  | .combine op quantifier left right => prints_combine left.prints op quantifier right.prints

theorem Select.prints : (select : Select) → select.form.Prints select.spelling
  | ⟨distinct, shape, items, source, filter, groupBy, having, qualify⟩ => by
    rw [Select.form_mk, Select.spelling_mk]
    have hitems := prints_listClause (prints_selectItems items) (selectHead_toList distinct shape)
    exact prints_phrases (forall₂_append (forall₂_append (forall₂_append (forall₂_append
      (.cons hitems (prints_source? source))
      (prints_exprClause? ["WHERE"] (by decide) filter))
      (prints_listClauses (prints_exprs groupBy) (by decide)))
      (prints_exprClause? ["HAVING"] (by decide) having))
      (prints_exprClause? ["QUALIFY"] (by decide) qualify))

theorem prints_source? : (source : Option TableExpr) →
    List.Forall₂ Form.Prints (source.map fun source => Form.clause "FROM" source.form).toList
      (source.map fun source => clauseSpelling ["FROM"] source.spelling).toList
  | some source => .cons (prints_clause source.prints (by decide)) .nil
  | none => .nil

theorem prints_selectItems : (items : List SelectItem) →
    List.Forall₂ Form.Prints (selectItemForms items) (selectItemSpellings items)
  | [] => .nil
  | .wildcard none except replace :: items =>
    .cons (prints_wildcard (prints_text (by decide)) except (prints_replacements replace))
      (prints_selectItems items)
  | .wildcard (some name) except replace :: items => by
    have hstar : (name.dotted ++ ".*").toList =
        plain (name.spelling ++ [Atom.dot, Atom.symbol .star "*"]) := by
      simp [QualifiedName.toList_dotted, Atom.dot]
    exact .cons (prints_wildcard (prints_text hstar) except (prints_replacements replace))
      (prints_selectItems items)
  | .expr expr aliasName :: items =>
    .cons (prints_aliased expr.prints.toForm aliasName) (prints_selectItems items)

theorem prints_replacements : (items : List Replacement) →
    List.Forall₂ Form.Prints (replacementForms items) (replacementSpellings items)
  | [] => .nil
  | ⟨expr, aliasName⟩ :: items =>
    .cons (prints_aliased expr.prints.toForm (some aliasName)) (prints_replacements items)

theorem TableExpr.prints : (table : TableExpr) → table.form.Prints table.spelling
  | .table name aliasName => prints_table name aliasName
  | .subquery query aliasName => prints_derived query.prints aliasName
  | .unnest array aliasName offset => prints_unnest array.prints.toForm aliasName offset
  | .join left kind right none =>
    prints_joinForm left.prints kind right.prints (prints_text (by decide))
  | .join left kind right (some (.condition condition)) =>
    prints_joinForm left.prints kind right.prints
      (prints_pairLine (prints_text (by decide)) condition.prints.toForm)
  | .join left kind right (some (.columns columns)) =>
    prints_joinForm left.prints kind right.prints (prints_columns columns)

end

end SqlLayout
