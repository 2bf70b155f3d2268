import SqlLayout.Proofs.Layout.Syntax

/-!
# What the Forms of Syntax Print

Every piece of syntax prints its spelling, whatever the page and whichever of its forms is taken. A chain
of one operator, which is laid out as a whole, prints its operands with the operator between them.
-/

namespace SqlLayout

open Spelling

namespace Form

variable {form : Form} {forms : List Form} {spelling : Spelling} {spellings : List Spelling}

theorem prints_modifyFirst {change : Form → Form} {respell : Spelling → Spelling}
    (h : List.Forall₂ Prints forms spellings)
    (hchange : ∀ form spelling, Prints form spelling → Prints (change form) (respell spelling)) :
    List.Forall₂ Prints (modifyFirst change forms) (SqlLayout.modifyFirst respell spellings) := by
  cases h with
  | nil => exact .nil
  | cons hform hforms => exact .cons (hchange _ _ hform) hforms

theorem prints_modifyLast {change : Form → Form} {respell : Spelling → Spelling}
    (h : List.Forall₂ Prints forms spellings)
    (hchange : ∀ form spelling, Prints form spelling → Prints (change form) (respell spelling)) :
    List.Forall₂ Prints (modifyLast change forms) (SqlLayout.modifyLast respell spellings) := by
  induction h with
  | nil => exact .nil
  | cons hform hforms ih =>
    cases hforms with
    | nil => exact .cons (hchange _ _ hform) .nil
    | cons hnext hforms => exact .cons hform ih

/-- Two forms side by side. -/
theorem prints_pairLine {first second : Form} {other : Spelling} (h : first.Prints spelling)
    (h' : second.Prints other) : (line [first, second]).Prints (spelling ++ other) := by
  have hline := prints_line (.cons h (.cons h' .nil))
  simp only [List.flatten_cons, List.flatten_nil, List.append_nil] at hline
  exact hline

/-- Three forms side by side. -/
theorem prints_tripleLine {first second third : Form} {other last : Spelling}
    (h : first.Prints spelling) (h' : second.Prints other) (h'' : third.Prints last) :
    (line [first, second, third]).Prints (spelling ++ other ++ last) := by
  have hline := prints_line (.cons h (.cons h' (.cons h'' .nil)))
  simp only [List.flatten_cons, List.flatten_nil, List.append_nil] at hline
  rw [List.append_assoc]
  exact hline

end Form

open Form

section Parts

variable {form left right : Form} {forms : List Form} {spelling leftSpelling rightSpelling : Spelling}
  {spellings : List Spelling}

theorem prints_aliased (h : form.Prints spelling) (aliasName : Option Identifier) :
    (aliased form aliasName).Prints (spelling ++ aliasSpelling aliasName) := by
  cases aliasName with
  | none => exact h.of_eq (List.append_nil _).symm
  | some name =>
    have hsuffix : (" AS " ++ name.raw).toList = (aliasSpelling (some name)).plain :=
      aliasSuffix_toList (some name)
    exact h.append hsuffix

theorem Form.Prints.appendWord {form : Form} {spelling suffix : Spelling} {text : String}
    (h : form.Prints spelling) (htext : text.toList = suffix.plain) :
    (form.append (" " ++ text)).Prints (spelling ++ .gap :: suffix) := by
  apply h.append
  simp [htext]

theorem prints_directed (h : form.Prints spelling) (direction : Option Direction) :
    Form.Prints
      (match direction with
        | some direction => form.append (" " ++ direction.text)
        | none => form) (spelling ++ modifier (direction.map Direction.spelling)) := by
  cases direction with
  | none => exact h.of_eq (List.append_nil _).symm
  | some direction => exact h.appendWord direction.toList_text

theorem prints_sortSuffix (h : form.Prints spelling) (direction : Option Direction)
    (nulls : Option NullsOrder) :
    (sortSuffix form direction nulls).Prints
      (spelling ++ modifier (direction.map Direction.spelling)
        ++ modifier (nulls.map NullsOrder.spelling)) := by
  have hdirected := prints_directed h direction
  cases nulls with
  | none => exact hdirected.of_eq (List.append_nil _).symm
  | some nulls => exact hdirected.appendWord nulls.toList_text

theorem prints_indexForm (hbase : left.Prints leftSpelling) (hposition : right.Prints rightSpelling)
    (kind : Option IndexKind) :
    (indexForm left right kind).Prints (leftSpelling ++ subscriptSpelling kind rightSpelling) := by
  cases kind with
  | none =>
    have hopen : (text "[").Prints [Atom.bracketOpen] := prints_text (by decide)
    have hclose : (text "]").Prints [Atom.bracketClose] := prints_text (by decide)
    have hline := prints_line (.cons hbase (.cons hopen (.cons hposition (.cons hclose .nil))))
    exact hline.of_eq (by simp [subscriptSpelling])
  | some kind =>
    have hopen : (text "[").Prints [Atom.bracketOpen] := prints_text (by decide)
    have hhead : (text (kind.text ++ "(")).Prints (kind.spelling ++ [Atom.parenOpen]) := by
      cases kind <;> exact prints_text (by decide)
    have hclose : (text ")]").Prints [Atom.parenClose, Atom.bracketClose] := prints_text (by decide)
    have hline := prints_line
      (.cons hbase (.cons hopen (.cons hhead (.cons hposition (.cons hclose .nil)))))
    exact hline.of_eq (by simp [subscriptSpelling])

theorem prints_accessorForm (hposition : form.Prints spelling) (name : Option Identifier) :
    (accessorForm form name).Prints (accessorSpelling name spelling) := by
  cases name with
  | none =>
    have hopen : (text "[").Prints [Atom.bracketOpen] := prints_text (by decide)
    have hclose : (text "]").Prints [Atom.bracketClose] := prints_text (by decide)
    exact (prints_tripleLine hopen hposition hclose).of_eq (by simp [accessorSpelling])
  | some name =>
    have hopen : (text ("[" ++ name.raw ++ "(")).Prints
        (Atom.bracketOpen :: name.spelling ++ [Atom.parenOpen]) :=
      prints_text (by simp [Atom.bracketOpen, Atom.parenOpen, Identifier.toList_raw])
    have hclose : (text ")]").Prints [Atom.parenClose, Atom.bracketClose] := prints_text (by decide)
    exact (prints_tripleLine hopen hposition hclose).of_eq (by simp [accessorSpelling])

theorem prints_windowForm (h : List.Forall₂ Form.Prints forms spellings) :
    (windowForm forms).Prints (windowSpelling spellings) := by
  have hhead : "OVER (".toList = plain [Atom.word "OVER", .gap, Atom.parenOpen] := by decide
  have hclose : ")".toList = plain [Atom.parenClose] := by decide
  cases h with
  | nil =>
    have hline := spells_triple (.text hhead) (spells_spaced List.Forall₂.nil) (.text hclose)
    exact ⟨hline, hline.prints⟩
  | cons hform hforms =>
    have hbetween := prints_between (spells_spaced (compacts (.cons hform hforms)))
      (prints_stack (fulls (.cons hform hforms))) hhead hclose
    exact hbetween.of_eq (by simp [windowSpelling, Spelling.enclosed])

/-- The last of some forms with what is said about nulls, if anything is. -/
theorem prints_nullsLast (h : List.Forall₂ Form.Prints forms spellings) (nulls : Option NullHandling) :
    List.Forall₂ Form.Prints
      (match nulls with
        | some nulls => Form.modifyLast (Form.append · (" " ++ nulls.text)) forms
        | none => forms)
      (modifyLast (· ++ modifier (nulls.map NullHandling.spelling)) spellings) := by
  cases nulls with
  | none =>
    have hsame (spellings : List Spelling) :
        modifyLast (· ++ modifier none) spellings = spellings := by
      induction spellings with
      | nil => rfl
      | cons spelling spellings ih => cases spellings <;> simp_all [modifyLast, modifier]
    rw [Option.map_none, hsame]
    exact h
  | some nulls =>
    apply prints_modifyLast h
    intro form spelling hform
    apply hform.append
    simp [modifier, NullHandling.toList_text]

theorem prints_callForm {function : QualifiedName} {distinct : Bool} {nulls : Option NullHandling}
    (h : List.Forall₂ Form.Prints forms spellings) :
    (callForm function distinct forms nulls).Prints
      (callSpelling function.spelling
        (modifyLast (· ++ modifier (nulls.map NullHandling.spelling))
          (SqlLayout.modifyFirst (distinctSpelling distinct) spellings))) := by
  have hhead : (function.dotted ++ "(").toList = plain (function.spelling ++ [Atom.parenOpen]) := by
    simp [QualifiedName.toList_dotted, Atom.parenOpen]
  have hfirst : List.Forall₂ Form.Prints (Form.modifyFirst (Form.distinct distinct) forms)
      (SqlLayout.modifyFirst (distinctSpelling distinct) spellings) :=
    prints_modifyFirst h fun _ _ hform => prints_distinct hform distinct
  have hlast := prints_nullsLast hfirst nulls
  have hcall := prints_call hlast hhead (show ")".toList = plain [Atom.parenClose] by decide)
    (by decide)
  exact hcall.of_eq (by simp [callSpelling])

theorem prints_joinForm {condition : Form} {conditionSpelling : Spelling}
    (hleft : left.Prints leftSpelling) (kind : JoinKind) (hright : right.Prints rightSpelling)
    (hcondition : condition.Prints conditionSpelling) :
    (joinForm left kind right condition).Prints
      (joinSpelling leftSpelling kind rightSpelling conditionSpelling) := by
  unfold joinForm joinSpelling
  by_cases hkind : kind = .comma
  · rw [if_pos hkind, if_pos hkind]
    apply prints_choose
    · exact spells_triple hleft.compact (.text (by decide)) hright.compact
    · have hcomma := hleft.full.append (Doc.prints_plain (show ",".toList = plain [Atom.comma] by decide))
      have hstack := hcomma.stack (.cons hright.full.trails .nil)
      exact hstack.of_eq (by simp)
  · rw [if_neg hkind, if_neg hkind]
    apply prints_choose
    · have htext : (" " ++ kind.text ++ " ").toList = plain (.gap :: kind.spelling ++ [Atom.gap]) := by
        simp [JoinKind.toList_text]
      have hline := Doc.Spells.line (.cons hleft.compact (.cons (.text htext)
        (.cons hright.compact (.cons hcondition.compact .nil))))
      exact hline.of_eq (by simp)
    · have htext : (kind.text ++ " ").toList = plain (kind.spelling ++ [Atom.gap]) := by
        simp [JoinKind.toList_text]
      have hline := Doc.Prints.line
        (.cons (Doc.prints_plain htext) (.cons hright.full (.cons hcondition.full .nil)))
      have hstack := hleft.full.stack (.cons hline.trails .nil)
      exact hstack.of_eq (by simp)

theorem prints_listSuffix (keyword : String) (h : List.Forall₂ Form.Prints forms spellings) :
    ∃ parts, List.Forall₂ Form.Prints (listSuffix keyword forms) parts ∧
      parts.flatten = suffixSpelling keyword spellings := by
  cases h with
  | nil => exact ⟨[], .nil, rfl⟩
  | @cons form spelling forms spellings hform hforms =>
    have hhead : (text (" " ++ keyword ++ " (")).Prints
        [.gap, Atom.word keyword, .gap, Atom.parenOpen] :=
      prints_text (by simp [Atom.parenOpen])
    have hclose : (text ")").Prints [Atom.parenClose] := prints_text (by decide)
    have hitems : Form.Prints
        { compact := commaLine ((form :: forms).map Form.compact),
          full := commaLine ((form :: forms).map Form.full) }
        (Spelling.commas (spelling :: spellings)) :=
      ⟨spells_commaLine (compacts (.cons hform hforms)),
        prints_commaLine (fulls (.cons hform hforms))⟩
    exact ⟨_, .cons hhead (.cons hitems (.cons hclose .nil)), by simp [suffixSpelling]⟩

theorem prints_identifierForms (names : List Identifier) :
    List.Forall₂ Form.Prints (identifierForms names) (names.map Identifier.spelling) := by
  induction names with
  | nil => exact .nil
  | cons name names ih => exact .cons (prints_text name.toList_raw) ih

/-- A list clause, if there is anything in the list. -/
theorem prints_listClauses {keyword : String} {words : List String}
    (h : List.Forall₂ Form.Prints forms spellings)
    (hkeyword : keyword.toList = (Spelling.words words).plain) :
    List.Forall₂ Form.Prints (if forms.isEmpty then [] else [.listClause keyword forms])
      (listClauses words spellings) := by
  cases h with
  | nil => exact .nil
  | cons hform hforms => exact .cons (prints_listClause (.cons hform hforms) hkeyword) .nil

end Parts

section Chains

/-- Operands with an operator between them. -/
def chainSpelling (op : BinaryOp) (spellings : List Spelling) : Spelling :=
  List.intercalate (.gap :: op.spelling ++ [Atom.gap]) spellings

namespace ExprForm

/-- An expression prints its spelling, and so do the operands of its chain. -/
structure Prints (form : ExprForm) (spelling : Spelling) : Prop where
  toForm : form.toForm.Prints spelling
  chain : ∀ op docs, form.chain = some (op, docs) →
    ∃ spellings, docs ≠ [] ∧ List.Forall₂ Doc.Prints docs spellings ∧
      spelling = chainSpelling op spellings

theorem Prints.ofForm {form : Form} {spelling : Spelling} (h : form.Prints spelling) :
    ExprForm.Prints { toForm := form } spelling :=
  ⟨h, fun _ _ hchain => nomatch hchain⟩

theorem Prints.operands {form : ExprForm} {spelling : Spelling} (h : form.Prints spelling)
    (op : BinaryOp) : ∃ spellings, form.operands op ≠ [] ∧
      List.Forall₂ Doc.Prints (form.operands op) spellings ∧ spelling = chainSpelling op spellings := by
  have halone : ∃ spellings, [form.full] ≠ [] ∧ List.Forall₂ Doc.Prints [form.full] spellings ∧
      spelling = chainSpelling op spellings :=
    ⟨[spelling], by simp, .cons h.toForm.full .nil, by simp [chainSpelling]⟩
  unfold ExprForm.operands
  cases hchain : form.chain with
  | none => exact halone
  | some chain =>
    obtain ⟨inner, docs⟩ := chain
    dsimp only
    split
    · rename_i heq
      exact heq ▸ h.chain inner docs hchain
    · exact halone

theorem prints_chainDoc {op : BinaryOp} {docs : List Doc} {spellings : List Spelling}
    (h : List.Forall₂ Doc.Prints docs spellings) :
    (chainDoc op docs).Prints (chainSpelling op spellings) := by
  cases h with
  | nil => exact Doc.prints_stack_nil
  | @cons first spelling docs spellings hfirst hrest =>
    have htext : (op.text ++ " ").toList = plain (op.spelling ++ [Atom.gap]) := by
      simp [BinaryOp.toList_text]
    have hparts : List.Forall₂ Doc.Trails
        (docs.map fun doc => .line [.text (op.text ++ " "), doc])
        (spellings.map fun spelling => op.spelling ++ [Atom.gap] ++ spelling) := by
      induction hrest with
      | nil => exact .nil
      | cons hdoc hdocs ih => exact .cons (prints_pair (Doc.prints_plain htext) hdoc).trails ih
    have hspelling (first : Spelling) (rest : List Spelling) :
        List.intercalate [.gap] (first :: rest.map fun spelling => op.spelling ++ [Atom.gap] ++ spelling) =
          chainSpelling op (first :: rest) := by
      induction rest generalizing first with
      | nil => simp [chainSpelling]
      | cons next rest ih =>
        have hnext := ih next
        cases rest <;> simp_all [chainSpelling]
    exact (hfirst.stack hparts).of_eq (hspelling spelling spellings)

theorem prints_binary {left right : ExprForm} {leftSpelling rightSpelling : Spelling}
    (hleft : left.Prints leftSpelling) (op : BinaryOp) (hright : right.Prints rightSpelling) :
    (binary op left right).Prints (leftSpelling ++ .gap :: op.spelling ++ .gap :: rightSpelling) := by
  obtain ⟨spellings, hne, hdocs, rfl⟩ := hleft.operands op
  have hoperands : List.Forall₂ Doc.Prints (left.operands op ++ [right.full])
      (spellings ++ [rightSpelling]) :=
    forall₂_append hdocs (.cons hright.toForm.full .nil)
  have hspelling : chainSpelling op (spellings ++ [rightSpelling]) =
      chainSpelling op spellings ++ .gap :: op.spelling ++ .gap :: rightSpelling := by
    have hne : spellings ≠ [] := by
      rintro rfl
      exact hne (List.forall₂_nil_right_iff.mp hdocs)
    clear hdocs hoperands hleft
    induction spellings with
    | nil => exact absurd rfl hne
    | cons spelling spellings ih =>
      cases spellings with
      | nil => simp [chainSpelling]
      | cons next spellings =>
        have hrest := ih (by simp)
        simp only [chainSpelling, List.cons_append, List.intercalate_cons_cons] at hrest ⊢
        simp [hrest]
  constructor
  · apply prints_choose
    · have htext : (" " ++ op.text ++ " ").toList = plain (.gap :: op.spelling ++ [Atom.gap]) := by
        simp [BinaryOp.toList_text]
      have hline := spells_triple hleft.toForm.compact (.text htext) hright.toForm.compact
      exact hline.of_eq (by simp)
    · exact (prints_chainDoc hoperands).of_eq hspelling
  · intro other docs hchain
    obtain ⟨rfl, rfl⟩ : op = other ∧ left.operands op ++ [right.full] = docs := by
      simpa [binary] using hchain
    exact ⟨_, by simp, hoperands, hspelling.symm⟩

end ExprForm

end Chains

end SqlLayout
