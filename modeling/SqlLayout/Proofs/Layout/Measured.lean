import SqlLayout.Proofs.Layout.Compact
import SqlLayout.Proofs.Layout.Measure

/-!
# Forms That Can Be Measured

The forms of syntax are built so that their measure can be trusted: an expanded form of two lines or more
has no one-line form at all, and a shorter one breaks no line that the compact form leaves whole. What is
indented is never empty, for a body starts with a text or holds an item that does.
-/

namespace SqlLayout

namespace Doc

variable {page : Page} {doc suffix : Doc} {docs : List Doc}

theorem IsPlain.isMeasured (h : doc.IsPlain) (page : Page) : doc.IsMeasured page := by
  induction h with
  | text content => exact .text content
  | line _ ih => exact .line ih

theorem IsMeasured.append (h : doc.IsMeasured page) (hsuffix : suffix.IsMeasured page) :
    (doc.append suffix).IsMeasured page := by
  unfold Doc.append
  split
  · cases h with
    | line h =>
      exact .line (List.forall_mem_append.mpr ⟨h, List.forall_mem_singleton.mpr hsuffix⟩)
  · exact .line (by simp [h, hsuffix])

theorem isSome_line : ((line docs).flat page).isSome ↔ ∀ doc ∈ docs, (doc.flat page).isSome := by
  rw [flat, Option.isSome_map, flats_isSome_iff]

theorem isSome_wrap (sep : String) :
    ((wrap docs sep).flat page).isSome ↔ ∀ doc ∈ docs, (doc.flat page).isSome := by
  rw [flat, Option.isSome_map, flats_isSome_iff]

theorem isSome_append :
    ((doc.append suffix).flat page).isSome ↔ (doc.flat page).isSome ∧ (suffix.flat page).isSome := by
  simp [flat_append, Option.isSome_iff_exists, Option.map₂_eq_some_iff]

theorem flat_line_eq_empty_iff :
    (line docs).flat page = some "" ↔ ∀ doc ∈ docs, doc.flat page = some "" := by
  rw [flat]
  induction docs with
  | nil => simp [flats]
  | cons doc docs ih =>
    rw [List.forall_mem_cons, ← ih]
    simp only [Option.map_eq_some_iff, flats_cons_eq_some]
    constructor
    · rintro ⟨_, ⟨first, rest, hfirst, hrest, rfl⟩, hjoin⟩
      rw [String.join_cons, String.append_eq_empty_iff] at hjoin
      exact ⟨hjoin.1 ▸ hfirst, rest, hrest, hjoin.2⟩
    · rintro ⟨hdoc, rest, hrest, hjoin⟩
      exact ⟨_, ⟨_, rest, hdoc, hrest, rfl⟩, by simp [String.join_cons, hjoin]⟩

/-- A line with a part that is not empty. -/
theorem inked_line (hmem : doc ∈ docs) (h : doc.flat page ≠ some "") : (line docs).flat page ≠ some "" :=
  fun hempty => h (flat_line_eq_empty_iff.mp hempty doc hmem)

theorem inked_text {content : String} (h : content ≠ "") : (text content).flat page ≠ some "" := by
  rw [flat]
  split
  · simp
  · simpa using h

theorem inked_headed {head : String} (h : head ≠ "") (docs : List Doc) :
    (line (text head :: docs)).flat page ≠ some "" :=
  inked_line List.mem_cons_self (inked_text h)

theorem inked_append (h : doc.flat page ≠ some "") : (doc.append suffix).flat page ≠ some "" := by
  rw [flat_append, Ne, Option.map₂_eq_some_iff]
  rintro ⟨first, last, hfirst, -, hempty⟩
  exact h ((String.append_eq_empty_iff.mp hempty).1 ▸ hfirst)

/-- A stack of more than one part is not empty on one line, for it is on no single line. -/
theorem inked_stack (h : doc.flat page ≠ some "") (docs : List Doc) :
    (stack (doc :: docs)).flat page ≠ some "" := by
  cases docs with
  | nil => exact h
  | cons next docs => simp [flat]

theorem inked_choice {compact full : Doc} (h : compact.flat page ≠ some "")
    (hfull : full.flat page ≠ some "") : (choice compact full).flat page ≠ some "" := by
  rw [flat]
  cases hcompact : compact.flat page with
  | none => exact hfull
  | some line => simpa [hcompact] using h

end Doc

namespace Form

/-- The compact form is plain, the measure of the full one can be trusted, and the full form has no
one-line form where the compact one has none. -/
structure IsMeasured (page : Page) (form : Form) : Prop where
  plain : form.compact.IsPlain
  full : form.full.IsMeasured page
  isSome : (form.full.flat page).isSome → (form.compact.flat page).isSome

/-- A form that may be indented. -/
structure IsInked (page : Page) (form : Form) : Prop extends IsMeasured page form where
  inked : form.full.flat page ≠ some ""

variable {page : Page} {form : Form} {forms : List Form}

theorem measured_plain {doc : Doc} (h : doc.IsPlain) : IsMeasured page ⟨doc, doc⟩ :=
  ⟨h, h.isMeasured page, id⟩

theorem measured_text (content : String) : (text content).IsMeasured page :=
  measured_plain (.text content)

theorem plains (h : ∀ form ∈ forms, form.IsMeasured page) : ∀ doc ∈ forms.map Form.compact, doc.IsPlain :=
  List.forall_mem_map.mpr fun form hmem => (h form hmem).plain

theorem measures (h : ∀ form ∈ forms, form.IsMeasured page) :
    ∀ doc ∈ forms.map Form.full, doc.IsMeasured page :=
  List.forall_mem_map.mpr fun form hmem => (h form hmem).full

theorem isSome_compacts (h : ∀ form ∈ forms, form.IsMeasured page)
    (hsome : ∀ doc ∈ forms.map Form.full, (doc.flat page).isSome) :
    ∀ doc ∈ forms.map Form.compact, (doc.flat page).isSome := by
  rw [List.forall_mem_map] at hsome ⊢
  exact fun form hmem => (h form hmem).isSome (hsome form hmem)

theorem measured_choose {compact expanded : Doc} (h : compact.IsPlain)
    (hexpanded : expanded.IsMeasured page)
    (hsome : (expanded.flat page).isSome → (compact.flat page).isSome) :
    (choose compact expanded).IsMeasured page := by
  refine ⟨h, .choice (h.isMeasured page) hexpanded fun hnone => ?_, fun hfull => ?_⟩
  · rw [hnone] at hsome
    exact Option.not_isSome_iff_eq_none.mp fun h => absurd (hsome h) (by simp)
  · rw [choose, Doc.flat, Option.isSome_or, Bool.or_eq_true] at hfull
    exact hfull.elim id hsome

/-- What stands on two lines or more is not on one line. -/
theorem measured_chooseStack {compact first second : Doc} {rest : List Doc} (h : compact.IsPlain)
    (hparts : ∀ doc ∈ first :: second :: rest, doc.IsMeasured page) :
    (choose compact (.stack (first :: second :: rest))).IsMeasured page := by
  refine measured_choose h (.stack hparts) fun hsome => ?_
  rw [Doc.flat] at hsome
  cases hsome

theorem measured_sides {compacts fulls : List Doc}
    (h : List.Forall₂ (fun compact full => IsMeasured page ⟨compact, full⟩) compacts fulls) :
    IsMeasured page ⟨.line compacts, .line fulls⟩ := by
  have hfull : ∀ part ∈ fulls, part.IsMeasured page := by
    induction h with
    | nil => simp
    | cons hpart _ ih => exact List.forall_mem_cons.mpr ⟨hpart.full, ih⟩
  refine ⟨isPlain_sides (h.imp fun _ _ hpart => hpart.plain), .line hfull, fun hsome => ?_⟩
  rw [Doc.isSome_line] at hsome ⊢
  clear hfull
  induction h with
  | nil => simp
  | cons hpart _ ih =>
    rw [List.forall_mem_cons] at hsome ⊢
    exact ⟨hpart.isSome hsome.1, ih hsome.2⟩

theorem IsMeasured.append (h : form.IsMeasured page) (suffix : String) :
    (form.append suffix).IsMeasured page := by
  refine ⟨h.plain.append (.text suffix), h.full.append (.text suffix), fun hsome => ?_⟩
  rw [Form.append, Doc.isSome_append] at hsome ⊢
  exact ⟨h.isSome hsome.1, hsome.2⟩

theorem IsInked.append (h : form.IsInked page) (suffix : String) : (form.append suffix).IsInked page :=
  ⟨h.toIsMeasured.append suffix, Doc.inked_append h.inked⟩

theorem inline_measured : IsInline (IsMeasured page) :=
  ⟨measured_text, measured_sides, fun h suffix => h.append suffix⟩

section Builders

theorem isSome_between {docs : List Doc} {sep : String} (hsep : '\n' ∉ sep.toList)
    (h : ∀ doc ∈ docs, (doc.flat page).isSome) :
    ((Doc.line (docs.intersperse (.text sep))).flat page).isSome :=
  Doc.isSome_line.mpr (forall_mem_intersperse h (by simp [Doc.flat, hsep]))

/-- Parts on a page: side by side they break no line that one of them does not break. -/
theorem measured_phrases (h : ∀ form ∈ forms, form.IsMeasured page) :
    (phrases forms).IsMeasured page := by
  refine measured_choose (isPlain_spaced (plains h)) (.stack (measures h)) fun hsome => ?_
  match forms with
  | [] => rfl
  | [form] =>
    apply isSome_between (by decide)
    exact isSome_compacts h (List.forall_mem_singleton.mpr hsome)
  | _ :: _ :: _ => cases hsome

theorem measured_withCommas (tail : String) {docs : List Doc} (h : ∀ doc ∈ docs, doc.IsMeasured page) :
    ∀ doc ∈ withCommas tail docs, doc.IsMeasured page := by
  induction docs with
  | nil => exact h
  | cons doc docs ih =>
    obtain ⟨hdoc, hdocs⟩ := List.forall_mem_cons.mp h
    cases docs with
    | nil =>
      rw [withCommas, List.forall_mem_singleton]
      split
      · exact hdoc
      · exact hdoc.append (.text tail)
    | cons next docs => exact List.forall_mem_cons.mpr ⟨hdoc.append (.text ","), ih hdocs⟩

/-- Commas and a tail break no line. -/
theorem isSome_of_withCommas {tail : String} {docs : List Doc} (hne : docs ≠ [])
    (h : ∀ doc ∈ withCommas tail docs, (doc.flat page).isSome) :
    (∀ doc ∈ docs, (doc.flat page).isSome) ∧ ((Doc.text tail).flat page).isSome := by
  induction docs with
  | nil => exact absurd rfl hne
  | cons doc docs ih =>
    cases docs with
    | nil =>
      rw [withCommas, List.forall_mem_singleton] at h
      rw [List.forall_mem_singleton]
      split at h
      · rename_i hempty
        exact ⟨h, by simp [Doc.flat, String.isEmpty_iff.mp hempty]⟩
      · exact Doc.isSome_append.mp h
    | cons next docs =>
      obtain ⟨hdoc, hdocs⟩ := List.forall_mem_cons.mp h
      obtain ⟨hrest, htail⟩ := ih (List.cons_ne_nil _ _) hdocs
      exact ⟨List.forall_mem_cons.mpr ⟨(Doc.isSome_append.mp hdoc).1, hrest⟩, htail⟩

theorem measured_commaWrap (tail : String) {docs : List Doc} (h : ∀ doc ∈ docs, doc.IsMeasured page) :
    (commaWrap docs tail).IsMeasured page := by
  unfold commaWrap
  split
  · exact .text tail
  · exact .wrap " " (measured_withCommas tail h)

theorem isSome_of_commaWrap {tail : String} {docs : List Doc}
    (h : ((commaWrap docs tail).flat page).isSome) :
    (∀ doc ∈ docs, (doc.flat page).isSome) ∧ ((Doc.text tail).flat page).isSome := by
  unfold commaWrap at h
  split at h
  · rename_i hempty
    simpa [List.isEmpty_iff.mp hempty] using h
  · rename_i hsome
    exact isSome_of_withCommas (by simpa using hsome) ((Doc.isSome_wrap " ").mp h)

theorem measured_call (head tail : String) (h : ∀ form ∈ forms, form.IsMeasured page) :
    (call head tail forms).IsMeasured page := by
  have hwrap := measured_commaWrap tail (measures h)
  refine measured_choose (isPlain_between (isPlain_commaLine (plains h)) head tail)
    (.line (by simp [Doc.IsMeasured.text, hwrap])) fun hsome => ?_
  obtain ⟨hhead, hparts⟩ := List.forall_mem_cons.mp (Doc.isSome_line.mp hsome)
  obtain ⟨hfulls, htail⟩ := isSome_of_commaWrap (hparts _ List.mem_cons_self)
  have hcommas : ((commaLine (forms.map Form.compact)).flat page).isSome :=
    isSome_between (by decide) (isSome_compacts h hfulls)
  rw [Doc.isSome_line, List.forall_mem_cons, List.forall_mem_cons, List.forall_mem_singleton]
  exact ⟨hhead, hcommas, htail⟩

theorem inked_call {head : String} (hhead : head ≠ "") (tail : String)
    (h : ∀ form ∈ forms, form.IsMeasured page) : (call head tail forms).IsInked page :=
  ⟨measured_call head tail h, Doc.inked_choice (Doc.inked_headed hhead _) (Doc.inked_headed hhead _)⟩

/-- A list that is broken is on no single line. -/
theorem flat_commaStack (first second : Doc) (rest : List Doc) :
    (commaStack (first :: second :: rest)).flat page = none := by
  cases rest <;> rfl

theorem inked_commas (hne : forms ≠ []) (h : ∀ form ∈ forms, form.IsInked page) :
    (commas forms).IsInked page := by
  have hmeasured : ∀ form ∈ forms, form.IsMeasured page := fun form hmem => (h form hmem).toIsMeasured
  have hplain := isPlain_commaLine (plains hmeasured)
  have hfull : (commaStack (forms.map Form.full)).IsMeasured page :=
    .stack (measured_withCommas "" (measures hmeasured))
  match forms with
  | [] => exact absurd rfl hne
  | [form] =>
    obtain ⟨hform, hinked⟩ := h form List.mem_cons_self
    refine ⟨⟨hplain, hfull, fun hsome => ?_⟩, hinked⟩
    apply isSome_between (by decide)
    exact isSome_compacts hmeasured (List.forall_mem_singleton.mpr hsome)
  | first :: second :: rest =>
    have hnone : (commas (first :: second :: rest)).full.flat page = none := flat_commaStack _ _ _
    exact ⟨⟨hplain, hfull, by simp [hnone]⟩, by simp [hnone]⟩

theorem inked_clause (keyword : String) (h : form.IsInked page) : (clause keyword form).IsInked page := by
  refine ⟨measured_chooseStack (isPlain_headed h.plain _) ?_,
    Doc.inked_choice (Doc.inked_headed (by simp) _) (by simp [Doc.flat])⟩
  simp [Doc.IsMeasured.text, Doc.IsMeasured.indent h.full h.inked]

theorem inked_listClause (keyword : String) (hne : forms ≠ []) (h : ∀ form ∈ forms, form.IsInked page) :
    (listClause keyword forms).IsInked page :=
  inked_clause keyword (inked_commas hne h)

theorem measured_enclosed (head tail : String) (h : form.IsInked page) :
    (enclosed head form tail).IsMeasured page := by
  apply measured_chooseStack (isPlain_between h.plain head tail)
  simp [Doc.IsMeasured.text, Doc.IsMeasured.indent h.full h.inked]

theorem inked_enclosed {head : String} (hhead : head ≠ "") (tail : String) (h : form.IsInked page) :
    (enclosed head form tail).IsInked page :=
  ⟨measured_enclosed head tail h,
    Doc.inked_choice (Doc.inked_headed hhead _) (by simp [Doc.flat])⟩

/-- Parts below each other, indented; only the first of them has to be something. -/
theorem measured_indent (h : form.IsInked page) (hforms : ∀ form ∈ forms, form.IsMeasured page) :
    (Doc.indent (.stack ((form :: forms).map Form.full))).IsMeasured page :=
  .indent (.stack (measures (List.forall_mem_cons.mpr ⟨h.toIsMeasured, hforms⟩)))
    (Doc.inked_stack h.inked _)

theorem measured_aggregate (head : String) (h : form.IsInked page)
    (hforms : ∀ form ∈ forms, form.IsMeasured page) :
    (aggregate head (form :: forms)).IsMeasured page := by
  have hplain := isPlain_spaced (plains (List.forall_mem_cons.mpr ⟨h.toIsMeasured, hforms⟩))
  have hindent := measured_indent h hforms
  apply measured_chooseStack (isPlain_between hplain head ")")
  simp only [List.forall_mem_cons]
  exact ⟨.text head, hindent, .text ")", List.forall_mem_nil _⟩

theorem inked_distinct (isDistinct : Bool) (h : form.IsInked page) :
    (distinct isDistinct form).IsInked page := by
  refine ⟨inline_measured.distinct isDistinct h.toIsMeasured, ?_⟩
  unfold distinct
  split
  · exact Doc.inked_headed (by decide) _
  · exact h.inked

end Builders

end Form

open Form

section Parts

variable {page : Page} {form left right : Form} {forms : List Form}

theorem measured_windowForm (h : ∀ form ∈ forms, form.IsInked page) :
    (windowForm forms).IsMeasured page := by
  have hplain : (Form.spaced (forms.map Form.compact)).IsPlain :=
    isPlain_spaced (plains fun form hmem => (h form hmem).toIsMeasured)
  have hline := isPlain_between hplain "OVER (" ")"
  cases forms with
  | nil => exact measured_plain hline
  | cons form forms =>
    obtain ⟨hform, hforms⟩ := List.forall_mem_cons.mp h
    have hindent := measured_indent hform fun form hmem => (hforms form hmem).toIsMeasured
    apply measured_chooseStack hline
    simp only [List.forall_mem_cons]
    exact ⟨.text "OVER (", hindent, .text ")", List.forall_mem_nil _⟩

theorem measured_callForm (function : QualifiedName) (distinct : Bool) (nulls : Option NullHandling)
    (h : ∀ form ∈ forms, form.IsMeasured page) :
    (callForm function distinct forms nulls).IsMeasured page := by
  have hfirst := forall_modifyFirst h fun form hform => inline_measured.distinct distinct hform
  cases nulls with
  | none => exact measured_call _ _ hfirst
  | some nulls => exact measured_call _ _ (forall_modifyLast hfirst fun form hform => hform.append _)

theorem measured_joinForm {condition : Form} (h : left.IsMeasured page) (kind : JoinKind)
    (hright : right.IsMeasured page) (hcondition : condition.IsMeasured page) :
    (joinForm left kind right condition).IsMeasured page := by
  unfold joinForm
  split
  · have hcomma := h.full.append (.text ",")
    exact measured_chooseStack (.line (by simp [Doc.IsPlain.text, h.plain, hright.plain]))
      (by simp [hcomma, hright.full])
  · have hparts : (Doc.line [.text (kind.text ++ " "), right.full, condition.full]).IsMeasured page :=
      .line (by simp [Doc.IsMeasured.text, hright.full, hcondition.full])
    exact measured_chooseStack
      (.line (by simp [Doc.IsPlain.text, h.plain, hright.plain, hcondition.plain]))
      (by simp [h.full, hparts])

/-- A clause with a list, unless the list is empty. -/
theorem inked_listClauses (keyword : String) (h : ∀ form ∈ forms, form.IsInked page) :
    ∀ form ∈ if forms.isEmpty then [] else [Form.listClause keyword forms], form.IsInked page := by
  split
  · exact List.forall_mem_nil _
  · rename_i hsome
    exact List.forall_mem_singleton.mpr (inked_listClause keyword (by simpa using hsome) h)

theorem inked_delimited (h : form.IsInked page) (delimiter : Option Constant) :
    Form.IsInked page
      (match delimiter with
        | some delimiter => Form.line [form, .text (", " ++ delimiter.text)]
        | none => form) := by
  cases delimiter with
  | none => exact h
  | some delimiter =>
    exact ⟨inline_measured.line (by simp [measured_text, h.toIsMeasured]),
      Doc.inked_line List.mem_cons_self h.inked⟩

/-- The body of an aggregate and its modifiers. -/
theorem measured_aggregateForm {orders windows : List Form} (head : String) (h : form.IsInked page)
    (nulls : Option NullHandling) (horders : ∀ form ∈ orders, form.IsMeasured page)
    (hwindows : ∀ form ∈ windows, form.IsMeasured page) :
    (Form.aggregate head (form :: (nulls.map fun nulls => Form.text nulls.text).toList
      ++ orders ++ windows)).IsMeasured page := by
  apply measured_aggregate head h
  simp only [List.append_eq, List.forall_mem_append]
  exact ⟨⟨inline_measured.texts _ nulls, horders⟩, hwindows⟩

theorem measured_case {head first : Form} {arms : List Form} (h : head.IsMeasured page)
    (hfirst : first.IsInked page) (harms : ∀ form ∈ arms, form.IsMeasured page) :
    (Form.choose (Form.spaced (head.compact :: (first :: arms).map Form.compact ++ [Doc.text "END"]))
      (.stack [head.full, .indent (.stack ((first :: arms).map Form.full)), .text "END"])).IsMeasured
        page := by
  have hindent := measured_indent hfirst harms
  have hplains := plains (List.forall_mem_cons.mpr ⟨hfirst.toIsMeasured, harms⟩)
  apply measured_chooseStack
  · apply isPlain_spaced
    simp only [List.cons_append, List.forall_mem_cons, List.forall_mem_append]
    exact ⟨h.plain, hplains, .text "END", List.forall_mem_nil _⟩
  · simp only [List.forall_mem_cons]
    exact ⟨h.full, hindent, .text "END", List.forall_mem_nil _⟩

end Parts

end SqlLayout
