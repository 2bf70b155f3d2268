import SqlLayout.Doc.Query
import SqlLayout.Proofs.Layout.Form

/-!
# Forms Side by Side

Much of syntax is printed as texts and parts side by side, perhaps with a suffix. What is true of every
text, of parts side by side if it is true of each part, and of a part with a suffix if it is true of the
part, is true of all forms that are put together in this way.
-/

namespace SqlLayout

theorem forall_mem_intersperse {α : Type} {p : α → Prop} {as : List α} (h : ∀ a ∈ as, p a) {sep : α}
    (hsep : p sep) : ∀ a ∈ as.intersperse sep, p a := by
  induction as with
  | nil => simp
  | cons a as ih =>
    have hrest := ih fun a hmem => h a (List.mem_cons_of_mem _ hmem)
    cases as with
    | nil => simpa using h
    | cons next as =>
      rw [List.intersperse_cons_cons]
      simp only [List.forall_mem_cons]
      exact ⟨h a (by simp), hsep, hrest⟩

namespace Form

section Lists

variable {p : Form → Prop} {forms : List Form} {change : Form → Form}

theorem forall_modifyFirst (h : ∀ form ∈ forms, p form) (hchange : ∀ form, p form → p (change form)) :
    ∀ form ∈ modifyFirst change forms, p form := by
  cases forms with
  | nil => exact h
  | cons form forms =>
    obtain ⟨hform, hforms⟩ := List.forall_mem_cons.mp h
    exact List.forall_mem_cons.mpr ⟨hchange form hform, hforms⟩

theorem forall_modifyLast (h : ∀ form ∈ forms, p form) (hchange : ∀ form, p form → p (change form)) :
    ∀ form ∈ modifyLast change forms, p form := by
  induction forms with
  | nil => exact h
  | cons form forms ih =>
    obtain ⟨hform, hforms⟩ := List.forall_mem_cons.mp h
    cases forms with
    | nil => exact List.forall_mem_singleton.mpr (hchange form hform)
    | cons next forms => exact List.forall_mem_cons.mpr ⟨hform, ih hforms⟩

theorem forall₂_sides (h : ∀ form ∈ forms, p form) :
    List.Forall₂ (fun compact full => p ⟨compact, full⟩) (forms.map Form.compact)
      (forms.map Form.full) := by
  simpa [List.forall₂_map_left_iff, List.forall₂_map_right_iff, List.forall₂_same] using h

end Lists

/-- What is true of forms that are put together side by side. -/
structure IsInline (p : Form → Prop) : Prop where
  text (content : String) : p (.text content)
  sides {compacts fulls : List Doc}
    (h : List.Forall₂ (fun compact full => p ⟨compact, full⟩) compacts fulls) :
    p ⟨.line compacts, .line fulls⟩
  append {form : Form} (h : p form) (suffix : String) : p (form.append suffix)

end Form

section Suffixes

variable {p : Form → Prop} {form : Form}

theorem of_aliased (happend : ∀ {form : Form}, p form → ∀ suffix, p (form.append suffix)) (h : p form)
    (aliasName : Option Identifier) : p (aliased form aliasName) := by
  cases aliasName with
  | none => exact h
  | some name => exact happend h _

theorem of_sortSuffix (happend : ∀ {form : Form}, p form → ∀ suffix, p (form.append suffix)) (h : p form)
    (direction : Option Direction) (nulls : Option NullsOrder) : p (sortSuffix form direction nulls) := by
  cases direction <;> cases nulls
  · exact h
  · exact happend h _
  · exact happend h _
  · exact happend (happend h _) _

end Suffixes

namespace Form.IsInline

variable {p : Form → Prop} {form left right : Form} {forms : List Form} (hp : IsInline p)

include hp

theorem line (h : ∀ form ∈ forms, p form) : p (line forms) :=
  hp.sides (forall₂_sides h)

/-- A list with commas that is never broken. -/
theorem commaLine (h : ∀ form ∈ forms, p form) :
    p ⟨Form.commaLine (forms.map Form.compact), Form.commaLine (forms.map Form.full)⟩ :=
  hp.sides (forall₂_intersperse (forall₂_sides h) (hp.text ", "))

/-- A text before a form. -/
theorem keyword (head : String) (h : p form) : p (Form.line [.text head, form]) :=
  hp.line (by simp [hp.text, h])

theorem distinct (isDistinct : Bool) (h : p form) : p (distinct isDistinct form) := by
  unfold Form.distinct
  split
  · exact hp.keyword "DISTINCT " h
  · exact h

theorem indexForm (h : p left) (hposition : p right) (kind : Option IndexKind) :
    p (indexForm left right kind) := by
  cases kind <;> exact hp.line (by simp [hp.text, h, hposition])

theorem accessorForm (h : p form) (name : Option Identifier) : p (accessorForm form name) := by
  cases name <;> exact hp.line (by simp [hp.text, h])

theorem delimited (h : p form) (delimiter : Option Constant) :
    p (match delimiter with
      | some delimiter => Form.line [form, .text (", " ++ delimiter.text)]
      | none => form) := by
  cases delimiter with
  | none => exact h
  | some delimiter => exact hp.line (by simp [hp.text, h])

theorem texts {α : Type} (content : α → String) (o : Option α) :
    ∀ form ∈ (o.map fun a => Form.text (content a)).toList, p form := by
  cases o <;> simp [hp.text]

theorem identifierForms (names : List Identifier) : ∀ form ∈ identifierForms names, p form :=
  List.forall_mem_map.mpr fun name _ => hp.text name.raw

theorem listSuffix (keyword : String) (h : ∀ form ∈ forms, p form) :
    ∀ form ∈ listSuffix keyword forms, p form := by
  unfold SqlLayout.listSuffix
  split
  · exact List.forall_mem_nil _
  · simp [hp.text, hp.commaLine h]

/-- A star with its suffixes. -/
theorem wildcard {star : Form} {replace : List Form} (h : p star) (except : List Identifier)
    (hreplace : ∀ form ∈ replace, p form) :
    p (Form.line (star :: SqlLayout.listSuffix "EXCEPT" (SqlLayout.identifierForms except)
      ++ SqlLayout.listSuffix "REPLACE" replace)) := by
  apply hp.line
  simp only [List.cons_append, List.forall_mem_cons, List.forall_mem_append]
  exact ⟨h, hp.listSuffix "EXCEPT" (hp.identifierForms except), hp.listSuffix "REPLACE" hreplace⟩

end Form.IsInline

end SqlLayout
