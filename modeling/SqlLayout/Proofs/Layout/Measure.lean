import SqlLayout.Proofs.Layout.Plain

/-!
# Measuring Agrees with Laying Out

A wrap asks how long its items are on one line before any of them is laid out. The answer is right where
the choices of the items cannot go another way and where nothing that is moved to the right is empty: then
what has a one-line form that fits is laid out as that form.
-/

namespace SqlLayout

namespace Doc

/-- What is indented is not empty on one line, and a choice whose compact side has no one-line form has
none on its other side. -/
inductive IsMeasured (page : Page) : Doc → Prop
  | text (content : String) : IsMeasured page (.text content)
  | line {parts : List Doc} (h : ∀ part ∈ parts, IsMeasured page part) : IsMeasured page (.line parts)
  | stack {parts : List Doc} (h : ∀ part ∈ parts, IsMeasured page part) : IsMeasured page (.stack parts)
  | indent {body : Doc} (h : IsMeasured page body) (hinked : body.flat page ≠ some "") :
    IsMeasured page (.indent body)
  | wrap {items : List Doc} (sep : String) (h : ∀ item ∈ items, IsMeasured page item) :
    IsMeasured page (.wrap items sep)
  | choice {compact full : Doc} (hcompact : IsMeasured page compact) (hfull : IsMeasured page full)
    (hnone : compact.flat page = none → full.flat page = none) : IsMeasured page (.choice compact full)

variable {page : Page} {doc suffix : Doc} {docs : List Doc} {texts : List String} {text sep : String}
  {col : Nat}

section Flats

theorem flats_cons_eq_some :
    flats page (doc :: docs) = some texts ↔
      ∃ first rest, doc.flat page = some first ∧ flats page docs = some rest ∧ texts = first :: rest := by
  simp only [flats, Option.bind_eq_bind, Option.bind_eq_some_iff]
  constructor
  · rintro ⟨first, hfirst, rest, hrest, htexts⟩
    exact ⟨first, rest, hfirst, hrest, (Option.some.inj htexts).symm⟩
  · rintro ⟨first, rest, hfirst, hrest, rfl⟩
    exact ⟨first, hfirst, rest, hrest, rfl⟩

theorem flats_isSome_iff : (flats page docs).isSome ↔ ∀ doc ∈ docs, (doc.flat page).isSome := by
  induction docs with
  | nil => simp [flats]
  | cons doc docs ih =>
    rw [List.forall_mem_cons, ← ih]
    simp only [Option.isSome_iff_exists, flats_cons_eq_some]
    constructor
    · rintro ⟨_, first, rest, hfirst, hrest, -⟩
      exact ⟨⟨first, hfirst⟩, rest, hrest⟩
    · rintro ⟨⟨first, hfirst⟩, rest, hrest⟩
      exact ⟨_, first, rest, hfirst, hrest, rfl⟩

end Flats

section Layouts

theorem layout_text_of_flat {content : String} (h : (Doc.text content).flat page = some text) (col : Nat) :
    (Doc.text content).layout page col = { first := text } := by
  rw [flat] at h
  split at h
  · cases h
  · rename_i hnone
    rw [← Option.some.inj h]
    have hnewline : '\n' ∉ content.toList := by simpa using hnone
    have hchars := Block.ofChars_of_notMem hnewline
    rw [String.ofList_toList] at hchars
    exact hchars

theorem layoutLine_of_flats
    (h : ∀ doc ∈ docs, ∀ col text, doc.flat page = some text → col + text.length ≤ page.width →
      doc.layout page col = { first := text })
    (htexts : flats page docs = some texts) (hfits : col + (String.join texts).length ≤ page.width) :
    layoutLine page docs col = { first := String.join texts } := by
  induction docs generalizing texts col with
  | nil =>
    cases htexts
    rfl
  | cons doc docs ih =>
    obtain ⟨first, rest, hfirst, hrest, rfl⟩ := flats_cons_eq_some.mp htexts
    rw [String.join_cons, String.length_append] at hfits
    have hdoc := h doc List.mem_cons_self col first hfirst (by omega)
    have hroom : (col + first.length) + (String.join rest).length ≤ page.width := by omega
    have hdocs := ih (fun other hmem => h other (List.mem_cons_of_mem _ hmem)) hrest hroom
    rw [layoutLine, hdoc, String.join_cons]
    exact congrArg (Block.append { first }) hdocs

/-- A document that has a one-line form which fits is laid out as that form. -/
theorem layout_eq_of_flat (h : doc.IsMeasured page) (hflat : doc.flat page = some text)
    (hfits : col + text.length ≤ page.width) : doc.layout page col = { first := text } := by
  induction h generalizing col text with
  | text content => exact layout_text_of_flat hflat col
  | line h ih =>
    rw [flat] at hflat
    obtain ⟨texts, htexts, rfl⟩ := Option.map_eq_some_iff.mp hflat
    rw [layout]
    exact layoutLine_of_flats (fun part hmem _ _ => ih part hmem) htexts hfits
  | @stack parts h ih =>
    rw [layout]
    rcases parts with _ | ⟨only, _ | ⟨next, rest⟩⟩
    · cases hflat
      rfl
    · rw [flat] at hflat
      rw [layouts, layouts, Block.stack_singleton]
      exact ih only List.mem_cons_self hflat hfits
    · cases hflat
  | @indent body h hinked ih =>
    rw [flat] at hflat
    obtain ⟨line, hline, rfl⟩ := Option.map_eq_some_iff.mp hflat
    have hne : line.isEmpty = false := by
      simpa [String.isEmpty_iff] using fun hempty : line = "" => hinked (hempty ▸ hline)
    have hlength : (Block.padLine page.indent line).length = page.indent + line.length := by
      simp [Block.padLine, hne, Text.spaces]
    rw [hlength] at hfits
    rw [layout, ih hline (by omega)]
    rfl
  | wrap sep h ih =>
    rw [flat] at hflat
    rw [layout, hflat]
    exact if_pos hfits
  | @choice compact full hcompact hfull hnone ihCompact ihFull =>
    rw [flat] at hflat
    cases hside : compact.flat page with
    | none =>
      rw [hside, hnone hside] at hflat
      cases hflat
    | some line =>
      rw [hside] at hflat
      cases hflat
      have hblock := ihCompact hside hfits
      have hfitting : (compact.layout page col).fits page.width col := by
        rw [hblock]
        simpa [Block.fits] using hfits
      rw [layout, if_pos hfitting, hblock]

theorem endColumn_ofText_le (content : String) (col : Nat) :
    (Block.ofText content).endColumn col ≤ col + content.length := by
  have hlines (line : String) (h : line ∈ (Block.ofText content).lines) : line.length ≤ content.length :=
    Block.length_le_of_mem_ofText h
  unfold Block.endColumn
  split
  · have hfirst := hlines _ List.mem_cons_self
    omega
  · rename_i last hlast
    have hlast := hlines last (List.mem_cons_of_mem _ (List.mem_of_getLast? hlast))
    omega

/-- Items side by side with the separator between them print what they are joined to. The separator may be
of several lines, after which the items only have more room. -/
theorem chars_layoutLine_intersperse (h : ∀ doc ∈ docs, doc.IsMeasured page)
    (htexts : flats page docs = some texts) (hfits : col + (sep.intercalate texts).length ≤ page.width) :
    (layoutLine page (docs.intersperse (.text sep)) col).chars = (sep.intercalate texts).toList := by
  induction docs generalizing texts col with
  | nil =>
    cases htexts
    rfl
  | cons doc docs ih =>
    obtain ⟨first, rest, hfirst, hrest, rfl⟩ := flats_cons_eq_some.mp htexts
    have hdoc := h doc List.mem_cons_self
    cases docs with
    | nil =>
      cases hrest
      rw [String.intercalate_singleton] at hfits ⊢
      rw [List.intersperse_singleton, layoutLine, layout_eq_of_flat hdoc hfirst hfits, layoutLine,
        Block.append_empty]
      simp [Block.chars]
    | cons next docs =>
      obtain ⟨second, others, hsecond, hothers, rfl⟩ := flats_cons_eq_some.mp hrest
      rw [String.intercalate_cons_cons, String.length_append, String.length_append] at hfits
      have hcolumn := endColumn_ofText_le sep (col + first.length)
      have hroom : (Block.ofText sep).endColumn (col + first.length)
          + (sep.intercalate (second :: others)).length ≤ page.width := by omega
      have hdocs := ih (fun other hmem => h other (List.mem_cons_of_mem _ hmem)) hrest hroom
      rw [List.intersperse_cons_cons, layoutLine, layout_eq_of_flat hdoc hfirst (by omega), layoutLine,
        layout, Block.chars_append, Block.chars_append, Block.chars_ofText]
      have hend : Block.endColumn { first } col = col + first.length := rfl
      rw [hend, hdocs, String.intercalate_cons_cons]
      simp [Block.chars]

end Layouts

end Doc

end SqlLayout
