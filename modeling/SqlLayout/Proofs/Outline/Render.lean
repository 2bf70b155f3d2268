import SqlLayout.Proofs.Outline.Label

/-!
# An Outline Is Known from Its Text

How far in a label stands tells where in the outline it belongs, so an outline whose labels can be told is
known from its text. The induction is on the outline, with any text after it that stands less far in than
what is below the outline would.
-/

namespace SqlLayout

namespace Outline

/-- An outline with labels that can be told where they stand. -/
inductive IsReadable : Outline → Prop
  | node {label : String} {children : List Outline} (hlabel : IsLabelText label)
    (h : ∀ child ∈ children, IsReadable child) : IsReadable (.node label children)

/-- The text of an outline at a depth, one character after the other. -/
def chars (depth : Nat) (outline : Outline) : List Char :=
  (outline.lines depth).flatMap fun line => line.toList ++ ['\n']

def childChars (depth : Nat) (outlines : List Outline) : List Char :=
  outlines.flatMap (chars depth)

/-- A text that is empty or has less than a number of blanks in front. -/
def IsShallow (width : Nat) (cs : List Char) : Prop :=
  cs = [] ∨ (cs.takeWhile (· = ' ')).length < width

variable {outline other : Outline} {outlines others : List Outline} {label : String} {depth width : Nat}
  {rest rest' : List Char}

theorem toList_render (outline : Outline) : outline.render.toList = outline.chars 0 := by
  rw [render, chars, String.toList_join]
  simp [List.flatMap_map]

theorem childLines_eq (depth : Nat) (outlines : List Outline) :
    childLines depth outlines = outlines.flatMap (lines depth) := by
  induction outlines with
  | nil => rw [childLines, List.flatMap_nil]
  | cons outline outlines ih => rw [childLines, ih, List.flatMap_cons]

theorem chars_node (depth : Nat) (label : String) (children : List Outline) :
    chars depth (.node label children) =
      List.replicate (2 * depth) ' ' ++ (label.toList ++ '\n' :: childChars (depth + 1) children) := by
  have hchildren : childChars (depth + 1) children =
      (childLines (depth + 1) children).flatMap fun line => line.toList ++ ['\n'] := by
    rw [childLines_eq, List.flatMap_assoc]
    rfl
  rw [chars, lines, List.flatMap_cons, hchildren]
  simp [margin, Text.spaces]

theorem IsShallow.mono {cs : List Char} (h : IsShallow width cs) {wider : Nat} (hle : width ≤ wider) :
    IsShallow wider cs :=
  h.imp_right fun hless => hless.trans_le hle

/-- No label starts with a blank, so the blanks in front of an outline are its margin. -/
theorem length_takeWhile_chars (h : outline.IsReadable) (depth : Nat) (rest : List Char) :
    outline.chars depth ++ rest ≠ [] ∧
      ((outline.chars depth ++ rest).takeWhile (· = ' ')).length = 2 * depth := by
  cases h with
  | @node label children hlabel _ =>
    obtain ⟨spelling, hspelling, htext⟩ := hlabel
    obtain ⟨glyph, hhead⟩ := hspelling.head
    obtain ⟨tail, rfl⟩ : ∃ tail, spelling = .glyph glyph :: tail := List.head?_eq_some_iff.mp hhead
    obtain ⟨c, cs, hglyph, hc⟩ :=
      Glyph.exists_cons_of_isGenuine (hspelling.legible.genuine glyph List.mem_cons_self)
    have hne : c ≠ ' ' := by
      rintro rfl
      exact absurd hc (by decide)
    rw [chars_node, htext, Spelling.plain, hglyph]
    constructor
    · simp
    · simp [List.takeWhile_append_of_pos, hne]

theorem isShallow_childChars (h : ∀ outline ∈ outlines, outline.IsReadable)
    (hrest : IsShallow (2 * depth) rest) :
    IsShallow (2 * (depth + 1)) (childChars depth outlines ++ rest) := by
  cases outlines with
  | nil => exact hrest.mono (by omega)
  | cons outline outlines =>
    right
    rw [childChars, List.flatMap_cons, List.append_assoc,
      (length_takeWhile_chars (h outline List.mem_cons_self) depth _).2]
    omega

/-- No outline starts where the text stands less far in. -/
theorem ne_chars_append (h : outline.IsReadable) (hrest : IsShallow (2 * depth) rest) (tail : List Char) :
    rest ≠ outline.chars depth ++ tail := by
  rintro rfl
  obtain ⟨hne, hlength⟩ := length_takeWhile_chars h depth tail
  rcases hrest with hempty | hless
  · exact hne hempty
  · omega

mutual

/-- An outline is told from any other by its text, whatever text comes after it. -/
theorem chars_inj : (outline other : Outline) → outline.IsReadable → other.IsReadable →
    (depth : Nat) → (rest rest' : List Char) → IsShallow (2 * (depth + 1)) rest →
    IsShallow (2 * (depth + 1)) rest' → outline.chars depth ++ rest = other.chars depth ++ rest' →
    outline = other ∧ rest = rest'
  | .node label children, .node label' children', h, h', depth, rest, rest', hrest, hrest', htext => by
    obtain ⟨⟨spelling, hspelling, hlabel⟩, hchildren⟩ := h
    obtain ⟨⟨spelling', hspelling', hlabel'⟩, hchildren'⟩ := h'
    simp only [chars_node, List.append_assoc, List.cons_append, List.append_right_inj] at htext
    rw [hlabel, hlabel'] at htext
    have hbelow := (Spelling.pieces_of_plain hspelling.legible hspelling.inline hspelling'.legible
      hspelling'.inline htext).2
    rw [hbelow, List.append_left_inj] at htext
    obtain ⟨rfl, hrests⟩ := childChars_inj children children' hchildren hchildren' (depth + 1) rest rest'
      hrest hrest' hbelow
    have hlabels : label = label' := String.toList_injective (by rw [hlabel, hlabel', htext])
    exact ⟨by rw [hlabels], hrests⟩

theorem childChars_inj : (outlines others : List Outline) → (∀ outline ∈ outlines, outline.IsReadable) →
    (∀ other ∈ others, other.IsReadable) → (depth : Nat) → (rest rest' : List Char) →
    IsShallow (2 * depth) rest → IsShallow (2 * depth) rest' →
    childChars depth outlines ++ rest = childChars depth others ++ rest' → outlines = others ∧ rest = rest'
  | [], [], _, _, _, _, _, _, _, htext => ⟨rfl, htext⟩
  | [], other :: others, _, h', depth, rest, rest', hrest, _, htext => by
    rw [childChars, childChars, List.flatMap_nil, List.flatMap_cons, List.append_assoc] at htext
    exact absurd htext (ne_chars_append (h' other List.mem_cons_self) hrest _)
  | outline :: outlines, [], h, _, depth, rest, rest', _, hrest', htext => by
    rw [childChars, childChars, List.flatMap_nil, List.flatMap_cons, List.append_assoc] at htext
    exact absurd htext.symm (ne_chars_append (h outline List.mem_cons_self) hrest' _)
  | outline :: outlines, other :: others, h, h', depth, rest, rest', hrest, hrest', htext => by
    rw [List.forall_mem_cons] at h h'
    rw [childChars, childChars, List.flatMap_cons, List.flatMap_cons, List.append_assoc,
      List.append_assoc] at htext
    obtain ⟨rfl, hbelow⟩ := chars_inj outline other h.1 h'.1 depth _ _ (isShallow_childChars h.2 hrest)
      (isShallow_childChars h'.2 hrest') htext
    obtain ⟨rfl, hrests⟩ := childChars_inj outlines others h.2 h'.2 depth rest rest' hrest hrest' hbelow
    exact ⟨rfl, hrests⟩

end

theorem render_inj (h : outline.IsReadable) (hother : other.IsReadable)
    (htext : outline.render = other.render) : outline = other := by
  have hchars : outline.chars 0 ++ [] = other.chars 0 ++ [] := by
    rw [← toList_render, ← toList_render, htext]
  exact (chars_inj outline other h hother 0 [] [] (.inl rfl) (.inl rfl) hchars).1

end Outline

end SqlLayout
