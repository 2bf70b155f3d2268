/-!
# Texts up to a Mark

Items are written one after the other, each in a way of its own, and a mark is put behind them. If an item
is known from what is written for it, whatever comes after, and the mark starts none of them, then the
items are known from the whole text, and so is what comes after the mark.
-/

namespace SqlLayout.Text

variable {α : Type} {write : α → List Char} {mark : Char} {rest rest' : List Char}

/-- Each item can be told from what follows it, and from the mark. -/
structure IsReadableUpTo (mark : Char) (write : α → List Char) : Prop where
  inj {a b : α} {rest rest' : List Char} (h : write a ++ rest = write b ++ rest') : a = b ∧ rest = rest'
  ne_mark (a : α) (rest rest' : List Char) : write a ++ rest ≠ mark :: rest'

theorem IsReadableUpTo.flatMap_inj (h : IsReadableUpTo mark write) {items others : List α}
    (htext : items.flatMap write ++ mark :: rest = others.flatMap write ++ mark :: rest') :
    items = others ∧ rest = rest' := by
  induction items generalizing others with
  | nil =>
    cases others with
    | nil => exact ⟨rfl, (List.cons.inj htext).2⟩
    | cons b others =>
      rw [List.flatMap_nil, List.nil_append, List.flatMap_cons, List.append_assoc] at htext
      exact absurd htext.symm (h.ne_mark b _ _)
  | cons a items ih =>
    rw [List.flatMap_cons, List.append_assoc] at htext
    cases others with
    | nil => exact absurd htext (h.ne_mark a _ _)
    | cons b others =>
      rw [List.flatMap_cons, List.append_assoc] at htext
      obtain ⟨rfl, htail⟩ := h.inj htext
      obtain ⟨rfl, hrest⟩ := ih htail
      exact ⟨rfl, hrest⟩

end SqlLayout.Text
