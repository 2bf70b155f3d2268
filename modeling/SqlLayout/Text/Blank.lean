import SqlLayout.Text.Ranges

/-!
# Blank Characters

The characters with the Unicode property `White_Space`, and the removal of a blank tail. Comments lose
their blank tail when they are set aside, so a comment never brings trailing blanks into a layout.
-/

namespace SqlLayout.Text

/-- The property `White_Space`. -/
def blankRanges : List (Nat × Nat) :=
  [(0x09, 0x0d), (0x20, 0x20), (0x85, 0x85), (0xa0, 0xa0), (0x1680, 0x1680), (0x2000, 0x200a),
   (0x2028, 0x2029), (0x202f, 0x202f), (0x205f, 0x205f), (0x3000, 0x3000)]

def isBlank (c : Char) : Bool :=
  inRanges c.toNat blankRanges

/-- A run of blanks. -/
def spaces (count : Nat) : String :=
  String.ofList (List.replicate count ' ')

/-- Drops the blank tail of a text. -/
def trimEnd (s : String) : String :=
  String.ofList (s.toList.reverse.dropWhile isBlank).reverse

theorem isBlank_of_isWhitespace (c : Char) (h : c.isWhitespace) : isBlank c := by
  simp only [Char.isWhitespace, Bool.or_eq_true, decide_eq_true_eq] at h
  rcases h with ((rfl | rfl) | rfl) | rfl <;> decide

theorem trimEnd_idem (s : String) : trimEnd (trimEnd s) = trimEnd s := by
  have h : ∀ cs : List Char, (cs.dropWhile isBlank).dropWhile isBlank = cs.dropWhile isBlank := by
    intro cs
    induction cs with
    | nil => rfl
    | cons c cs ih => by_cases hc : isBlank c <;> simp [hc, ih]
  simp [trimEnd, h]

end SqlLayout.Text
