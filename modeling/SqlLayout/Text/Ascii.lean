/-!
# ASCII Letter Case

Keywords and common-table names compare without regard to the case of the letters `a` to `z`; every
other character, accented letters included, stands for itself.
-/

namespace SqlLayout.Text

/-- Capitalises the ASCII letters and leaves every other character alone. -/
def upper (s : String) : String :=
  String.ofList (s.toList.map Char.toUpper)

/-- Two words that differ at most in the case of their ASCII letters. -/
def sameWord (a b : String) : Bool :=
  upper a == upper b

@[simp]
theorem toList_upper (s : String) : (upper s).toList = s.toList.map Char.toUpper := by
  simp [upper]

theorem sameWord_iff (a b : String) : sameWord a b ↔ upper a = upper b := by
  simp [sameWord]

theorem sameWord_comm (a b : String) : sameWord a b = sameWord b a := by
  rw [Bool.eq_iff_iff, sameWord_iff, sameWord_iff]
  exact eq_comm

end SqlLayout.Text
