/-!
# Ranges of Characters

Properties of characters come as lists of inclusive ranges of code points in ascending order, so a look-up
stops at the first range that starts after the character.
-/

namespace SqlLayout.Text

/-- Whether a code point lies in one of some ascending ranges. -/
def inRanges (code : Nat) : List (Nat × Nat) → Bool
  | [] => false
  | (low, high) :: ranges =>
    if code < low then false else code ≤ high || inRanges code ranges

theorem exists_range_of_inRanges {code : Nat} {ranges : List (Nat × Nat)}
    (h : inRanges code ranges) : ∃ range ∈ ranges, range.1 ≤ code ∧ code ≤ range.2 := by
  induction ranges with
  | nil => simp [inRanges] at h
  | cons range ranges ih =>
    obtain ⟨low, high⟩ := range
    simp only [inRanges] at h
    split at h
    · simp at h
    · rename_i hlow
      rcases (Bool.or_eq_true _ _).mp h with h | h
      · exact ⟨_, List.mem_cons_self, Nat.not_lt.mp hlow, by simpa using h⟩
      · obtain ⟨range, hmem, hrange⟩ := ih h
        exact ⟨range, List.mem_cons_of_mem _ hmem, hrange⟩

end SqlLayout.Text
