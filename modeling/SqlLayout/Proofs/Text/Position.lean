import Mathlib.Data.List.Basic
import SqlLayout.Text.Position

/-!
# Lines and Columns Identify Offsets

The line counts the newlines before an offset, the column the characters between the last of them and the
offset. Reading on either adds characters to the last line or starts another one, so a later offset has a
later position; and to find an offset again, skip the newlines its line counts and then the characters its
column counts.
-/

namespace SqlLayout.Text

/-- What comes after the first `count` newlines. -/
def afterNewlines : Nat → List Char → List Char
  | 0, cs => cs
  | count + 1, cs => afterNewlines count (cs.dropWhile (· ≠ '\n')).tail

section LastLine

variable {cs ds : List Char}

theorem lastLine_append_of_notMem (h : '\n' ∉ ds) : lastLine (cs ++ ds) = lastLine cs ++ ds := by
  have hrest : ∀ c ∈ ds.reverse, decide (c ≠ '\n') = true := by
    intro c hmem
    have hne : c ≠ '\n' := fun heq => h (heq ▸ List.mem_reverse.mp hmem)
    simpa using hne
  rw [lastLine, List.reverse_append, List.takeWhile_append_of_pos hrest, List.reverse_append,
    List.reverse_reverse]
  rfl

theorem lastLine_of_notMem (h : '\n' ∉ cs) : lastLine cs = cs :=
  (lastLine_append_of_notMem h : lastLine ([] ++ cs) = [] ++ cs)

/-- A newline ends every line before it. -/
theorem lastLine_append_newline (cs ds : List Char) : lastLine (cs ++ '\n' :: ds) = lastLine ds := by
  have hstop : List.takeWhile (fun c => decide (c ≠ '\n')) ('\n' :: cs.reverse) = [] := rfl
  rw [lastLine, List.reverse_append, List.reverse_cons, List.append_assoc, List.singleton_append,
    List.takeWhile_append, hstop]
  split
  · rename_i hlength
    rw [List.append_nil, lastLine, List.Sublist.eq_of_length (List.takeWhile_sublist _) hlength]
  · rfl

theorem lastLine_cons_of_mem (c : Char) (h : '\n' ∈ cs) : lastLine (c :: cs) = lastLine cs := by
  obtain ⟨before, after, rfl⟩ := List.append_of_mem h
  rw [← List.cons_append, lastLine_append_newline, lastLine_append_newline]

theorem afterNewlines_cons_of_ne {c : Char} (h : c ≠ '\n') (count : Nat) (cs : List Char) :
    afterNewlines (count + 1) (c :: cs) = afterNewlines (count + 1) cs := by
  rw [afterNewlines, List.dropWhile_cons_of_pos (by simpa using h), afterNewlines]

/-- The last line is what comes after all newlines. -/
theorem afterNewlines_count (cs ds : List Char) :
    afterNewlines (cs.count '\n') (cs ++ ds) = lastLine cs ++ ds := by
  induction cs with
  | nil => rfl
  | cons c cs ih =>
    by_cases hc : c = '\n'
    · have hline : lastLine ('\n' :: cs) = lastLine cs := lastLine_append_newline [] cs
      rw [hc, List.count_cons_self, hline, ← ih]
      rfl
    · rw [List.count_cons_of_ne hc]
      by_cases hmem : '\n' ∈ cs
      · obtain ⟨count, hcount⟩ := Nat.exists_eq_add_one_of_ne_zero (mt List.count_eq_zero.mp (not_not.mpr hmem))
        rw [lastLine_cons_of_mem c hmem, ← ih, hcount, List.cons_append, afterNewlines_cons_of_ne hc]
      · have hline : lastLine (c :: cs) = c :: cs :=
          lastLine_of_notMem (by simp [Ne.symm hc, hmem])
        rw [List.count_eq_zero_of_not_mem hmem, hline]
        rfl

/-- Reading on goes to a later column of the same line or to a later line. -/
theorem endPosition_lt_append (cs : List Char) (hne : ds ≠ []) :
    Prod.Lex (· < ·) (· < ·) (endPosition cs) (endPosition (cs ++ ds)) := by
  unfold endPosition
  rw [List.count_append]
  by_cases hmem : '\n' ∈ ds
  · have hpos : 0 < ds.count '\n' := List.count_pos_iff.mpr hmem
    exact .left _ _ (by omega)
  · have hlength : 0 < ds.length := List.length_pos_iff.mpr hne
    rw [List.count_eq_zero_of_not_mem hmem, lastLine_append_of_notMem hmem, List.length_append]
    exact .right _ (by omega)

end LastLine

section Offsets

/-- At and beyond the end, everything is before the offset. -/
theorem before_of_byteSize_le {cs : List Char} {offset : Nat} (h : byteSize cs ≤ offset) :
    before cs offset = cs := by
  suffices htake : takeBytes? offset cs = none ∨ takeBytes? offset cs = some cs by
    obtain hnone | hsome := htake
    · rw [before, hnone, Option.getD_none]
    · rw [before, hsome, Option.getD_some]
  induction cs generalizing offset with
  | nil =>
    rw [takeBytes?]
    split
    · exact .inr rfl
    · exact .inl rfl
  | cons c cs ih =>
    rw [byteSize] at h
    have hc : 0 < c.utf8Size := c.utf8Size_pos
    have hless : byteSize cs ≤ offset - c.utf8Size := by omega
    have hrest := ih hless
    rw [takeBytes?, if_neg (by omega), if_pos (by omega)]
    obtain hnone | hsome := hrest
    · exact .inl (by rw [hnone]; rfl)
    · exact .inr (by rw [hsome]; rfl)

variable {source text rest : String} {place : source.Pos}

theorem before_of_splits (h : place.Splits text rest) :
    before source.toList place.offset.byteIdx = text.toList := by
  have hoffset : place.offset.byteIdx = byteSize text.toList := by
    rw [h.offset_eq_rawEndPos, byteSize_toList]
    rfl
  rw [before, hoffset, h.eq_append, String.toList_append, takeBytes?_byteSize, Option.getD_some]

/-- Lines and columns tell the places of a source apart and put them in order, and they lead back to the
place: after the newlines that the line counts and the characters that the column counts, there comes what
stands at the place. Offsets beyond the end stand for the end. -/
theorem position_identifies (source : String) :
    (∀ start stop : source.Pos, start < stop →
      Prod.Lex (· < ·) (· < ·) (position source start.offset.byteIdx)
        (position source stop.offset.byteIdx)) ∧
    (∀ place : source.Pos, ∃ line column,
      position source place.offset.byteIdx = (line + 1, column + 1) ∧
        line ≤ source.toList.count '\n' ∧
        (afterNewlines line source.toList).drop column = (source.sliceFrom place).copy.toList ∧
        ∀ h : place ≠ source.endPos, (afterNewlines line source.toList)[column]? = some (place.get h)) ∧
    ∀ offset, source.utf8ByteSize ≤ offset →
      position source offset = position source source.utf8ByteSize := by
  refine ⟨?_, ?_, ?_⟩
  · intro start stop hlt
    obtain ⟨between, hne, hbefore, -⟩ := (start.splits.lt_iff_exists_eq_append stop.splits).mp hlt
    rw [position, position, before_of_splits start.splits, before_of_splits stop.splits, hbefore,
      String.toList_append]
    exact endPosition_lt_append _ (by simpa using hne)
  · intro place
    have hsplits := place.splits
    have hsource := congrArg String.toList hsplits.eq_append
    rw [String.toList_append] at hsource
    refine ⟨_, _, congrArg endPosition (before_of_splits hsplits), ?_, ?_, ?_⟩
    · rw [hsource, List.count_append]
      exact Nat.le_add_right _ _
    · rw [hsource, afterNewlines_count, List.drop_left]
    · intro h
      have hnext := congrArg String.toList (hsplits.eq_right (place.splits_next_right h))
      rw [String.toList_append, String.toList_singleton] at hnext
      rw [hsource, afterNewlines_count, hnext, List.getElem?_append_right (Nat.le_refl _), Nat.sub_self]
      rfl
  · intro offset hle
    have hsize : byteSize source.toList = source.utf8ByteSize := byteSize_toList source
    rw [position, position, before_of_byteSize_le (hsize ▸ hle), before_of_byteSize_le (Nat.le_of_eq hsize)]

/-- The newline after a character of two bytes, a place two lines on, and an offset beyond the end. -/
theorem position_identifies_threeLines :
    ∃ start stop : ("é\n\nb" : String).Pos, start < stop ∧
      Prod.Lex (· < ·) (· < ·) (position "é\n\nb" start.offset.byteIdx)
        (position "é\n\nb" stop.offset.byteIdx) ∧
      (∃ line column, position "é\n\nb" start.offset.byteIdx = (line + 1, column + 1) ∧
        (afterNewlines line "é\n\nb".toList)[column]? = some '\n') ∧
      position "é\n\nb" 99 = position "é\n\nb" "é\n\nb".utf8ByteSize := by
  let start : ("é\n\nb" : String).Pos := ⟨⟨2⟩, by decide⟩
  let stop : ("é\n\nb" : String).Pos := ⟨⟨4⟩, by decide⟩
  have hlt : start < stop := by decide
  have hinside : start ≠ ("é\n\nb" : String).endPos := by decide
  have hget : start.get hinside = '\n' := by decide +revert
  obtain ⟨horder, hback, hend⟩ := position_identifies "é\n\nb"
  obtain ⟨line, column, hposition, -, -, hchar⟩ := hback start
  refine ⟨start, stop, hlt, horder start stop hlt, ⟨line, column, hposition, ?_⟩, hend 99 (by decide)⟩
  rw [hchar hinside, hget]

end Offsets

end SqlLayout.Text
