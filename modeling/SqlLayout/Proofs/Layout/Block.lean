import SqlLayout.Proofs.Layout.Spelling

/-!
# The Geometry of Blocks

Blocks side by side fit, or stay within a bound, if each of them does where the one before it ended; blocks
below each other end where the last one does. Breaking a text into lines undoes the joining of lines, as long
as no line has a newline of its own.
-/

namespace SqlLayout

namespace Block

section Fits

theorem fits_mk_cons (width col : Nat) (first line : String) (lines : List String) :
    fits width col ⟨first, line :: lines⟩ =
      (decide (col + first.length ≤ width) && fits width 0 ⟨line, lines⟩) := by
  simp [fits]

theorem fits_append (width col : Nat) (block tail : Block) :
    (block.append tail).fits width col =
      (block.fits width col && tail.fits width (block.endColumn col)) := by
  obtain ⟨first, rest⟩ := block
  induction rest generalizing first col with
  | nil =>
    rw [append_mk_nil, Bool.eq_iff_iff]
    simp only [fits, endColumn, String.length_append, List.getLast?_nil, List.all_nil, Bool.and_true,
      Bool.and_eq_true, decide_eq_true_eq, Nat.add_assoc]
    have hfirst (h : col + (first.length + tail.first.length) ≤ width) : col + first.length ≤ width := by
      omega
    tauto
  | cons line lines ih =>
    rw [append_mk_cons, fits_mk_cons, endColumn_mk_cons, Bool.and_assoc, ← ih 0 line]
    exact fits_mk_cons width col first _ _

end Fits

section Bounds

/-- Whether no line of a block that starts at `col` goes beyond `bound`. Unlike for `fits`, an empty first
line does not count: no blanks are ever put before one. -/
structure StaysWithin (bound col : Nat) (block : Block) : Prop where
  first : block.first = "" ∨ col + block.first.length ≤ bound
  rest : ∀ line ∈ block.rest, line.length ≤ bound

/-- A single empty line. -/
def IsBlank (block : Block) : Prop :=
  block.first = "" ∧ block.rest = []

variable {bound col : Nat} {block tail : Block}

theorem StaysWithin.mono {bound' col' : Nat} (h : block.StaysWithin bound col) (hbound : bound ≤ bound')
    (hcol : col' ≤ col) : block.StaysWithin bound' col' := by
  refine ⟨h.first.imp_right fun hfirst => ?_, fun line hmem => Nat.le_trans (h.rest line hmem) hbound⟩
  omega

theorem staysWithin_of_fits (h : block.fits bound col) : block.StaysWithin bound col := by
  simp only [fits, Bool.and_eq_true, decide_eq_true_eq, List.all_eq_true] at h
  exact ⟨.inr h.1, h.2⟩

theorem staysWithin_zero_iff :
    block.StaysWithin bound 0 ↔ ∀ line ∈ block.lines, line.length ≤ bound := by
  have hfirst : block.first = "" ∨ 0 + block.first.length ≤ bound ↔ block.first.length ≤ bound := by
    rw [Nat.zero_add, or_iff_right_iff_imp]
    intro hempty
    simp [hempty]
  constructor
  · intro h
    exact List.forall_mem_cons.mpr ⟨hfirst.mp h.first, h.rest⟩
  · intro h
    exact ⟨hfirst.mpr (h _ List.mem_cons_self), fun line hmem => h line (List.mem_cons_of_mem _ hmem)⟩

theorem endColumn_le_of_fits (h : block.fits bound col) : block.endColumn col ≤ bound := by
  obtain ⟨first, rest⟩ := block
  simp only [fits, Bool.and_eq_true, decide_eq_true_eq, List.all_eq_true] at h
  unfold endColumn
  split
  · exact h.1
  · rename_i last hlast
    exact h.2 last (List.mem_of_getLast? hlast)

theorem endColumn_mono {col' : Nat} (block : Block) (h : col ≤ col') :
    block.endColumn col ≤ block.endColumn col' := by
  unfold endColumn
  split <;> omega

theorem staysWithin_mk_nil {first : String} :
    StaysWithin bound col ⟨first, []⟩ ↔ first = "" ∨ col + first.length ≤ bound :=
  ⟨fun h => h.first, fun h => ⟨h, List.forall_mem_nil _⟩⟩

theorem staysWithin_mk_cons {first line : String} {lines : List String} :
    StaysWithin bound col ⟨first, line :: lines⟩ ↔
      (first = "" ∨ col + first.length ≤ bound) ∧ StaysWithin bound 0 ⟨line, lines⟩ := by
  rw [staysWithin_zero_iff]
  exact ⟨fun h => ⟨h.first, h.rest⟩, fun h => ⟨h.1, h.2⟩⟩

/-- Blocks side by side stay within a bound if each of them does, where the one before it ended. -/
theorem staysWithin_append_iff :
    (block.append tail).StaysWithin bound col ↔
      block.StaysWithin bound col ∧ tail.StaysWithin bound (block.endColumn col) := by
  obtain ⟨first, rest⟩ := block
  induction rest generalizing first col with
  | nil =>
    have hfirst : first ++ tail.first = "" ∨ col + (first ++ tail.first).length ≤ bound ↔
        (first = "" ∨ col + first.length ≤ bound) ∧
          (tail.first = "" ∨ col + first.length + tail.first.length ≤ bound) := by
      rw [String.append_eq_empty_iff, String.length_append]
      by_cases hempty : first = ""
      · simp [hempty]
      · by_cases htail : tail.first = ""
        · simp [htail]
        · simp only [hempty, htail, false_or, false_and]
          omega
    rw [append_mk_nil, staysWithin_mk_nil]
    constructor
    · intro h
      obtain ⟨hbefore, hafter⟩ := hfirst.mp h.first
      exact ⟨hbefore, hafter, h.rest⟩
    · rintro ⟨hbefore, hafter⟩
      exact ⟨hfirst.mpr ⟨hbefore, hafter.first⟩, hafter.rest⟩
  | cons line lines ih =>
    rw [append_mk_cons, endColumn_mk_cons, staysWithin_mk_cons, and_assoc, ← ih]
    exact staysWithin_mk_cons

theorem isBlank_append_iff : (block.append tail).IsBlank ↔ block.IsBlank ∧ tail.IsBlank := by
  obtain ⟨first, rest⟩ := block
  cases rest with
  | nil => simp [append_mk_nil, IsBlank, and_assoc]
  | cons line rest => simp [append_mk_cons, IsBlank, lines]

end Bounds

section Stacks

variable {bound col : Nat} {block : Block}

/-- A block below another one. -/
def above (block below : Block) : Block :=
  { block with rest := block.rest ++ below.lines }

theorem stack_singleton (col : Nat) (block : Block) : stack col [block] = block := by
  simp [stack]

theorem stack_cons_cons (col : Nat) (block next : Block) (blocks : List Block) :
    stack col (block :: next :: blocks) =
      block.above ((stack col (next :: blocks)).padFirst col) := by
  simp [stack, above, lines, padFirst]

theorem staysWithin_above_iff {below : Block} :
    (block.above below).StaysWithin bound col ↔
      block.StaysWithin bound col ∧ below.StaysWithin bound 0 := by
  rw [staysWithin_zero_iff]
  constructor
  · intro h
    obtain ⟨hrest, hbelow⟩ := List.forall_mem_append.mp h.rest
    exact ⟨⟨h.first, hrest⟩, hbelow⟩
  · rintro ⟨h, hbelow⟩
    exact ⟨h.first, List.forall_mem_append.mpr ⟨h.rest, hbelow⟩⟩

theorem endColumn_above (block below : Block) (col : Nat) :
    (block.above below).endColumn col = below.endColumn 0 := by
  obtain ⟨first, rest⟩ := below
  have hlast : (block.above ⟨first, rest⟩).rest.getLast? = (first :: rest).getLast? :=
    List.getLast?_append_of_ne_nil _ (List.cons_ne_nil first rest)
  rw [← endColumn_mk_cons "" first rest col]
  simp only [endColumn, hlast, List.getLast?_eq_some_getLast (List.cons_ne_nil first rest)]

theorem staysWithin_padFirst_iff {pad : Nat} :
    (block.padFirst pad).StaysWithin bound col ↔ block.StaysWithin bound (col + pad) := by
  have hfirst : padLine pad block.first = "" ∨ col + (padLine pad block.first).length ≤ bound ↔
      block.first = "" ∨ col + pad + block.first.length ≤ bound := by
    by_cases hempty : block.first = ""
    · simp [padLine, hempty]
    · simp [padLine, hempty, Text.spaces, Nat.add_assoc]
  exact ⟨fun h => ⟨hfirst.mp h.first, h.rest⟩, fun h => ⟨hfirst.mpr h.first, h.rest⟩⟩

theorem isBlank_padFirst_iff {pad : Nat} : (block.padFirst pad).IsBlank ↔ block.IsBlank := by
  by_cases hempty : block.first = ""
  · simp [IsBlank, padFirst, padLine, hempty]
  · simp [IsBlank, padFirst, padLine, hempty]

theorem endColumn_of_isBlank (h : block.IsBlank) (col : Nat) : block.endColumn col = col := by
  simp [endColumn, h.1, h.2]

theorem endColumn_padFirst_le (block : Block) (pad col : Nat) :
    (block.padFirst pad).endColumn col ≤ block.endColumn (col + pad) := by
  obtain ⟨first, rest⟩ := block
  cases rest with
  | nil =>
    by_cases hempty : first = "" <;> simp [padFirst, padLine, endColumn, hempty, Text.spaces]
    omega
  | cons line lines =>
    rw [endColumn_mk_cons]
    exact Nat.le_of_eq (endColumn_mk_cons _ line lines col)

/-- Blanks before the first line move the end of a block, unless all of it is a single empty line. -/
theorem endColumn_padFirst (h : ¬ block.IsBlank) (pad col : Nat) :
    (block.padFirst pad).endColumn col = block.endColumn (col + pad) := by
  obtain ⟨first, rest⟩ := block
  cases rest with
  | nil =>
    have hne : first ≠ "" := by simpa [IsBlank] using h
    simp [padFirst, padLine, endColumn, hne, Text.spaces, Nat.add_assoc]
  | cons line lines =>
    rw [endColumn_mk_cons]
    exact endColumn_mk_cons _ line lines col

/-- A block that ends no later than another one, and is empty if that one is, ends no later with blanks
before both of them. -/
theorem endColumn_padFirst_mono {other : Block} {pad pad' col' : Nat} (hcol : col ≤ col')
    (hend : block.endColumn (col + pad) ≤ other.endColumn (col' + pad'))
    (hblank : other.IsBlank → block.IsBlank) :
    (block.padFirst pad).endColumn col ≤ (other.padFirst pad').endColumn col' := by
  by_cases hother : other.IsBlank
  · rw [endColumn_of_isBlank (isBlank_padFirst_iff.mpr hother),
      endColumn_of_isBlank (isBlank_padFirst_iff.mpr (hblank hother))]
    exact hcol
  · rw [endColumn_padFirst hother]
    exact Nat.le_trans (endColumn_padFirst_le block pad col) hend

end Stacks

section Lines

/-- The lines of characters. -/
def ofChars (cs : List Char) : Block :=
  { first := String.ofList (breakLines cs).1, rest := (breakLines cs).2.map String.ofList }

theorem ofChars_newline (cs : List Char) :
    ofChars ('\n' :: cs) = { first := "", rest := (ofChars cs).lines } :=
  rfl

theorem ofChars_cons {c : Char} (h : c ≠ '\n') (cs : List Char) :
    ofChars (c :: cs) = { ofChars cs with first := String.singleton c ++ (ofChars cs).first } := by
  simp [ofChars, breakLines, h, String.ofList_cons]

theorem ofChars_append (cs ds : List Char) : ofChars (cs ++ ds) = (ofChars cs).append (ofChars ds) := by
  induction cs with
  | nil => simp [ofChars, breakLines, append_mk_nil]
  | cons c cs ih =>
    by_cases hc : c = '\n'
    · rw [hc, List.cons_append, ofChars_newline, ofChars_newline, ih]
      rfl
    · rw [List.cons_append, ofChars_cons hc, ofChars_cons hc, ih]
      generalize ofChars cs = block
      obtain ⟨first, rest⟩ := block
      cases rest with
      | nil => simp [append_mk_nil, String.append_assoc]
      | cons line lines => rfl

theorem ofText_append (text other : String) :
    ofText (text ++ other) = (ofText text).append (ofText other) := by
  have hchars := ofChars_append text.toList other.toList
  rwa [← String.toList_append] at hchars

theorem toText_ofText (text : String) : (ofText text).toText = text := by
  apply String.toList_injective
  rw [toList_toText, chars_ofText]

theorem lines_ofChars_append_newline (cs ds : List Char) :
    (ofChars (cs ++ '\n' :: ds)).lines = (ofChars cs).lines ++ (ofChars ds).lines := by
  induction cs with
  | nil => rfl
  | cons c cs ih =>
    by_cases hc : c = '\n'
    · simp only [hc, List.cons_append, ofChars_newline, lines] at ih ⊢
      rw [ih]
    · simp only [List.cons_append, ofChars_cons hc, lines, List.cons.injEq] at ih ⊢
      exact ⟨by rw [ih.1], ih.2⟩

theorem lines_ofText_toText (block : Block) :
    (ofText block.toText).lines = block.lines.flatMap fun line => (ofText line).lines := by
  have hchars (first : String) (rest : List String) :
      (ofChars (first.toList ++ rest.flatMap fun line => '\n' :: line.toList)).lines =
        (first :: rest).flatMap fun line => (ofText line).lines := by
    induction rest generalizing first with
    | nil => simp [ofText, ofChars]
    | cons line rest ih =>
      rw [List.flatMap_cons, List.cons_append, lines_ofChars_append_newline, ih line]
      rfl
  have hbreak := hchars block.first block.rest
  rwa [← chars, ← toList_toText] at hbreak

/-- What breaking characters makes of them is lines: no newline is left in one, and none is longer than
the whole. -/
theorem of_mem_lines_ofChars {cs : List Char} {line : String} (h : line ∈ (ofChars cs).lines) :
    '\n' ∉ line.toList ∧ line.length ≤ cs.length := by
  induction cs generalizing line with
  | nil =>
    have hempty : line = "" := List.mem_singleton.mp h
    simp [hempty]
  | cons c cs ih =>
    by_cases hc : c = '\n'
    · rw [hc, ofChars_newline] at h
      rcases List.mem_cons.mp h with rfl | h
      · simp
      · obtain ⟨hnone, hlength⟩ := ih h
        exact ⟨hnone, Nat.le_succ_of_le hlength⟩
    · rw [ofChars_cons hc] at h
      rcases List.mem_cons.mp h with rfl | h
      · obtain ⟨hnone, hlength⟩ := ih (List.mem_cons_self (a := (ofChars cs).first) (l := (ofChars cs).rest))
        have hne : '\n' ≠ c := fun heq => hc heq.symm
        simp only [String.toList_append, String.length_append, String.toList_singleton,
          String.length_singleton, List.length_cons, List.singleton_append, List.mem_cons, not_or]
        exact ⟨⟨hne, hnone⟩, by omega⟩
      · obtain ⟨hnone, hlength⟩ := ih (List.mem_cons_of_mem _ h)
        exact ⟨hnone, Nat.le_succ_of_le hlength⟩

theorem length_le_of_mem_ofText {text line : String} (h : line ∈ (ofText text).lines) :
    line.length ≤ text.length := by
  have hlength := (of_mem_lines_ofChars h).2
  rwa [String.length_toList] at hlength

theorem ofChars_of_notMem {cs : List Char} (h : '\n' ∉ cs) : ofChars cs = ⟨String.ofList cs, []⟩ := by
  induction cs with
  | nil => rfl
  | cons c cs ih =>
    obtain ⟨hc, hcs⟩ := not_or.mp (mt List.mem_cons.mpr h)
    rw [ofChars_cons (Ne.symm hc), ih hcs]
    simp [String.ofList_cons]

/-- No line of a block has a newline of its own. -/
def IsSettled (block : Block) : Prop :=
  ∀ line ∈ block.lines, '\n' ∉ line.toList

variable {block tail : Block}

theorem isSettled_ofText (text : String) : (ofText text).IsSettled :=
  fun _ hmem => (of_mem_lines_ofChars hmem).1

/-- Lines that are joined can be told apart again. -/
theorem IsSettled.lines_ofText_toText (h : block.IsSettled) :
    (ofText block.toText).lines = block.lines := by
  have hline : ∀ line ∈ block.lines, (ofText line).lines = [line] := by
    intro line hmem
    have hbreak := congrArg lines (ofChars_of_notMem (h line hmem))
    rwa [String.ofList_toList] at hbreak
  rw [Block.lines_ofText_toText, List.flatMap_congr hline, List.flatMap_singleton']

theorem IsSettled.append (h : block.IsSettled) (htail : tail.IsSettled) :
    (block.append tail).IsSettled := by
  obtain ⟨first, rest⟩ := block
  obtain ⟨next, others⟩ := tail
  induction rest generalizing first with
  | nil =>
    obtain ⟨hnext, hothers⟩ := List.forall_mem_cons.mp htail
    have hfirst : '\n' ∉ first.toList := h first List.mem_cons_self
    have hjoined : '\n' ∉ (first ++ next).toList := by
      rw [String.toList_append]
      exact List.not_mem_append hfirst hnext
    exact List.forall_mem_cons.mpr ⟨hjoined, hothers⟩
  | cons line rest ih =>
    obtain ⟨hfirst, hrest⟩ := List.forall_mem_cons.mp h
    exact List.forall_mem_cons.mpr ⟨hfirst, ih line hrest⟩

theorem IsSettled.padFirst (h : block.IsSettled) (pad : Nat) : (block.padFirst pad).IsSettled := by
  obtain ⟨hfirst, hrest⟩ := List.forall_mem_cons.mp h
  refine List.forall_mem_cons.mpr ⟨?_, hrest⟩
  by_cases hempty : block.first = ""
  · simp [Block.padFirst, padLine, hempty]
  · simp [Block.padFirst, padLine, hempty, Text.spaces, hfirst]

theorem IsSettled.above (h : block.IsSettled) (htail : tail.IsSettled) :
    (block.above tail).IsSettled := by
  obtain ⟨hfirst, hrest⟩ := List.forall_mem_cons.mp h
  exact List.forall_mem_cons.mpr ⟨hfirst, List.forall_mem_append.mpr ⟨hrest, htail⟩⟩

theorem padFirst_zero (block : Block) : block.padFirst 0 = block := by
  obtain ⟨first, rest⟩ := block
  simp [padFirst, padLine, Text.spaces]

/-- At the first column nothing is padded, so the lines of blocks below each other are theirs. -/
theorem lines_stack_zero {blocks : List Block} (h : blocks ≠ []) :
    (stack 0 blocks).lines = blocks.flatMap lines := by
  obtain ⟨block, blocks, rfl⟩ := List.exists_cons_of_ne_nil h
  simp only [stack, padFirst_zero, List.flatMap_cons]
  rfl

theorem lines_ofText_stack_zero {blocks : List Block} (h : blocks ≠ []) :
    (ofText (stack 0 blocks).toText).lines =
      blocks.flatMap fun block => (ofText block.toText).lines := by
  rw [lines_ofText_toText, lines_stack_zero h, List.flatMap_assoc]
  simp only [lines_ofText_toText]

end Lines

end Block

end SqlLayout
