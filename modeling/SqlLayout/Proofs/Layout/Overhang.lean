import Mathlib.Data.List.MinMax
import SqlLayout.Doc.Statement
import SqlLayout.Grammar.Statement
import SqlLayout.Proofs.Layout.Block

/-!
# How Far a Layout Goes Beyond the Width

A choice and a wrap look only at their own lines when they decide, so whatever is put after them on the
same line, such as a comma or a semicolon, may stand beyond the width. Nothing else may: if the layout
that takes no compact side stays within the width, then every layout does, up to what can follow a
decision on its line. That is read off the document, without laying it out.
-/

namespace SqlLayout

/-- Bounds on the lines of a document, known before it is laid out. -/
structure Spread where
  /-- No line of the expanded form has more characters than this, blanks before it apart. -/
  extent : Nat := 0
  /-- What can follow the last decision on the last line, if anything is decided there. -/
  tail : Option Nat := none
  /-- What can follow a decision on its line. -/
  overhang : Nat := 0
deriving DecidableEq

namespace Spread

/-- The spread of parts side by side: what comes second follows every decision on the last line of what
comes first. -/
def beside (first second : Spread) : Spread :=
  let after := first.tail.map (· + second.extent)
  { extent := first.extent + second.extent
    tail := after.merge max second.tail
    overhang := max (max first.overhang second.overhang) (after.getD 0) }

/-- The spread of parts below each other. -/
def above (first second : Spread) : Spread :=
  { extent := max first.extent second.extent
    tail := second.tail
    overhang := max first.overhang second.overhang }

def shifted (step : Nat) (spread : Spread) : Spread :=
  { spread with extent := step + spread.extent }

/-- The spread of a part that is printed in another way where that one fits. -/
def decided (spread : Spread) : Spread :=
  { spread with tail := spread.tail.merge max (some 0) }

end Spread

namespace Doc

mutual

/-- A document with every choice on its full side, and every wrap with one item per line. -/
def expanded : Doc → Doc
  | .text content => .text content
  | .line parts => .line (expandeds parts)
  | .stack parts => .stack (expandeds parts)
  | .indent body => .indent body.expanded
  | .wrap items _ => .stack (expandeds items)
  | .choice _ full => full.expanded

def expandeds : List Doc → List Doc
  | [] => []
  | part :: parts => part.expanded :: expandeds parts

end

mutual

/-- The spread of a document whose indentations are `step` wide. -/
def spread (step : Nat) : Doc → Spread
  | .text content => { extent := ((Block.ofText content).lines.map String.length).foldr max 0 }
  | .line parts => spreadLine step parts
  | .stack parts => spreadStack step parts
  | .indent body => (body.spread step).shifted step
  | .wrap items _ => (spreadStack step items).decided
  | .choice _ full => (full.spread step).decided

def spreadLine (step : Nat) : List Doc → Spread
  | [] => {}
  | part :: parts => (part.spread step).beside (spreadLine step parts)

def spreadStack (step : Nat) : List Doc → Spread
  | [] => {}
  | [last] => last.spread step
  | part :: next :: parts => (part.spread step).above (spreadStack step (next :: parts))

end

end Doc

section Tails

/-- Whether a column is beyond the width by no more than what follows a decision. -/
def ReachesPast (tail : Option Nat) (width column : Nat) : Prop :=
  ∃ count ∈ tail, column ≤ width + count

variable {tail other : Option Nat} {width column : Nat}

theorem ReachesPast.merge_left (h : ReachesPast tail width column) (other : Option Nat) :
    ReachesPast (tail.merge max other) width column := by
  obtain ⟨count, rfl, hcount⟩ := h
  cases other with
  | none => exact ⟨count, rfl, hcount⟩
  | some more => exact ⟨max count more, rfl, by omega⟩

theorem ReachesPast.merge_right (h : ReachesPast other width column) (tail : Option Nat) :
    ReachesPast (tail.merge max other) width column := by
  obtain ⟨count, rfl, hcount⟩ := h
  cases tail with
  | none => exact ⟨count, rfl, hcount⟩
  | some more => exact ⟨max more count, rfl, by omega⟩

theorem ReachesPast.add {column' extent : Nat} (h : ReachesPast tail width column)
    (hcolumn : column' ≤ column + extent) :
    ReachesPast (tail.map (· + extent)) width column' := by
  obtain ⟨count, rfl, hcount⟩ := h
  exact ⟨count + extent, rfl, by omega⟩

theorem ReachesPast.le_getD (h : ReachesPast tail width column) : column ≤ width + tail.getD 0 := by
  obtain ⟨count, rfl, hcount⟩ := h
  exact hcount

end Tails

namespace Block

variable {width col col' : Nat} {block other tail tail' : Block} {spread tailSpread : Spread}

/-- A block that starts anywhere goes beyond the width, or beyond its extent, by no more than its spread
says. -/
structure Keeps (block : Block) (spread : Spread) (width col : Nat) : Prop where
  lines : block.StaysWithin (max (width + spread.overhang) (col + spread.extent)) col
  ends : block.endColumn col ≤ col + spread.extent ∨
    ReachesPast spread.tail width (block.endColumn col)

/-- A block that stays within the width as far as another one, its expanded form, does: it ends no later
than that one, or not far beyond the width after a decision. -/
structure Follows (block other : Block) (spread : Spread) (width col col' : Nat) : Prop where
  lines : block.StaysWithin (width + spread.overhang) col
  ends : (block.endColumn col ≤ other.endColumn col' ∧ (other.IsBlank → block.IsBlank)) ∨
    ReachesPast spread.tail width (block.endColumn col)

section Keeps

theorem Keeps.append (h : block.Keeps spread width col)
    (htail : tail.Keeps tailSpread width (block.endColumn col)) :
    (block.append tail).Keeps (spread.beside tailSpread) width col := by
  have hafter := fun hreach : ReachesPast spread.tail width (block.endColumn col) =>
    (hreach.add (Nat.le_refl (block.endColumn col + tailSpread.extent))).le_getD
  constructor
  · apply staysWithin_append_iff.mpr
    constructor
    · apply h.lines.mono _ (Nat.le_refl _)
      simp only [Spread.beside]
      omega
    · apply htail.lines.mono _ (Nat.le_refl _)
      simp only [Spread.beside]
      rcases h.ends with hends | hends
      · omega
      · have := hafter hends
        omega
  · rw [endColumn_append]
    rcases htail.ends with htail | htail
    · rcases h.ends with hends | hends
      · left
        simp only [Spread.beside]
        omega
      · exact .inr ((hends.add htail).merge_left _)
    · exact .inr (htail.merge_right _)

theorem Keeps.above (h : block.Keeps spread width col)
    (htail : tail.Keeps tailSpread width col) :
    (block.above (tail.padFirst col)).Keeps (spread.above tailSpread) width col := by
  constructor
  · apply staysWithin_above_iff.mpr
    constructor
    · apply h.lines.mono _ (Nat.le_refl _)
      simp only [Spread.above]
      omega
    · rw [staysWithin_padFirst_iff]
      apply htail.lines.mono
      · simp only [Spread.above]
        omega
      · omega
  · rw [endColumn_above]
    have hend := endColumn_padFirst_le tail col 0
    rw [Nat.zero_add] at hend
    rcases htail.ends with htail | ⟨count, hcount, hends⟩
    · left
      simp only [Spread.above]
      omega
    · exact .inr ⟨count, hcount, Nat.le_trans hend hends⟩

theorem Keeps.padFirst {step : Nat} (h : block.Keeps spread width (col + step)) :
    (block.padFirst step).Keeps (spread.shifted step) width col := by
  constructor
  · apply staysWithin_padFirst_iff.mpr
    apply h.lines.mono _ (Nat.le_refl _)
    simp only [Spread.shifted]
    omega
  · have hend := endColumn_padFirst_le block step col
    rcases h.ends with hends | ⟨count, hcount, hends⟩
    · left
      simp only [Spread.shifted]
      omega
    · exact .inr ⟨count, hcount, Nat.le_trans hend hends⟩

theorem Keeps.decided (h : block.Keeps spread width col) : block.Keeps spread.decided width col :=
  ⟨h.lines, h.ends.imp_right fun hends => hends.merge_left _⟩

/-- A compact side is taken only where it fits, so it ends within the width. -/
theorem reachesPast_of_fits (h : block.fits width col) (tail : Option Nat) :
    ReachesPast (tail.merge max (some 0)) width (block.endColumn col) := by
  have hend : ReachesPast (some 0) width (block.endColumn col) := ⟨0, rfl, endColumn_le_of_fits h⟩
  exact hend.merge_right tail

theorem keeps_of_fits (h : block.fits width col) : block.Keeps spread.decided width col := by
  refine ⟨(staysWithin_of_fits h).mono ?_ (Nat.le_refl _), .inr (reachesPast_of_fits h _)⟩
  omega

end Keeps

section Follows

theorem Follows.append (h : block.Follows other spread width col col')
    (hkeeps : tail.Keeps tailSpread width (block.endColumn col))
    (htail : block.endColumn col ≤ other.endColumn col' →
      tail.Follows tail' tailSpread width (block.endColumn col) (other.endColumn col')) :
    (block.append tail).Follows (other.append tail') (spread.beside tailSpread) width col col' := by
  have hfirst : block.StaysWithin (width + (spread.beside tailSpread).overhang) col := by
    apply h.lines.mono _ (Nat.le_refl _)
    simp only [Spread.beside]
    omega
  rcases h.ends with ⟨hle, hblank⟩ | hpast
  · -- What comes second starts no later than in the expanded form.
    have hsecond := htail hle
    constructor
    · refine staysWithin_append_iff.mpr ⟨hfirst, hsecond.lines.mono ?_ (Nat.le_refl _)⟩
      simp only [Spread.beside]
      omega
    · rw [endColumn_append, endColumn_append]
      rcases hsecond.ends with ⟨hends, hblank'⟩ | hends
      · refine .inl ⟨hends, fun hempty => ?_⟩
        obtain ⟨hother, hrest⟩ := isBlank_append_iff.mp hempty
        exact isBlank_append_iff.mpr ⟨hblank hother, hblank' hrest⟩
      · exact .inr (hends.merge_right _)
  · -- It follows a decision, so its extent is part of the overhang.
    have hafter := (hpast.add (Nat.le_refl (block.endColumn col + tailSpread.extent))).le_getD
    constructor
    · refine staysWithin_append_iff.mpr ⟨hfirst, hkeeps.lines.mono ?_ (Nat.le_refl _)⟩
      simp only [Spread.beside]
      omega
    · rw [endColumn_append]
      rcases hkeeps.ends with hends | hends
      · exact .inr ((hpast.add hends).merge_left _)
      · exact .inr (hends.merge_right _)

theorem Follows.above (h : block.Follows other spread width col col')
    (htail : tail.Follows tail' tailSpread width col col') :
    (block.above (tail.padFirst col)).Follows (other.above (tail'.padFirst col'))
      (spread.above tailSpread) width col col' := by
  constructor
  · apply staysWithin_above_iff.mpr
    constructor
    · apply h.lines.mono _ (Nat.le_refl _)
      simp only [Spread.above]
      omega
    · rw [staysWithin_padFirst_iff, Nat.zero_add]
      apply htail.lines.mono _ (Nat.le_refl _)
      simp only [Spread.above]
      omega
  · rw [endColumn_above, endColumn_above]
    rcases htail.ends with ⟨hends, hblank⟩ | ⟨count, hcount, hends⟩
    · refine .inl ⟨?_, fun hempty => absurd hempty.2 (by simp [Block.above, Block.lines])⟩
      apply endColumn_padFirst_mono (Nat.le_refl 0) _ hblank
      rwa [Nat.zero_add, Nat.zero_add]
    · have hend := endColumn_padFirst_le tail col 0
      rw [Nat.zero_add] at hend
      exact .inr ⟨count, hcount, Nat.le_trans hend hends⟩

theorem Follows.padFirst {step : Nat} (hcol : col ≤ col')
    (h : block.Follows other spread width (col + step) (col' + step)) :
    (block.padFirst step).Follows (other.padFirst step) (spread.shifted step) width col col' := by
  refine ⟨staysWithin_padFirst_iff.mpr h.lines, ?_⟩
  rcases h.ends with ⟨hends, hblank⟩ | ⟨count, hcount, hends⟩
  · refine .inl ⟨endColumn_padFirst_mono hcol hends hblank, fun hempty => ?_⟩
    exact isBlank_padFirst_iff.mpr (hblank (isBlank_padFirst_iff.mp hempty))
  · exact .inr ⟨count, hcount, Nat.le_trans (endColumn_padFirst_le block step col) hends⟩

theorem Follows.decided (h : block.Follows other spread width col col') :
    block.Follows other spread.decided width col col' :=
  ⟨h.lines, h.ends.imp_right fun hends => hends.merge_left _⟩

theorem follows_of_fits (h : block.fits width col) (other : Block) (spread : Spread) (col' : Nat) :
    block.Follows other spread.decided width col col' :=
  ⟨(staysWithin_of_fits h).mono (Nat.le_add_right _ _) (Nat.le_refl _),
    .inr (reachesPast_of_fits h _)⟩

/-- A block that is the same in both layouts. -/
theorem follows_self (spread : Spread) (hcol : col ≤ col') (h : block.StaysWithin width col') :
    block.Follows block spread width col col' :=
  ⟨h.mono (Nat.le_add_right _ _) hcol, .inl ⟨endColumn_mono block hcol, id⟩⟩

end Follows

end Block

namespace Doc

section Keeps

theorem keeps_text (content : String) (width col : Nat) :
    (Block.ofText content).Keeps
      { extent := ((Block.ofText content).lines.map String.length).foldr max 0 } width col := by
  generalize Block.ofText content = block
  have hlength : ∀ line ∈ block.lines, line.length ≤ (block.lines.map String.length).foldr max 0 :=
    fun line hmem => List.le_max_of_le' 0 (List.mem_map_of_mem hmem) le_rfl
  obtain ⟨hfirst, hrest⟩ := List.forall_mem_cons.mp hlength
  refine ⟨⟨.inr ?_, fun line hmem => ?_⟩, .inl ?_⟩
  · exact le_max_of_le_right (Nat.add_le_add_left hfirst col)
  · exact (hrest line hmem).trans (le_max_of_le_right (Nat.le_add_left _ col))
  · unfold Block.endColumn
    split
    · exact Nat.add_le_add_left hfirst col
    · rename_i last hlast
      exact (hrest last (List.mem_of_getLast? hlast)).trans (Nat.le_add_left _ col)

theorem keeps_empty (width col : Nat) : Block.Keeps { first := "" } {} width col :=
  ⟨⟨.inl rfl, List.forall_mem_nil _⟩, .inl (Nat.le_refl col)⟩

mutual

theorem keeps_layout (page : Page) : (doc : Doc) → (col : Nat) →
    (doc.layout page col).Keeps (doc.spread page.indent) page.width col
  | .text content, col => keeps_text content page.width col
  | .line parts, col => keeps_layoutLine page parts col
  | .stack parts, col => keeps_stack page parts col
  | .indent body, col => (keeps_layout page body (col + page.indent)).padFirst
  | .wrap items sep, col => by
    have hstack := (keeps_stack page items col).decided
    rw [layout, spread]
    split
    · split
      · rename_i hfits
        exact Block.keeps_of_fits (by simp [Block.fits, hfits])
      · exact hstack
    · exact hstack
  | .choice compact full, col => by
    have hfull := (keeps_layout page full col).decided
    rw [layout, spread]
    split
    · rename_i hfits
      exact Block.keeps_of_fits hfits
    · exact hfull

theorem keeps_layoutLine (page : Page) : (parts : List Doc) → (col : Nat) →
    (layoutLine page parts col).Keeps (spreadLine page.indent parts) page.width col
  | [], col => keeps_empty page.width col
  | part :: parts, col =>
    (keeps_layout page part col).append (keeps_layoutLine page parts _)

theorem keeps_stack (page : Page) : (parts : List Doc) → (col : Nat) →
    (Block.stack col (layouts page parts col)).Keeps (spreadStack page.indent parts) page.width col
  | [], col => keeps_empty page.width col
  | [last], col => by
    rw [layouts, layouts, Block.stack_singleton]
    exact keeps_layout page last col
  | part :: next :: parts, col => by
    rw [layouts, layouts, Block.stack_cons_cons]
    exact (keeps_layout page part col).above (keeps_stack page (next :: parts) col)

end

end Keeps

section Follows

mutual

/-- The layout of a document follows that of its expanded form, which starts no further to the left. -/
theorem follows_expanded (page : Page) : (doc : Doc) → {col col' : Nat} → col ≤ col' →
    (doc.expanded.layout page col').StaysWithin page.width col' →
    (doc.layout page col).Follows (doc.expanded.layout page col') (doc.spread page.indent)
      page.width col col'
  | .text _, _, _, hcol, h => Block.follows_self _ hcol h
  | .line parts, _, _, hcol, h => follows_expandedLine page parts hcol h
  | .stack parts, _, _, hcol, h => follows_expandedStack page parts hcol h
  | .indent body, _, _, hcol, h =>
    (follows_expanded page body (Nat.add_le_add_right hcol page.indent)
      (Block.staysWithin_padFirst_iff.mp h)).padFirst hcol
  | .wrap items sep, col, col', hcol, h => by
    have hstack := (follows_expandedStack page items hcol h).decided
    rw [layout, spread]
    split
    · split
      · rename_i hfits
        exact Block.follows_of_fits (by simp [Block.fits, hfits]) _ _ col'
      · exact hstack
    · exact hstack
  | .choice compact full, col, col', hcol, h => by
    have hfull := (follows_expanded page full hcol h).decided
    rw [layout, spread]
    split
    · rename_i hfits
      exact Block.follows_of_fits hfits _ _ col'
    · exact hfull

theorem follows_expandedLine (page : Page) : (parts : List Doc) → {col col' : Nat} → col ≤ col' →
    (layoutLine page (expandeds parts) col').StaysWithin page.width col' →
    (layoutLine page parts col).Follows (layoutLine page (expandeds parts) col')
      (spreadLine page.indent parts) page.width col col'
  | [], _, _, hcol, h => Block.follows_self _ hcol h
  | part :: parts, col, col', hcol, h => by
    rw [expandeds, layoutLine, Block.staysWithin_append_iff] at h
    have hpart := follows_expanded page part hcol h.1
    exact hpart.append (keeps_layoutLine page parts _) fun hle =>
      follows_expandedLine page parts hle h.2

theorem follows_expandedStack (page : Page) : (parts : List Doc) → {col col' : Nat} → col ≤ col' →
    (Block.stack col' (layouts page (expandeds parts) col')).StaysWithin page.width col' →
    (Block.stack col (layouts page parts col)).Follows
      (Block.stack col' (layouts page (expandeds parts) col')) (spreadStack page.indent parts)
      page.width col col'
  | [], _, _, hcol, h => Block.follows_self _ hcol h
  | [last], col, col', hcol, h => by
    simp only [expandeds, layouts, Block.stack_singleton] at h ⊢
    exact follows_expanded page last hcol h
  | part :: next :: parts, col, col', hcol, h => by
    have hrest := follows_expandedStack page (next :: parts) hcol
    simp only [expandeds, layouts, Block.stack_cons_cons, Block.staysWithin_above_iff,
      Block.staysWithin_padFirst_iff, Nat.zero_add] at h hrest ⊢
    exact (follows_expanded page part hcol h.1).above (hrest h.2)

end

end Follows

section Settled

mutual

/-- An expanded document has no wrap, and only a wrap can put a newline into a line. -/
theorem isSettled_expanded (page : Page) : (doc : Doc) → (col : Nat) →
    (doc.expanded.layout page col).IsSettled
  | .text content, _ => Block.isSettled_ofText content
  | .line parts, col => isSettled_expandedLine page parts col
  | .stack parts, col => isSettled_expandedStack page parts col
  | .indent body, col => (isSettled_expanded page body (col + page.indent)).padFirst page.indent
  | .wrap items _, col => isSettled_expandedStack page items col
  | .choice _ full, col => isSettled_expanded page full col

theorem isSettled_expandedLine (page : Page) : (parts : List Doc) → (col : Nat) →
    (layoutLine page (expandeds parts) col).IsSettled
  | [], _ => Block.isSettled_ofText ""
  | part :: parts, col =>
    (isSettled_expanded page part col).append (isSettled_expandedLine page parts _)

theorem isSettled_expandedStack (page : Page) : (parts : List Doc) → (col : Nat) →
    (Block.stack col (layouts page (expandeds parts) col)).IsSettled
  | [], _ => Block.isSettled_ofText ""
  | [last], col => by
    simp only [expandeds, layouts, Block.stack_singleton]
    exact isSettled_expanded page last col
  | part :: next :: parts, col => by
    have hrest := isSettled_expandedStack page (next :: parts) col
    simp only [expandeds, layouts, Block.stack_cons_cons] at hrest ⊢
    exact (isSettled_expanded page part col).above (hrest.padFirst col)

end

end Settled

/-- A layout goes beyond the width by no more than the overhang, if the expanded form stays within it. -/
theorem length_le_of_expanded (page : Page) (doc : Doc)
    (h : ∀ line ∈ (Block.ofText (doc.expanded.render page)).lines, line.length ≤ page.width) :
    ∀ line ∈ (Block.ofText (doc.render page)).lines,
      line.length ≤ page.width + (doc.spread page.indent).overhang := by
  rw [render, (isSettled_expanded page doc 0).lines_ofText_toText] at h
  have hfollows := follows_expanded page doc (Nat.le_refl 0) (Block.staysWithin_zero_iff.mpr h)
  have hlines := Block.staysWithin_zero_iff.mp hfollows.lines
  intro line hmem
  rw [render, Block.lines_ofText_toText] at hmem
  obtain ⟨whole, hwhole, hline⟩ := List.mem_flatMap.mp hmem
  exact (Block.length_le_of_mem_ofText hline).trans (hlines whole hwhole)

end Doc

namespace Script

/-- The lines of a script go beyond the width by no more than what can follow a decision on its line, if
the layout that takes no compact side stays within the width. Where nothing follows one, the width is
kept. -/
theorem length_le_width_add_overhang (script : Script) (page : Page)
    (h : ∀ line ∈ (Block.ofText ((script.doc { page }).expanded.render page)).lines,
      line.length ≤ page.width) :
    ∀ line ∈ (Block.ofText (script.render { page })).lines,
      line.length ≤ page.width + ((script.doc { page }).spread page.indent).overhang :=
  Doc.length_le_of_expanded page (script.doc { page }) h

/-- Two statements with a semicolon between them: the overhang is the semicolon, and it is reached. -/
theorem length_le_width_add_overhang_semicolon :
    let statement : Statement :=
      { comments := [],
        action := .query ⟨none, .select ⟨false, none, [.expr .star none], none, none, [], none, none⟩, none⟩ }
    let script : Script := { statements := [statement, statement], trailingComments := [] }
    let page : Page := { width := 8 }
    script.render { page } = "SELECT *;\n\nSELECT *" ∧
      ((script.doc { page }).spread page.indent).overhang = 1 ∧
      ∀ line ∈ (Block.ofText (script.render { page })).lines,
        line.length ≤ page.width + ((script.doc { page }).spread page.indent).overhang := by
  intro statement script page
  exact ⟨by decide, by decide, length_le_width_add_overhang script page (by decide)⟩

/-- A statement alone has no overhang, so it keeps every width that its expanded form keeps. -/
example :
    let statement : Statement :=
      { comments := ["-- all"],
        action := .query ⟨none, .select ⟨false, none, [.expr .star none], none, none, [], none, none⟩, none⟩ }
    ((Script.doc {} ⟨[statement], []⟩).spread 2).overhang = 0 := by
  decide

/-- A semicolon stands beyond a width that the expanded form keeps: the statement before it fits just
without it. -/
theorem exists_line_past_width :
    ∃ script, Script.ofSource "SELECT 1; SELECT 1" = .ok script ∧
      (∀ line ∈ (Block.ofText
        ((script.doc { page := { width := 8 } }).expanded.render { width := 8 })).lines,
        line.length ≤ 8) ∧
      ∃ line ∈ (Block.ofText (script.render { page := { width := 8 } })).lines, 8 < line.length := by
  have htexts : (Script.ofSource "SELECT 1; SELECT 1").toOption.map (fun script =>
      ((script.doc { page := { width := 8 } }).expanded.render { width := 8 },
        script.render { page := { width := 8 } })) =
      some ("SELECT\n  1;\n\nSELECT\n  1", "SELECT 1;\n\nSELECT 1") := by
    decide +kernel
  cases hread : Script.ofSource "SELECT 1; SELECT 1" with
  | error failure =>
    rw [hread] at htexts
    cases htexts
  | ok script =>
    rw [hread] at htexts
    obtain ⟨hexpanded, hrender⟩ := Prod.mk.inj (Option.some.inj htexts)
    refine ⟨script, rfl, ?_, "SELECT 1;", ?_, by decide⟩
    · rw [hexpanded]
      decide
    · rw [hrender]
      decide

end Script

end SqlLayout
