import SqlLayout.Proofs.Layout.Statement

/-!
# Layouts of Scripts

The documents of a script stand at the first column, so its text is theirs with a newline between each
two of them. Comments stand on lines of their own, and the empty lines between statements are blanks, so
every style prints the same spelling.
-/

namespace SqlLayout

open Spelling

section Rows

def commentGlyph (text : String) : Glyph :=
  { kind := if ['/', '*'].isPrefixOf text.toList then .blockComment else .lineComment, text }

def commentRows (comments : List String) : List Spelling :=
  comments.map fun comment => [.glyph (commentGlyph comment)]

def Statement.rows (isTerminated : Bool) (statement : Statement) : List Spelling :=
  let spelling := statement.action.spelling
  commentRows statement.comments
    ++ [if isTerminated then spelling ++ [Atom.symbol .semicolon ";"] else spelling]

def Style.gapRows (style : Style) : List Spelling :=
  if style.compact then [] else [[]]

/-- The rows of statements, with the empty rows a style puts between them. -/
def statementRows (gap : List Spelling) (lastIsTerminated : Bool) : List Statement → List Spelling
  | [] => []
  | [last] => last.rows lastIsTerminated
  | statement :: next :: statements =>
    statement.rows true ++ gap ++ statementRows gap lastIsTerminated (next :: statements)

def Script.rows (gap : List Spelling) (script : Script) : List Spelling :=
  let isTerminated := !script.trailingComments.isEmpty
  let between := if script.statements.isEmpty || !isTerminated then [] else gap
  statementRows gap isTerminated script.statements ++ between ++ commentRows script.trailingComments

/-- Rows one below the other. -/
def lines (rows : List Spelling) : Spelling :=
  List.intercalate [.line] rows

/-- The tokens of a script, comments included. -/
def Script.spelling (script : Script) : Spelling :=
  lines (script.rows [])

end Rows

section Documents

theorem prints_comments (comments : List String) :
    List.Forall₂ Doc.Prints (commentDocs comments) (commentRows comments) := by
  induction comments with
  | nil => exact .nil
  | cons comment comments ih => exact .cons (Doc.prints_plain (by simp [commentGlyph])) ih

theorem Style.prints_pick (style : Style) {form : Form} {spelling : Spelling}
    (h : form.Prints spelling) : (style.pick form).Prints spelling := by
  unfold Style.pick
  split
  · exact h.compact.prints
  · exact h.full

theorem Statement.prints (style : Style) (isTerminated : Bool) (statement : Statement) :
    List.Forall₂ Doc.Prints (statement.docs style isTerminated) (statement.rows isTerminated) := by
  have hpick := style.prints_pick statement.action.prints
  refine forall₂_append (prints_comments statement.comments) (.cons ?_ .nil)
  cases isTerminated with
  | false => exact hpick
  | true => exact hpick.append (Doc.prints_plain (by decide))

theorem Style.prints_gap (style : Style) : List.Forall₂ Doc.Prints style.gap style.gapRows := by
  unfold Style.gap Style.gapRows
  split
  · exact .nil
  · exact .cons (Doc.prints_plain (by decide)) .nil

theorem prints_statements (style : Style) (lastIsTerminated : Bool) (statements : List Statement) :
    List.Forall₂ Doc.Prints (statementDocs style lastIsTerminated statements)
      (statementRows style.gapRows lastIsTerminated statements) := by
  induction statements with
  | nil => exact .nil
  | cons statement statements ih =>
    cases statements with
    | nil => exact statement.prints style lastIsTerminated
    | cons next statements =>
      exact forall₂_append (forall₂_append (statement.prints style true) style.prints_gap) ih

theorem Block.chars_stack_zero (blocks : List Block) :
    (Block.stack 0 blocks).chars = List.intercalate ['\n'] (blocks.map Block.chars) := by
  have hpad (block : Block) : (block.padFirst 0).chars = block.chars := by
    obtain ⟨first, rest⟩ := block
    by_cases hempty : first.isEmpty <;> simp [padFirst, padLine, chars, hempty, Text.spaces]
  cases blocks with
  | nil => rfl
  | cons block blocks =>
    rw [chars_stack]
    induction blocks generalizing block with
    | nil => simp
    | cons next blocks ih =>
      rw [List.flatMap_cons, List.map_cons, List.map_cons, List.intercalate_cons_cons,
        ← List.map_cons, ← ih, hpad]
      simp

/-- At the first column the blanks between two rows are a newline. -/
theorem expands_lines {docs : List Doc} {rows : List Spelling} (h : List.Forall₂ Doc.Prints docs rows)
    (page : Page) :
    Expands (lines rows) (Doc.layout page (.stack docs) 0).chars := by
  rw [Doc.layout, Block.chars_stack_zero]
  induction h with
  | nil => exact .nil
  | @cons doc row docs rows hdoc hdocs ih =>
    have hfirst := (hdoc page).1 0
    cases hdocs with
    | nil => simpa [lines, Doc.layouts] using hfirst
    | cons hnext hdocs =>
      have happended := hfirst.append (.line 0 ih)
      simp only [lines, Doc.layouts, List.map_cons, List.intercalate_cons_cons, List.append_assoc] at happended ⊢
      exact happended

end Documents

section EmptyRows

theorem lines_append {rows others : List Spelling} (h : rows ≠ []) (h' : others ≠ []) :
    lines (rows ++ others) = lines rows ++ .line :: lines others := by
  induction rows with
  | nil => exact absurd rfl h
  | cons row rows ih =>
    cases rows with
    | nil =>
      obtain ⟨next, others, rfl⟩ := List.exists_cons_of_ne_nil h'
      simp [lines]
    | cons next rows =>
      have hrest := ih (by simp)
      simp only [lines, List.cons_append, List.intercalate_cons_cons] at hrest ⊢
      simp [hrest]

/-- The empty rows of a style are blanks. -/
theorem Expands.dropGap {rows others : List Spelling} {cs : List Char} (style : Style)
    (h : rows ≠ []) (h' : others ≠ [])
    (hexpands : Expands (lines (rows ++ style.gapRows ++ others)) cs) :
    Expands (lines (rows ++ others)) cs := by
  unfold Style.gapRows at hexpands
  split at hexpands
  · simpa using hexpands
  · rw [List.append_assoc, lines_append h (by simp), lines_append (by simp) h'] at hexpands
    rw [lines_append h h']
    exact hexpands.mergeLines

theorem Statement.rows_ne_nil (isTerminated : Bool) (statement : Statement) :
    statement.rows isTerminated ≠ [] := by
  simp [Statement.rows]

theorem statementRows_ne_nil (gap : List Spelling) (lastIsTerminated : Bool) (statement : Statement)
    (statements : List Statement) :
    statementRows gap lastIsTerminated (statement :: statements) ≠ [] := by
  cases statements with
  | nil => exact statement.rows_ne_nil lastIsTerminated
  | cons next statements => simp [statementRows, Statement.rows_ne_nil]

theorem Expands.dropGaps {rows others : List Spelling} {cs : List Char} (style : Style)
    (lastIsTerminated : Bool) (statements : List Statement)
    (h : Expands (lines (rows ++ statementRows style.gapRows lastIsTerminated statements ++ others))
      cs) :
    Expands (lines (rows ++ statementRows [] lastIsTerminated statements ++ others)) cs := by
  induction statements generalizing rows with
  | nil => exact h
  | cons statement statements ih =>
    cases statements with
    | nil => exact h
    | cons next statements =>
      have hfirst : rows ++ statement.rows true ≠ [] := by simp [Statement.rows_ne_nil]
      have hrest : statementRows style.gapRows lastIsTerminated (next :: statements) ++ others ≠ [] := by
        simp [statementRows_ne_nil]
      rw [statementRows, ← List.append_assoc, ← List.append_assoc,
        List.append_assoc (rows ++ statement.rows true ++ style.gapRows)] at h
      have hdropped := h.dropGap style hfirst hrest
      rw [← List.append_assoc] at hdropped
      have hdone := ih hdropped
      simp only [statementRows, List.append_nil, List.append_assoc] at hdone ⊢
      exact hdone

/-- Every style prints the spelling of a script. -/
theorem Script.expands_render (style : Style) (script : Script) :
    Expands script.spelling (script.render style).toList := by
  obtain ⟨statements, trailing⟩ := script
  rw [Script.render, Doc.render, Block.toList_toText]
  have hrows : List.Forall₂ Doc.Prints
      (statementDocs style (!trailing.isEmpty) statements
        ++ (if statements.isEmpty || !(!trailing.isEmpty) then [] else style.gap)
        ++ commentDocs trailing)
      (statementRows style.gapRows (!trailing.isEmpty) statements
        ++ (if statements.isEmpty || !(!trailing.isEmpty) then [] else style.gapRows)
        ++ commentRows trailing) := by
    refine forall₂_append (forall₂_append (prints_statements style _ statements) ?_)
      (prints_comments trailing)
    split
    · exact .nil
    · exact style.prints_gap
  have hexpands : Expands _ ((Script.doc style ⟨statements, trailing⟩).layout _ 0).chars :=
    expands_lines hrows style.effectivePage
  generalize ((Script.doc style ⟨statements, trailing⟩).layout _ 0).chars = cs at hexpands ⊢
  have hbetween : Expands
      (lines ([] ++ statementRows style.gapRows (!trailing.isEmpty) statements
        ++ commentRows trailing)) cs := by
    split at hexpands
    · rw [List.append_nil] at hexpands
      exact hexpands
    · rename_i hgap
      cases statements with
      | nil => exact absurd rfl hgap
      | cons statement statements =>
        refine hexpands.dropGap style (statementRows_ne_nil _ _ _ _) ?_
        simpa [commentRows] using hgap
  have hdropped := hbetween.dropGaps style
  simpa [Script.spelling, Script.rows] using hdropped

/-- Every style prints the spelling of an expression. -/
theorem Expr.expands_render (style : Style) (e : Expr) :
    Expands e.spelling (e.render style).toList := by
  have hprints := style.prints_pick e.prints.toForm
  rw [Expr.render, Doc.render, Block.toList_toText]
  exact (hprints style.effectivePage).1 0

end EmptyRows

end SqlLayout
