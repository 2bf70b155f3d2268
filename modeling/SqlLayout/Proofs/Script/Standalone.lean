import SqlLayout.Proofs.Layout.Compact
import SqlLayout.Proofs.Layout.Script

/-!
# Statements Are Laid Out on Their Own

The documents of a script stand below each other at the first column, where nothing is padded, and a
semicolon is put after a layout that is there already. So the text of a script is made of the texts that
its statements have as scripts of their own: no statement can change the layout of another one.
-/

namespace SqlLayout

namespace Doc

@[simp]
theorem render_text (page : Page) (content : String) : (text content).render page = content :=
  Block.toText_ofText content

/-- A suffix of text comes after the text of a document, whatever that one decided. -/
theorem render_append (page : Page) (doc : Doc) (suffix : String) :
    (doc.append (.text suffix)).render page = doc.render page ++ suffix := by
  apply String.toList_injective
  rw [render, layout_append, String.toList_append, render, Block.toList_toText, Block.toList_toText,
    Block.chars_append, layout, Block.chars_ofText]

/-- At the first column, documents below each other are rendered one by one. -/
theorem render_stack (page : Page) (docs : List Doc) :
    (stack docs).render page = "\n".intercalate (docs.map (render page)) := by
  have hnewline : "\n".toList = ['\n'] := by decide
  apply String.toList_injective
  rw [render, Block.toList_toText, layout, layouts_eq_map, Block.chars_stack_zero,
    String.toList_intercalate, hnewline, List.map_map, List.map_map]
  congr 1
  apply List.map_congr_left
  intro doc _
  exact (Block.toList_toText _).symm

end Doc

namespace Style

/-- The line breaks between a statement and what comes after it. -/
def breaks (style : Style) : String :=
  if style.compact then "\n" else "\n\n"

end Style

section Rows

/-- Documents one below the other. -/
def rowsText (page : Page) (docs : List Doc) : String :=
  "\n".intercalate (docs.map (Doc.render page))

variable {page : Page} {docs others : List Doc}

theorem rowsText_append (h : docs ≠ []) (h' : others ≠ []) :
    rowsText page (docs ++ others) = rowsText page docs ++ "\n" ++ rowsText page others := by
  rw [rowsText, List.map_append, String.intercalate_append_of_ne_nil (by simpa using h) (by simpa using h')]
  rfl

/-- What a style puts between rows is a line break and, unless the style is compact, an empty line. -/
theorem rowsText_gap (style : Style) (h : docs ≠ []) (h' : others ≠ []) :
    rowsText page (docs ++ style.gap ++ others) =
      rowsText page docs ++ style.breaks ++ rowsText page others := by
  have hbreaks : "\n" ++ ("" ++ "\n") = "\n\n" := by decide
  unfold Style.gap Style.breaks
  split
  · rw [List.append_nil, rowsText_append h h']
  · rw [rowsText_append (by simp) h', rowsText_append h (by simp), ← hbreaks]
    simp [rowsText, Doc.empty, String.append_assoc]

/-- A suffix of the last row comes after all of them. -/
theorem rowsText_suffix (docs : List Doc) (last : Doc) (suffix : String) :
    rowsText page (docs ++ [last.append (.text suffix)]) = rowsText page (docs ++ [last]) ++ suffix := by
  cases docs with
  | nil => simp [rowsText, Doc.render_append]
  | cons doc docs =>
    rw [rowsText_append (by simp) (by simp), rowsText_append (by simp) (by simp), String.append_assoc,
      String.append_assoc, String.append_assoc]
    simp [rowsText, Doc.render_append]

theorem rowsText_comments (comments : List String) :
    rowsText page (commentDocs comments) = "\n".intercalate comments := by
  have hrender : Doc.render page ∘ Doc.text = id := funext (Doc.render_text page)
  rw [rowsText, commentDocs, List.map_map, hrender, List.map_id]

end Rows

section Statements

/-- A script of one statement, with the comments of that statement and no others. -/
def Statement.alone (statement : Statement) : Script :=
  { statements := [statement], trailingComments := [] }

theorem Statement.docs_ne_nil (style : Style) (isTerminated : Bool) (statement : Statement) :
    statement.docs style isTerminated ≠ [] := by
  simp [docs]

theorem Statement.render_alone (style : Style) (statement : Statement) :
    statement.alone.render style = rowsText style.effectivePage (statement.docs style false) := by
  rw [Script.render, Script.doc, Doc.render_stack]
  simp [alone, statementDocs, commentDocs, rowsText]

/-- A terminated statement is the statement on its own and a semicolon. -/
theorem Statement.rowsText_docs (style : Style) (isTerminated : Bool) (statement : Statement) :
    rowsText style.effectivePage (statement.docs style isTerminated) =
      statement.alone.render style ++ if isTerminated then ";" else "" := by
  rw [Statement.render_alone]
  cases isTerminated with
  | false => simp
  | true => exact rowsText_suffix _ _ ";"

theorem statementDocs_ne_nil (style : Style) (lastIsTerminated : Bool) (statement : Statement)
    (statements : List Statement) :
    statementDocs style lastIsTerminated (statement :: statements) ≠ [] := by
  cases statements with
  | nil => exact statement.docs_ne_nil style lastIsTerminated
  | cons next statements => simp [statementDocs, Statement.docs_ne_nil]

/-- Statements one after the other; the last one is terminated only if it is said to be. -/
theorem rowsText_statements (style : Style) (lastIsTerminated : Bool) {statements : List Statement}
    (h : statements ≠ []) :
    rowsText style.effectivePage (statementDocs style lastIsTerminated statements) =
      (";" ++ style.breaks).intercalate (statements.map fun statement => statement.alone.render style)
        ++ if lastIsTerminated then ";" else "" := by
  induction statements with
  | nil => exact absurd rfl h
  | cons statement statements ih =>
    cases statements with
    | nil => simpa [statementDocs] using statement.rowsText_docs style lastIsTerminated
    | cons next statements =>
      rw [statementDocs, rowsText_gap style (statement.docs_ne_nil style true)
        (statementDocs_ne_nil style _ next statements), statement.rowsText_docs style true, ih (by simp)]
      simp [String.append_assoc]

end Statements

namespace Script

/-- The text of a script is the texts of its statements, each laid out as a script of its own, with a
semicolon and line breaks between them. Comments after the last statement come last, one per line, as if
they were one more statement. -/
theorem render_eq_intercalate_alone (style : Style) (script : Script) :
    script.render style =
      (if style.compact then ";\n" else ";\n\n").intercalate
        ((script.statements.map fun statement => statement.alone.render style)
          ++ if script.trailingComments = [] then []
            else ["\n".intercalate script.trailingComments]) := by
  have hseparator : (if style.compact then ";\n" else ";\n\n") = ";" ++ style.breaks := by
    unfold Style.breaks
    split <;> decide
  obtain ⟨statements, trailing⟩ := script
  rw [hseparator, render, doc, Doc.render_stack]
  change rowsText _ _ = _
  by_cases htrailing : trailing = []
  · subst htrailing
    cases statements with
    | nil => rfl
    | cons statement statements =>
      simpa [commentDocs] using rowsText_statements style false (List.cons_ne_nil statement statements)
  · have hcomments : commentDocs trailing ≠ [] := by simpa [commentDocs] using htrailing
    have hterminated : trailing.isEmpty = false := by simpa using htrailing
    cases statements with
    | nil => simpa [statementDocs, htrailing] using rowsText_comments trailing
    | cons statement statements =>
      have hgap : rowsText style.effectivePage (statementDocs style true (statement :: statements)
          ++ style.gap ++ commentDocs trailing) = _ :=
        rowsText_gap style (statementDocs_ne_nil style true statement statements) hcomments
      rw [rowsText_statements style true (List.cons_ne_nil statement statements),
        rowsText_comments] at hgap
      rw [if_neg htrailing, String.intercalate_append_of_ne_nil (by simp) (by simp)]
      simpa [hterminated, String.append_assoc] using hgap

end Script

end SqlLayout
