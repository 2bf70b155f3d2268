import SqlLayout.Proofs.Layout.Compact
import SqlLayout.Proofs.Layout.Printed
import SqlLayout.Proofs.Sound.Statement
import SqlLayout.Proofs.Token.Inside

/-!
# Compact Documents Are Flat

The compact form of every piece of syntax is made of texts side by side and leaves nothing to the page.
So the compact text of a statement breaks the line only where one of its tokens does; and the tokens of a
statement that was read that can hold a newline are its literals and its backquoted names.
-/

namespace SqlLayout

open Token Token.Scan Spelling

section Families

/-- The forms that trees are printed with, one family after the other. -/
inductive Form.IsOfSyntax : Form → Prop
  /-- A name, a constant, a type, a frame or a declaration. -/
  | text (content : String) : IsOfSyntax (.text content)
  | expr (e : Expr) : IsOfSyntax e.form.toForm
  | sortKey {keys : List SortKey} {form : Form} (h : form ∈ sortKeyForms keys) : IsOfSyntax form
  | structItem {items : List StructItem} {form : Form} (h : form ∈ structItemForms items) :
    IsOfSyntax form
  | branch {branches : List Branch} {form : Form} (h : form ∈ branchForms branches) : IsOfSyntax form
  | accessor (position : Expr) (name : Option Identifier) :
    IsOfSyntax (accessorForm position.form.toForm name)
  | target (target : MemberTarget) : IsOfSyntax target.form
  | order (order : RowOrder) : IsOfSyntax order.form
  | window (window : Window) : IsOfSyntax window.form
  | query (query : Query) : IsOfSyntax query.form
  | commonTables (common : CommonTables) : IsOfSyntax common.form
  | commonTable {tables : List CommonTable} {form : Form} (h : form ∈ commonTableForms tables) :
    IsOfSyntax form
  | setExpr (body : SetExpr) : IsOfSyntax body.form
  | select (select : Select) : IsOfSyntax select.form
  | selectItem {items : List SelectItem} {form : Form} (h : form ∈ selectItemForms items) :
    IsOfSyntax form
  | replacement {items : List Replacement} {form : Form} (h : form ∈ replacementForms items) :
    IsOfSyntax form
  | table (table : TableExpr) : IsOfSyntax table.form
  | option (item : OptionItem) : IsOfSyntax item.form
  | options {items : List OptionItem} {form : Form} (h : form ∈ optionForms items) : IsOfSyntax form
  | functionBody {body : FunctionBody} {form : Form} (h : form ∈ body.forms) : IsOfSyntax form
  | function (definition : FunctionDef) : IsOfSyntax definition.form
  | tableDef (definition : TableDef) : IsOfSyntax definition.form
  | viewDef (definition : ViewDef) : IsOfSyntax definition.form
  | row (row : List Expr) : IsOfSyntax (rowForm row)
  | insertion (insertion : Insertion) : IsOfSyntax insertion.form
  | action (action : Action) : IsOfSyntax action.form

theorem Form.IsOfSyntax.prefersCompact {form : Form} (h : form.IsOfSyntax) : form.PrefersCompact := by
  cases h with
  | text content => exact prefers_text content
  | expr e => exact e.prefersCompact
  | sortKey h => exact prefers_sortKeys _ form h
  | structItem h => exact prefers_structItems _ form h
  | branch h => exact prefers_branches _ form h
  | accessor position name => exact inline_prefers.accessorForm position.prefersCompact name
  | target target => exact target.prefersCompact
  | order order => exact order.prefersCompact
  | window window => exact window.prefersCompact
  | query query => exact query.prefersCompact
  | commonTables common => exact common.prefersCompact
  | commonTable h => exact prefers_commonTableForms _ form h
  | setExpr body => exact body.prefersCompact
  | select select => exact select.prefersCompact
  | selectItem h => exact prefers_selectItems _ form h
  | replacement h => exact prefers_replacements _ form h
  | table table => exact table.prefersCompact
  | option item => exact inline_prefers.keyword _ item.value.prefersCompact
  | options h => exact prefers_options _ form h
  | functionBody h => exact FunctionBody.prefersCompact _ form h
  | function definition => exact definition.prefersCompact
  | tableDef definition => exact definition.prefersCompact
  | viewDef definition => exact definition.prefersCompact
  | row row => exact prefers_call _ _ (prefers_exprs row)
  | insertion insertion => exact insertion.prefersCompact
  | action action => exact action.prefersCompact

end Families

section Newlines

/-- A phrase on one line breaks it only inside a literal or a backquoted name. -/
theorem exists_token_of_plain {spelling : Spelling} (h : spelling.IsPhrase) {text before after : String}
    (htext : text.toList = spelling.plain) (hsplit : text = before ++ "\n" ++ after) :
    ∃ token ∈ lex text, token.Contains before.utf8ByteSize ∧ '\n' ∈ token.text.toList ∧
      (token.kind = .string ∨ token.kind = .quotedIdent) ∧ token.text ∈ spelling.verbatims := by
  have hrealizes : Realizes 0 spelling (lex text) :=
    realizes_lex h.legible (htext ▸ spelling.expands_plain)
  have hcs : text.toList = before.toList ++ '\n' :: after.toList := by
    rw [hsplit, String.toList_append, String.toList_append, List.append_assoc]
    rfl
  obtain ⟨token, _, _, hstands⟩ := (tiles_lex text).exists_stands hcs
  have hplain := (tiles_lex text).flatMap_text.trans htext
  have hcontains := hstands.contains
  rw [Nat.zero_add, String.ofList_toList] at hcontains
  refine ⟨token, hstands.mem, hcontains, hstands.char_mem, ?_⟩
  rcases hrealizes.mem_cases hstands.mem with ⟨glyph, hglyph, hkind, hsame⟩ | ⟨hblank, -⟩
  · have hnewline : '\n' ∈ glyph.text.toList := hsame ▸ hstands.char_mem
    have hkinds := Glyph.kind_mem_of_newline_mem (h.legible.genuine glyph hglyph) hnewline
    have hquoted : glyph.kind = .string ∨ glyph.kind = .quotedIdent := by
      have hcomment := h.plain glyph hglyph
      simp only [List.mem_cons, List.not_mem_nil, or_false] at hkinds
      rcases hkinds with hstring | hname | hblock
      · exact .inl hstring
      · exact .inr hname
      · rw [hblock] at hcomment
        cases hcomment
    refine ⟨hkind ▸ hquoted, List.mem_flatMap.mpr ⟨_, hglyph, ?_⟩⟩
    rcases hquoted with hquoted | hquoted <;>
      simp [Atom.verbatims, Glyph.verbatims, Kind.isVerbatim, hquoted, hsame]
  · exact absurd hstands.char_mem
      (hrealizes.newline_notMem_of_plain h.legible h.flat hplain hstands.mem hblank)

/-- The compact text of a sound statement breaks the line only inside the literals and the backquoted names
of the statement. -/
theorem Statement.exists_token_of_newline {statement : Statement} (h : (Node.statement statement).IsSound)
    {page : Page} {before after : String}
    (hsplit : statement.action.form.compact.render page = before ++ "\n" ++ after) :
    ∃ token ∈ lex (statement.action.form.compact.render page), token.Contains before.utf8ByteSize ∧
      '\n' ∈ token.text.toList ∧ (token.kind = .string ∨ token.kind = .quotedIdent) ∧
      token.text ∈ statement.verbatims := by
  have hphrase : statement.action.spelling.IsPhrase := Node.isLegible _ h
  have hspells := statement.action.prints.compact
  have htext : (statement.action.form.compact.render page).toList = statement.action.spelling.plain := by
    rw [Doc.render, hspells.plain.layout_eq, Block.toText_ofText, hspells.content]
  have hprinted : Printed statement.verbatims statement.action.spelling.verbatims := Node.printsTexts _ h
  obtain ⟨token, hmem, hcontains, hnewline, hkind, hverbatim⟩ :=
    exists_token_of_plain hphrase htext hsplit
  have hgenuine : token.glyph.IsGenuine := by
    apply isGenuine_of_mem_lex hmem <;> rcases hkind with hkind | hkind <;> rw [hkind] <;> decide
  exact ⟨token, hmem, hcontains, hnewline, hkind, hprinted.mem_of_quoted hgenuine hkind hverbatim⟩

/-- The compact form of every piece of syntax is made of texts side by side, so on every page and at every
column it prints the texts put together. And the compact text of a statement that was read has newlines only
inside the literals and the backquoted names of the statement. -/
theorem compact_flat :
    (∀ form : Form, form.IsOfSyntax → form.compact.IsPlain ∧
      ∀ (page : Page) (col : Nat),
        form.compact.layout page col = .ofText (String.join form.compact.texts)) ∧
    ∀ (source : String) (script : Script), Script.ofSource source = .ok script →
      ∀ statement ∈ script.statements, ∀ (page : Page) (before after : String),
        statement.action.form.compact.render page = before ++ "\n" ++ after →
          ∃ token ∈ lex (statement.action.form.compact.render page),
            token.Contains before.utf8ByteSize ∧ '\n' ∈ token.text.toList ∧
              (token.kind = .string ∨ token.kind = .quotedIdent) ∧ token.text ∈ statement.verbatims := by
  refine ⟨fun form h => ⟨h.prefersCompact.plain, h.prefersCompact.plain.layout_eq⟩, ?_⟩
  intro source script h statement hmem page before after hsplit
  have hsound := (Script.isSound_of_ofSource h).child (List.mem_map_of_mem (f := Node.statement) hmem)
  exact Statement.exists_token_of_newline hsound hsplit

/-- A literal of two lines in a list. -/
theorem compact_flat_literal :
    ∃ script statement, Script.ofSource "SELECT [1, \x27\x27\x27a\nb\x27\x27\x27]" = .ok script ∧
      statement ∈ script.statements ∧
      statement.action.form.compact.IsPlain ∧
      statement.action.form.compact.render { width := 4 } =
        "SELECT [1, \x27\x27\x27a" ++ "\n" ++ "b\x27\x27\x27]" ∧
      ∃ token ∈ lex (statement.action.form.compact.render { width := 4 }),
        token.Contains "SELECT [1, \x27\x27\x27a".utf8ByteSize ∧ '\n' ∈ token.text.toList ∧
          (token.kind = .string ∨ token.kind = .quotedIdent) ∧ token.text ∈ statement.verbatims := by
  have hread : (Script.ofSource "SELECT [1, \x27\x27\x27a\nb\x27\x27\x27]").isOk := by decide +kernel
  have htexts : (Script.ofSource "SELECT [1, \x27\x27\x27a\nb\x27\x27\x27]").toOption.map
      (fun script => script.statements.map fun statement =>
        statement.action.form.compact.render { width := 4 }) =
      some ["SELECT [1, \x27\x27\x27a\nb\x27\x27\x27]"] := by decide +kernel
  obtain ⟨script, hscript⟩ := exists_of_isOk hread
  rw [hscript] at htexts
  obtain ⟨statement, hstatements, htext⟩ := List.map_eq_singleton_iff.mp (Option.some.inj htexts)
  have hmem : statement ∈ script.statements := by simp [hstatements]
  have hsplit : statement.action.form.compact.render { width := 4 } =
      "SELECT [1, \x27\x27\x27a" ++ "\n" ++ "b\x27\x27\x27]" := by
    rw [htext]
    decide
  exact ⟨script, statement, hscript, hmem, (compact_flat.1 _ (.action _)).1, hsplit,
    compact_flat.2 _ script hscript statement hmem _ _ _ hsplit⟩

end Newlines

end SqlLayout
