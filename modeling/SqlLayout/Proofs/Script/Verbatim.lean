import SqlLayout.Proofs.Layout.Printed
import SqlLayout.Proofs.Script.Layouts
import SqlLayout.Proofs.Stores.Statement

/-!
# Literals and Quoted Names of a Script

A script is read to its last token, and what every rule takes it stores. So the literals and the
backquoted names of a source are all in its script, each once and in their order. That is the order in
which every layout prints them.
-/

namespace SqlLayout

namespace TokenStream

/-- Blanks and comments are no data, so the significant tokens hold all texts that are. -/
theorem flatMap_verbatims_sort (count : Nat) (tokens : List Token) :
    (sort count tokens).tokens.flatMap Token.verbatims =
      (tokens.filter fun token => token.kind.isVerbatim).map Token.text := by
  have htrivia {token : Token} (h : token.kind.isTrivia = true) : token.kind.isVerbatim = false := by
    revert h
    cases token.kind <;> decide
  induction tokens generalizing count with
  | nil => rfl
  | cons token tokens ih =>
    rw [sort]
    split
    · rename_i hcomment
      rw [List.filter_cons_of_neg (by simp [htrivia (token.kind.isTrivia_of_isComment hcomment)])]
      exact ih count
    · split
      · rename_i hblank
        rw [List.filter_cons_of_neg (by simp [htrivia hblank])]
        exact ih count
      · rw [List.flatMap_cons, ih, List.filter_cons, Token.verbatims, Glyph.verbatims, Token.glyph]
        split <;> rfl

end TokenStream

section Layouts

theorem Spelling.flatMap_verbatims_glyphs (spelling : Spelling) :
    spelling.glyphs.flatMap Glyph.verbatims = spelling.verbatims := by
  have hcomment {glyph : Glyph} (h : glyph.kind.isComment) : glyph.verbatims = [] := by
    obtain ⟨kind, text, tied⟩ := glyph
    cases kind <;> first | rfl | cases h
  induction spelling with
  | nil => rfl
  | cons atom spelling ih =>
    cases atom with
    | glyph token =>
      rw [Spelling.glyphs, Spelling.verbatims_cons, Atom.verbatims]
      split
      · rename_i h
        rw [hcomment h, ih, List.nil_append]
      · rw [List.flatMap_cons, ih]
    | _ => exact ih

theorem flatMap_verbatims_of_shows {tokens : List Token} {glyphs : List Glyph} (h : Shows tokens glyphs) :
    tokens.flatMap Token.verbatims = glyphs.flatMap Glyph.verbatims := by
  induction h with
  | nil => rfl
  | cons hkind htext _ _ ih =>
    rw [List.flatMap_cons, List.flatMap_cons, ih, Token.verbatims, Glyph.verbatims, Glyph.verbatims,
      Token.glyph, hkind, htext]

end Layouts

namespace Script

/-- Every layout of a script that was read prints its literals and backquoted names in their order. -/
theorem printed_render {source : String} {script : Script} (h : Script.ofSource source = .ok script)
    (style : Style) :
    Printed script.verbatims
      (((Token.lex (script.render style)).filter fun token => token.kind.isVerbatim).map Token.text) := by
  have hsound := isSound_of_ofSource h
  obtain ⟨stream, hstream, hshows, -, -⟩ := exists_stream hsound style
  have hprinted : Printed script.verbatims script.spelling.verbatims := Node.printsTexts _ hsound
  obtain ⟨rfl, -⟩ := TokenStream.eq_sort_of_ofSource hstream
  rw [← Spelling.flatMap_verbatims_glyphs, ← flatMap_verbatims_of_shows hshows,
    TokenStream.flatMap_verbatims_sort] at hprinted
  exact hprinted

/-- Every rule stores the literals and the backquoted names that it takes. -/
theorem verbatims_eq_filter {source : String} {script : Script} (h : Script.ofSource source = .ok script) :
    script.verbatims =
      ((Token.lex source).filter fun token => token.kind.isVerbatim).map Token.text := by
  rw [Script.ofSource, Grammar.runOn_eq_runAfreshOn (Grammar.isTame_atDepth Grammar.isTame_script)] at h
  obtain ⟨stream, after, hstream, hrun⟩ := Grammar.exists_run_of_runAfreshOn h
  obtain ⟨hpasses, hread⟩ := (Grammar.Nested.isStoring_nestedAt _).script.ensures _
    (Grammar.isClean_ofStream hstream) script after hrun
  have hend := Grammar.script_atEnd (Grammar.Nested.isBuilt_nestedAt _) rfl hrun
  have htokens : after.tokens = stream.tokens.toArray := congrArg Cursor.tokens hpasses.frame
  obtain ⟨rfl, -⟩ := TokenStream.eq_sort_of_ofSource hstream
  calc
    script.verbatims = after.read := hread.symm
    _ = (TokenStream.sort 0 (Token.lex source)).tokens.flatMap Token.verbatims := by
      rw [Cursor.read_of_atEnd hend, htokens]
    _ = _ := TokenStream.flatMap_verbatims_sort 0 _

/-- The literals and backquoted names of a source are all in its script, each once and in their order, and
in this order every layout prints them. -/
theorem verbatims_of_ofSource {source : String} {script : Script}
    (h : Script.ofSource source = .ok script) :
    script.verbatims =
      ((Token.lex source).filter fun token => token.kind.isVerbatim).map Token.text ∧
    ∀ style, Printed script.verbatims
      (((Token.lex (script.render style)).filter fun token => token.kind.isVerbatim).map Token.text) :=
  ⟨verbatims_eq_filter h, printed_render h⟩

theorem verbatims_of_ofSource_insert :
    ∃ script, Script.ofSource "INSERT INTO \x60t\x60 (b) VALUES (1, r'x', TRUE)" = .ok script ∧
      script.verbatims =
        ((Token.lex "INSERT INTO \x60t\x60 (b) VALUES (1, r'x', TRUE)").filter fun token =>
          token.kind.isVerbatim).map Token.text ∧
      ∀ style, Printed script.verbatims
        (((Token.lex (script.render style)).filter fun token => token.kind.isVerbatim).map Token.text) := by
  have hread : (Script.ofSource "INSERT INTO \x60t\x60 (b) VALUES (1, r'x', TRUE)").isOk := by decide +kernel
  obtain ⟨script, hscript⟩ := exists_of_isOk hread
  exact ⟨script, hscript, verbatims_of_ofSource hscript⟩

end Script

end SqlLayout
