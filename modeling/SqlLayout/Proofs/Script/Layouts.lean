import SqlLayout.Proofs.Layout.Legible
import SqlLayout.Proofs.Script.Alike
import SqlLayout.Proofs.Script.Comments
import SqlLayout.Proofs.Sound.Statement
import SqlLayout.Proofs.Token.Angles

/-!
# Layouts of a Script Say the Same

Whatever the style, the text of a script that was read has the same tokens, the same touching angle
brackets and the same comments: those of the spelling of the script, which is legible because what is
read is sound.
-/

namespace SqlLayout

open Spelling

section Comments

/-- The text of a comment. -/
def Atom.comment? : Atom → Option String
  | .glyph token => if token.kind.isComment then some token.text else none
  | _ => none

/-- The comments of a spelling. -/
def Spelling.comments (spelling : Spelling) : List String :=
  spelling.filterMap Atom.comment?

variable {spelling : Spelling} {rows : List Spelling}

theorem snd_commentsFrom (spelling : Spelling) (count : Nat) :
    (spelling.commentsFrom count).map Prod.snd = spelling.comments := by
  induction spelling generalizing count with
  | nil => rfl
  | cons atom spelling ih =>
    cases atom with
    | glyph glyph =>
      unfold Spelling.commentsFrom Spelling.comments
      rw [List.filterMap_cons]
      cases hcomment : glyph.kind.isComment with
      | true => simpa [Atom.comment?, hcomment, Spelling.comments] using ih count
      | false => simpa [Atom.comment?, hcomment, Spelling.comments] using ih (count + 1)
    | _ => exact ih count

theorem comments_phrase (h : spelling.IsPhrase) : spelling.comments = [] := by
  apply List.filterMap_eq_nil_iff.mpr
  intro atom hmem
  cases atom with
  | glyph glyph => simp [Atom.comment?, h.plain glyph hmem]
  | _ => rfl

theorem comments_lines (rows : List Spelling) :
    (lines rows).comments = rows.flatMap Spelling.comments := by
  induction rows with
  | nil => rfl
  | cons row rows ih =>
    cases rows with
    | nil => simp [lines]
    | cons next rows =>
      simp only [lines, List.intercalate_cons_cons, Spelling.comments, List.filterMap_append,
        List.flatMap_cons] at ih ⊢
      rw [ih]
      simp [Atom.comment?]

theorem comments_commentRows {comments : List String} (h : ∀ comment ∈ comments, IsComment comment) :
    (commentRows comments).flatMap Spelling.comments = comments := by
  induction comments with
  | nil => rfl
  | cons comment comments ih =>
    have hcomment := (isGenuine_commentGlyph (h comment (by simp))).2
    have hrest := ih fun other hmem => h other (List.mem_cons_of_mem _ hmem)
    have hrow : Spelling.comments [.glyph (commentGlyph comment)] = [comment] := by
      rw [Spelling.comments, List.filterMap_cons, Atom.comment?, if_pos hcomment]
      rfl
    rw [commentRows, List.map_cons, List.flatMap_cons, hrow]
    exact congrArg (comment :: ·) hrest

/-- The comments of the rows of a statement are its own. -/
theorem comments_statement {statement : Statement}
    (h : ∀ comment ∈ statement.comments, IsComment comment)
    (haction : statement.action.spelling.IsPhrase) (isTerminated : Bool) :
    (statement.rows isTerminated).flatMap Spelling.comments = statement.comments := by
  have hnone := comments_phrase (isPhrase_terminated haction isTerminated)
  rw [Statement.rows, List.flatMap_append, comments_commentRows h]
  simp [hnone]

theorem comments_statements {statements : List Statement} (lastIsTerminated : Bool)
    (h : ∀ statement ∈ statements, ∀ isTerminated,
      (statement.rows isTerminated).flatMap Spelling.comments = statement.comments) :
    (statementRows [] lastIsTerminated statements).flatMap Spelling.comments =
      statements.flatMap Statement.comments := by
  induction statements with
  | nil => rfl
  | cons statement statements ih =>
    cases statements with
    | nil => simpa [statementRows] using h statement (by simp) lastIsTerminated
    | cons next statements =>
      have hrest := ih fun other hmem => h other (List.mem_cons_of_mem _ hmem)
      rw [statementRows, List.append_nil, List.flatMap_append, h statement (by simp) true, hrest]
      rfl

end Comments

namespace Script

variable {script : Script}

theorem isComment_of_isSound (h : (Node.script script).IsSound) :
    ∀ comment ∈ script.comments, IsComment comment := by
  intro comment hmem
  rcases List.mem_append.mp hmem with hmem | hmem
  · obtain ⟨statement, hstatement, hcomment⟩ := List.mem_flatMap.mp hmem
    have hlocal : (Node.statement statement).IsLocallySound :=
      (h.child (List.mem_map_of_mem hstatement)).here
    exact hlocal.comments comment hcomment
  · exact h.here comment hmem

theorem comments_spelling (h : (Node.script script).IsSound) :
    script.spelling.comments = script.comments := by
  have hcomments := isComment_of_isSound h
  rw [spelling, comments_lines, rows]
  simp only [ite_self, List.append_nil, List.flatMap_append]
  rw [comments_statements, comments_commentRows]
  · rfl
  · exact fun comment hmem => hcomments comment (List.mem_append_right _ hmem)
  · intro statement hstatement
    have hnode := h.child (List.mem_map_of_mem (f := Node.statement) hstatement)
    have hlocal : statement.IsLocallySound := hnode.here
    exact comments_statement hlocal.comments (Node.isLegible _ hnode)

theorem isLegible_spelling (h : (Node.script script).IsSound) : script.spelling.IsLegible :=
  isLegible_lines (Node.isLegible _ h)

/-- What is read of a layout is what the script spells. -/
theorem exists_stream (h : (Node.script script).IsSound) (style : Style) :
    ∃ stream, TokenStream.ofSource (script.render style) = .ok stream ∧
      Shows stream.tokens script.spelling.glyphs ∧
      anglesTouch stream.tokens = script.spelling.angles false true ∧
      stream.comments.map (fun comment => (comment.before, comment.token.text)) =
        script.spelling.commentsFrom 0 := by
  have hlegible := isLegible_spelling h
  have hrealizes := realizes_lex hlegible (script.expands_render style)
  have hstream := ofSource_eq_sort hlegible (script.expands_render style)
  exact ⟨_, hstream, sort_tokens hrealizes hlegible 0, anglesTouch_eq hrealizes hlegible,
    sort_comments hrealizes hlegible 0⟩

/-- The comments that a script spells are its own, and have no blanks to lose. -/
theorem comments_of_stream (h : (Node.script script).IsSound) {stream : TokenStream}
    (hcomments : stream.comments.map (fun comment => (comment.before, comment.token.text)) =
      script.spelling.commentsFrom 0) : stream.comments.map Comment.text = script.comments := by
  have htexts : stream.comments.map (fun comment => comment.token.text) = script.comments := by
    rw [← comments_spelling h, ← snd_commentsFrom _ 0, ← hcomments, List.map_map]
    rfl
  have htrimmed : ∀ comment ∈ stream.comments, comment.text = comment.token.text := by
    intro comment hmem
    have hcomment : comment.token.text ∈ script.comments := htexts ▸ List.mem_map_of_mem hmem
    exact (isComment_of_isSound h _ hcomment).2
  rw [← htexts]
  exact List.map_congr_left htrimmed

theorem tokens_eq_of_shows {tokens others : List Token} {glyphs : List Glyph} (h : Shows tokens glyphs)
    (h' : Shows others glyphs) :
    tokens.map (fun token => (token.kind, token.text)) =
      others.map fun token => (token.kind, token.text) := by
  induction h generalizing others with
  | nil =>
    cases h'
    rfl
  | cons hkind htext _ _ ih =>
    cases h' with
    | cons hkind' htext' _ h' => simp [ih h', hkind, htext, hkind', htext']

/-- Any two layouts of a script that was read have the same tokens, the same touching angle brackets and
the same comments. -/
theorem render_eq_up_to_blanks {source : String} (h : Script.ofSource source = .ok script)
    (style other : Style) :
    ∃ stream stream', TokenStream.ofSource (script.render style) = .ok stream ∧
      TokenStream.ofSource (script.render other) = .ok stream' ∧
      stream.tokens.map (fun token => (token.kind, token.text)) =
        stream'.tokens.map (fun token => (token.kind, token.text)) ∧
      anglesTouch stream.tokens = anglesTouch stream'.tokens ∧
      stream.comments.map Comment.text = stream'.comments.map Comment.text := by
  have hsound := isSound_of_ofSource h
  obtain ⟨stream, hstream, hshows, hangles, hcomments⟩ := exists_stream hsound style
  obtain ⟨stream', hstream', hshows', hangles', hcomments'⟩ := exists_stream hsound other
  exact ⟨stream, stream', hstream, hstream', tokens_eq_of_shows hshows hshows', hangles.trans hangles'.symm,
    (comments_of_stream hsound hcomments).trans (comments_of_stream hsound hcomments').symm⟩

theorem render_eq_up_to_blanks_shift :
    ∃ script, Script.ofSource "SELECT a>>1 -- half" = .ok script ∧
      ∃ stream stream', TokenStream.ofSource (script.render {}) = .ok stream ∧
        TokenStream.ofSource (script.render { page := { width := 1, indent := 3 } }) = .ok stream' ∧
        stream.tokens.map (fun token => (token.kind, token.text)) =
          stream'.tokens.map (fun token => (token.kind, token.text)) ∧
        anglesTouch stream.tokens = anglesTouch stream'.tokens ∧
        stream.comments.map Comment.text = stream'.comments.map Comment.text := by
  have hread : (Script.ofSource "SELECT a>>1 -- half").isOk := by decide +kernel
  obtain ⟨script, hscript⟩ := exists_of_isOk hread
  exact ⟨script, hscript, render_eq_up_to_blanks hscript _ _⟩

/-- The comments of a source are all in its script, each once and in their order, and in every layout of
the script. -/
theorem comments_preserved {source : String} (h : Script.ofSource source = .ok script) :
    script.comments = ((Token.lex source).filter fun token => token.kind.isComment).map
      (fun token => Text.trimEnd token.text) ∧
    ∀ style, ∃ stream, TokenStream.ofSource (script.render style) = .ok stream ∧
      stream.comments.map Comment.text = script.comments := by
  refine ⟨comments_of_ofSource h, fun style => ?_⟩
  obtain ⟨stream, hstream, -, -, hcomments⟩ := exists_stream (isSound_of_ofSource h) style
  exact ⟨stream, hstream, comments_of_stream (isSound_of_ofSource h) hcomments⟩

theorem comments_preserved_two :
    ∃ script, Script.ofSource "# one \nSELECT 1; -- two" = .ok script ∧
      script.comments = ((Token.lex "# one \nSELECT 1; -- two").filter fun token =>
        token.kind.isComment).map (fun token => Text.trimEnd token.text) ∧
      ∀ style, ∃ stream, TokenStream.ofSource (script.render style) = .ok stream ∧
        stream.comments.map Comment.text = script.comments := by
  have hread : (Script.ofSource "# one \nSELECT 1; -- two").isOk := by decide +kernel
  obtain ⟨script, hscript⟩ := exists_of_isOk hread
  exact ⟨script, hscript, comments_preserved hscript⟩

end Script

end SqlLayout
