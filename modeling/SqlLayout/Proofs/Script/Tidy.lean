import SqlLayout.Proofs.Script.Verbatim
import SqlLayout.Proofs.Token.Inside

/-!
# No Line Ends in Blanks

The blanks that a layout chooses are line breaks and then the margin of the next line, they stand between
two tokens, and no token of a script ends in a blank: comments have lost their blank tail when they are
set aside. So a blank stands right before a newline only where that newline is one that a literal, a
backquoted name or a block comment brings with it from the source.
-/

namespace SqlLayout

open Token Token.Scan

section Blanks

variable {c : Char}

theorem IsTidy.eq_newline {cs inner : List Char} (h : IsTidy cs) (hleads : inner ++ ['\n'] <+: cs) :
    ∀ c ∈ inner, c = '\n' := by
  obtain ⟨breaks, pad, rfl⟩ := h
  induction breaks generalizing inner with
  | zero =>
    have hmem : '\n' ∈ List.replicate pad ' ' := hleads.subset (by simp)
    exact absurd (List.eq_of_mem_replicate hmem) (by decide)
  | succ breaks ih =>
    cases inner with
    | nil => simp
    | cons d inner =>
      obtain ⟨rfl, hrest⟩ := List.cons_prefix_cons.mp hleads
      exact List.forall_mem_cons.mpr ⟨rfl, ih hrest⟩

theorem Text.isBlank_of_isGap (h : isGap c) : Text.isBlank c := by
  simp only [isGap, Bool.or_eq_true, beq_iff_eq] at h
  rcases h with (((rfl | rfl) | rfl) | rfl) | rfl <;> decide

/-- What has no blank tail to lose does not end in a blank. -/
theorem Text.isBlank_of_getLast? {text : String} (h : Text.trimEnd text = text)
    (hlast : text.toList.getLast? = some c) : Text.isBlank c = false := by
  have htext : (text.toList.reverse.dropWhile Text.isBlank).reverse = text.toList := by
    rw [← String.toList_inj, Text.trimEnd, String.toList_ofList] at h
    exact h
  by_contra hblank
  have hreverse : text.toList.reverse.head? = some c := by rwa [List.head?_reverse]
  rw [← List.reverse_inj, List.reverse_reverse] at htext
  cases hcase : text.toList.reverse with
  | nil => simp [hcase] at hreverse
  | cons d ds =>
    rw [hcase] at hreverse htext
    cases hreverse
    rw [List.dropWhile_cons_of_pos (by simpa using hblank)] at htext
    have hlength := (List.dropWhile_sublist Text.isBlank (l := ds)).length_le
    rw [htext, List.length_cons] at hlength
    omega

end Blanks

namespace Script

variable {source : String} {script : Script} {token : Token}

section Tokens

theorem realizes_lex_render (h : (Node.script script).IsSound) (style : Style) :
    Realizes 0 script.spelling (lex (script.render style)) :=
  realizes_lex (isLegible_spelling h) (script.expands_render style)

theorem text_mem_comments {glyph : Glyph} (hsound : (Node.script script).IsSound)
    (h : .glyph glyph ∈ script.spelling) (hkind : glyph.kind.isComment) : glyph.text ∈ script.comments := by
  rw [← comments_spelling hsound]
  exact List.mem_filterMap.mpr ⟨_, h, if_pos hkind⟩

/-- No token of a layout ends in a blank. -/
theorem isGap_of_getLast?_of_mem_lex (h : (Node.script script).IsSound) {style : Style}
    (hmem : token ∈ lex (script.render style)) (hkind : token.kind ≠ .whitespace) {c : Char}
    (hlast : token.text.toList.getLast? = some c) : isGap c = false := by
  rcases (realizes_lex_render h style).mem_cases hmem with ⟨glyph, hglyph, hsame, htext⟩ | ⟨hblank, -⟩
  · rw [← htext] at hlast
    by_cases hline : glyph.kind = .lineComment
    · have hcomment := text_mem_comments h hglyph (by rw [hline]; rfl)
      have htrimmed := (isComment_of_isSound h _ hcomment).2
      by_contra hgap
      have hblank := Text.isBlank_of_isGap (by simpa using hgap)
      rw [Text.isBlank_of_getLast? htrimmed hlast] at hblank
      cases hblank
    · exact Glyph.isGap_of_getLast? ((isLegible_spelling h).genuine glyph hglyph) hline hlast
  · exact absurd hblank hkind

/-- The literals and the backquoted names of a layout are tokens of the source. -/
theorem exists_quoted_of_mem_lex (h : Script.ofSource source = .ok script) {style : Style}
    (hmem : token ∈ lex (script.render style)) (hkind : token.kind = .string ∨ token.kind = .quotedIdent) :
    ∃ original ∈ lex source, original.kind = token.kind ∧ original.text = token.text := by
  have hgenuine {cs : String} {other : Token} (hother : other ∈ lex cs) (hdata : other.kind.isVerbatim) :
      other.glyph.IsGenuine := by
    apply isGenuine_of_mem_lex hother <;> intro heq <;> rw [heq] at hdata <;> cases hdata
  have hdata : token.kind.isVerbatim := by
    rcases hkind with hkind | hkind <;> rw [hkind] <;> rfl
  have hprinted : token.text ∈
      ((lex (script.render style)).filter fun token => token.kind.isVerbatim).map Token.text :=
    List.mem_map_of_mem (List.mem_filter.mpr ⟨hmem, hdata⟩)
  have hstored := (printed_render h style).mem_of_quoted (hgenuine hmem hdata) hkind hprinted
  rw [verbatims_eq_filter h] at hstored
  obtain ⟨original, horiginal, htext⟩ := List.mem_map.mp hstored
  obtain ⟨horiginal, hother⟩ := List.mem_filter.mp horiginal
  exact ⟨original, horiginal,
    Glyph.kind_eq_of_text_eq (hgenuine horiginal hother) (hgenuine hmem hdata) htext, htext⟩

/-- The block comments of a layout are tokens of the source. -/
theorem exists_blockComment_of_mem_lex (h : Script.ofSource source = .ok script) {style : Style}
    (hmem : token ∈ lex (script.render style)) (hkind : token.kind = .blockComment) :
    ∃ original ∈ lex source, original.kind = token.kind ∧ original.text = token.text := by
  have hsound := isSound_of_ofSource h
  rcases (realizes_lex_render hsound style).mem_cases hmem with ⟨glyph, hglyph, hsame, htext⟩ | ⟨hblank, -⟩
  · have hcomment := text_mem_comments hsound hglyph (by rw [hsame, hkind]; rfl)
    have hblock := (isLegible_spelling hsound).genuine glyph hglyph
    unfold Glyph.IsGenuine at hblock
    simp only [hsame, hkind, htext] at hblock
    rw [comments_of_ofSource h, htext] at hcomment
    obtain ⟨original, horiginal, htrimmed⟩ := List.mem_map.mp hcomment
    obtain ⟨horiginal, hisComment⟩ := List.mem_filter.mp horiginal
    have hother : original.glyph.IsGenuine := by
      apply isGenuine_of_mem_lex horiginal <;> intro heq <;> rw [heq] at hisComment <;> cases hisComment
    unfold Glyph.IsGenuine Token.glyph at hother
    cases hform : original.kind with
    | blockComment =>
      simp only [hform] at hother
      rw [hother.trimEnd] at htrimmed
      exact ⟨original, horiginal, hform.trans hkind.symm, htrimmed⟩
    | lineComment =>
      -- What is left of a comment up to the end of its line does not start like a block comment.
      simp only [hform] at hother
      obtain ⟨opener, body, hopened, hopener, -⟩ := hother.trimEnd
      obtain ⟨inner, hslash, -⟩ := hblock
      rw [htrimmed, hslash] at hopened
      rcases hopener with rfl | rfl <;> simp at hopened
    | _ => simp [Kind.isComment, hform] at hisComment
  · rw [hkind] at hblank
    cases hblank

theorem exists_original_of_mem_lex (h : Script.ofSource source = .ok script) {style : Style}
    (hmem : token ∈ lex (script.render style))
    (hkind : token.kind ∈ [Kind.string, .quotedIdent, .blockComment]) :
    ∃ original ∈ lex source, original.kind = token.kind ∧ original.text = token.text := by
  simp only [List.mem_cons, List.not_mem_nil, or_false, ← or_assoc] at hkind
  exact hkind.elim (exists_quoted_of_mem_lex h hmem) (exists_blockComment_of_mem_lex h hmem)

end Tokens

section Blanks

/-- Before a newline that the layout chooses no token ends in a blank. -/
theorem isGap_of_stands_whitespace (h : (Node.script script).IsSound) {style : Style}
    {before : List Char} {c : Char} {earlier : List Token} {inner : List Char}
    (hstands : Stands (lex (script.render style)) (before ++ [c]) '\n' 0 token earlier inner)
    (hblank : token.kind = .whitespace) (hc : c ≠ '\n') : isGap c = false := by
  have hrealizes := realizes_lex_render h style
  rcases hrealizes.mem_cases hstands.mem with ⟨glyph, hglyph, hsame, -⟩ | ⟨-, htidy⟩
  · have hgenuine := (isLegible_spelling h).genuine glyph hglyph
    exact absurd (hsame.trans hblank) (Glyph.kind_of_isGenuine hgenuine).2
  · -- Before a newline of the blanks there are only newlines, so the character is of the token before.
    have hinner : inner = [] := by
      rcases List.eq_nil_or_concat inner with hnil | ⟨others, d, rfl⟩
      · exact hnil
      · have hd := htidy.eq_newline hstands.within d (by simp)
        have hlast := congrArg List.getLast? hstands.before_eq
        simp [hd] at hlast
        exact absurd hlast hc
    subst hinner
    have hne := fun token hmem => ((tiles_lex (script.render style)).exists_split token hmem).1
    obtain ⟨others, last, -, hpair, hlast⟩ := hstands.exists_previous hne
    have hmem : last ∈ lex (script.render style) := hpair.subset List.mem_cons_self
    obtain ⟨front, back, hsplit⟩ := hpair
    have hchain := hrealizes.isChain_blanks (isLegible_spelling h)
    rw [← hsplit, List.isChain_append, List.isChain_append] at hchain
    have hkind : last.kind ≠ .whitespace := fun hspace =>
      (List.isChain_cons_cons.mp hchain.1.2.1).1 ⟨hspace, hblank⟩
    exact isGap_of_getLast?_of_mem_lex h hmem hkind hlast

/-- A layout ends where its last token does. -/
theorem isGap_of_getLast?_render (h : (Node.script script).IsSound) {style : Style} {c : Char}
    (hlast : (script.render style).toList.getLast? = some c) : isGap c = false := by
  have hrealizes := realizes_lex_render h style
  have htiles := tiles_lex (script.render style)
  have htokens : ∃ init last, lex (script.render style) = init ++ [last] := by
    rcases List.eq_nil_or_concat (lex (script.render style)) with hnil | ⟨init, last, htokens⟩
    · rw [← htiles.flatMap_text, hnil] at hlast
      cases hlast
    · exact ⟨init, last, htokens.trans List.concat_eq_append⟩
  obtain ⟨init, last, htokens⟩ := htokens
  have hmem : last ∈ lex (script.render style) := by simp [htokens]
  have hne : last.text.toList ≠ [] := by simpa using (htiles.exists_split last hmem).1
  have hrows : script.rows [] ≠ [] := by
    intro hnone
    have hspelling : script.spelling = [] := by simp [spelling, lines, hnone]
    rw [hspelling, htokens] at hrealizes
    cases init <;> cases hrealizes
  obtain ⟨glyph, hglyph, -⟩ := (isRow_lines hrows (Node.isLegible _ h)).last
  obtain ⟨found, hfound, hkind, -⟩ := hrealizes.exists_getLast? hglyph
  have hgenuine := (isLegible_spelling h).genuine glyph (List.mem_of_getLast? hglyph)
  rw [htokens, List.getLast?_concat] at hfound
  obtain rfl := Option.some.inj hfound
  rw [← htiles.flatMap_text, htokens, List.flatMap_append, List.flatMap_singleton,
    List.getLast?_append_of_ne_nil _ hne] at hlast
  exact isGap_of_getLast?_of_mem_lex h hmem (hkind ▸ (Glyph.kind_of_isGenuine hgenuine).2) hlast

end Blanks

/-- No layout has a space or a tab right before a newline, unless that newline is inside a literal, a
backquoted name or a block comment of the source; and none ends in a space or a tab. -/
theorem render_isTidy (h : Script.ofSource source = .ok script) (style : Style) :
    ∀ blank ∈ [" ", "\t"],
      (∀ before after : String, script.render style = before ++ blank ++ "\n" ++ after →
        ∃ token ∈ lex (script.render style), token.Contains (before ++ blank).utf8ByteSize ∧
          token.kind ∈ [.string, .quotedIdent, .blockComment] ∧
          ∃ original ∈ lex source, original.kind = token.kind ∧ original.text = token.text) ∧
      ∀ before : String, script.render style ≠ before ++ blank := by
  intro blank hblank
  have hsound := isSound_of_ofSource h
  obtain ⟨c, hc, hgap, hline⟩ : ∃ c, blank.toList = [c] ∧ isGap c ∧ c ≠ '\n' := by
    simp only [List.mem_cons, List.not_mem_nil, or_false] at hblank
    rcases hblank with rfl | rfl
    · exact ⟨' ', by decide⟩
    · exact ⟨'\t', by decide⟩
  constructor
  · intro before after hsplit
    have hcs : (script.render style).toList = (before.toList ++ [c]) ++ '\n' :: after.toList := by
      rw [hsplit]
      simp [hc]
    have htext : String.ofList (before.toList ++ [c]) = before ++ blank := by
      rw [← String.toList_inj]
      simp [hc]
    obtain ⟨token, earlier, inner, hstands⟩ := (tiles_lex (script.render style)).exists_stands hcs
    have hcontains := hstands.contains
    rw [Nat.zero_add, htext] at hcontains
    have hkind : token.kind ∈ [Kind.string, .quotedIdent, .blockComment] := by
      rcases (realizes_lex_render hsound style).mem_cases hstands.mem with
        ⟨glyph, hglyph, hsame, htext⟩ | ⟨hspace, -⟩
      · have hgenuine := (isLegible_spelling hsound).genuine glyph hglyph
        exact hsame ▸ Glyph.kind_mem_of_newline_mem hgenuine (htext ▸ hstands.char_mem)
      · rw [isGap_of_stands_whitespace hsound hstands hspace hline] at hgap
        cases hgap
    exact ⟨token, hstands.mem, hcontains, hkind, exists_original_of_mem_lex h hstands.mem hkind⟩
  · intro before hend
    have hlast : (script.render style).toList.getLast? = some c := by
      rw [hend]
      simp [hc]
    rw [isGap_of_getLast?_render hsound hlast] at hgap
    cases hgap

/-- A comment loses its blanks, and a literal keeps them. -/
theorem render_isTidy_literal :
    ∃ script, Script.ofSource "-- all \nSELECT \x27\x27\x27a \nb\x27\x27\x27" = .ok script ∧
      script.render {} = "-- all\nSELECT \x27\x27\x27a" ++ " " ++ "\n" ++ "b\x27\x27\x27" ∧
      (∃ token ∈ lex (script.render {}),
        token.Contains ("-- all\nSELECT \x27\x27\x27a" ++ " ").utf8ByteSize ∧
          token.kind ∈ [.string, .quotedIdent, .blockComment] ∧
          ∃ original ∈ lex "-- all \nSELECT \x27\x27\x27a \nb\x27\x27\x27",
            original.kind = token.kind ∧ original.text = token.text) ∧
      ∀ before : String, script.render {} ≠ before ++ " " := by
  have hread : (Script.ofSource "-- all \nSELECT \x27\x27\x27a \nb\x27\x27\x27").isOk := by decide +kernel
  have htext : (Script.ofSource "-- all \nSELECT \x27\x27\x27a \nb\x27\x27\x27").toOption.map
      (Script.render {}) = some "-- all\nSELECT \x27\x27\x27a \nb\x27\x27\x27" := by decide +kernel
  obtain ⟨script, hscript⟩ := exists_of_isOk hread
  rw [hscript] at htext
  have hsplit : script.render {} =
      "-- all\nSELECT \x27\x27\x27a" ++ " " ++ "\n" ++ "b\x27\x27\x27" := by
    rw [Option.some.inj htext]
    decide
  have htidy := render_isTidy hscript {} " " List.mem_cons_self
  exact ⟨script, hscript, hsplit, htidy.1 _ _ hsplit, htidy.2⟩

end Script

end SqlLayout
