import SqlLayout.Proofs.Token.Literal
import SqlLayout.Proofs.Token.Stream
import SqlLayout.Proofs.Token.Tiling

/-!
# Characters Inside Tokens

The tokens of a text take all of it, so every character stands inside one of them. A newline stands
inside blanks, a literal, a backquoted name or a block comment; and no token that says something ends in
a blank, but for a comment up to the end of its line.
-/

namespace SqlLayout

open Token Token.Scan

namespace Token

/-- The character at a byte offset is one of the token. -/
def Contains (token : Token) (offset : Nat) : Prop :=
  token.start ≤ offset ∧ offset < token.stop

variable {tokens : List Token} {cs before after : List Char} {c : Char} {start : Nat}

/-- A character of some tokens that take the characters one after the other: the tokens before it, its
own one, and where in that one it stands. -/
structure Stands (tokens : List Token) (before : List Char) (c : Char) (start : Nat) (token : Token)
    (earlier : List Token) (inner : List Char) : Prop where
  leads : earlier ++ [token] <+: tokens
  before_eq : before = (earlier.flatMap fun token => token.text.toList) ++ inner
  within : inner ++ [c] <+: token.text.toList
  contains : token.Contains (start + (String.ofList before).utf8ByteSize)

theorem Stands.mem {token : Token} {earlier : List Token} {inner : List Char}
    (h : Stands tokens before c start token earlier inner) : token ∈ tokens :=
  h.leads.subset (by simp)

theorem Stands.char_mem {token : Token} {earlier : List Token} {inner : List Char}
    (h : Stands tokens before c start token earlier inner) : c ∈ token.text.toList :=
  h.within.subset (by simp)

/-- Where a token starts, the token before it ends. -/
theorem Stands.exists_previous {token : Token} {earlier : List Token} {d : Char}
    (h : Stands tokens (before ++ [d]) c start token earlier []) (hne : ∀ token ∈ tokens, token.text ≠ "") :
    ∃ others last, earlier = others ++ [last] ∧ [last, token] <:+: tokens ∧
      last.text.toList.getLast? = some d := by
  obtain ⟨rest, hrest⟩ := h.leads
  have hbefore := h.before_eq
  rw [List.append_nil] at hbefore
  rcases List.eq_nil_or_concat earlier with rfl | ⟨others, last, rfl⟩
  · simp at hbefore
  · have hpair : [last, token] <:+: tokens := ⟨others, rest, by simpa using hrest⟩
    refine ⟨others, last, List.concat_eq_append, hpair, ?_⟩
    have hlast : last.text.toList ≠ [] := by simpa using hne last (hpair.subset List.mem_cons_self)
    have hsame := congrArg List.getLast? hbefore
    rw [List.concat_eq_append, List.flatMap_append, List.flatMap_singleton,
      List.getLast?_append_of_ne_nil _ hlast, List.getLast?_concat] at hsame
    exact hsame.symm

/-- Every character stands inside a token. -/
theorem Tiles.exists_stands (h : Tiles start cs tokens) (hcs : cs = before ++ c :: after) :
    ∃ token earlier inner, Stands tokens before c start token earlier inner := by
  induction h generalizing before with
  | nil => simp at hcs
  | @cons token cs tokens hne h ih =>
    have hcases : (∃ inner, before = token.text.toList ++ inner ∧ cs = inner ++ c :: after) ∨
        ∃ rest, token.text.toList = before ++ c :: rest := by
      rcases List.append_eq_append_iff.mp hcs with ⟨inner, hbefore, hrest⟩ | ⟨rest, htext, hrest⟩
      · exact .inl ⟨inner, hbefore, hrest⟩
      · cases rest with
        | nil => exact .inl ⟨[], by simpa using htext.symm, hrest.symm⟩
        | cons d rest =>
          obtain ⟨rfl, -⟩ := List.cons.inj hrest
          exact .inr ⟨rest, htext⟩
    rcases hcases with ⟨inner, rfl, hrest⟩ | ⟨rest, htext⟩
    · obtain ⟨found, earlier, inner, hfound⟩ := ih hrest
      refine ⟨found, token :: earlier, inner, ?_, ?_, hfound.within, ?_⟩
      · exact List.cons_prefix_cons.mpr ⟨rfl, hfound.leads⟩
      · rw [hfound.before_eq, List.flatMap_cons, List.append_assoc]
      · have hcontains := hfound.contains
        rw [stop, Nat.add_assoc] at hcontains
        rwa [String.ofList_append, String.utf8ByteSize_append, String.ofList_toList]
    · refine ⟨token, [], before, by simp, by simp, by simp [htext], Nat.le_add_right _ _, ?_⟩
      have hbytes : token.text = String.ofList before ++ (String.singleton c ++ String.ofList rest) := by
        rw [← String.toList_inj]
        simp [htext]
      have hpos := c.utf8Size_pos
      rw [stop, hbytes, String.utf8ByteSize_append, String.utf8ByteSize_append,
        String.utf8ByteSize_singleton]
      omega

end Token

section Gaps

variable {c : Char} {cs text : List Char}

theorem Glyph.mem_neutral_of_isGap (h : isGap c) : c ∈ Glyph.neutral := by
  simp only [isGap, Bool.or_eq_true, beq_iff_eq] at h
  rcases h with (((rfl | rfl) | rfl) | rfl) | rfl <;> decide

theorem Token.Scan.IsWord.isGap_eq_false (h : IsWord text) (hc : c ∈ text) : isGap c = false := by
  have hneutral : ∀ c ∈ Glyph.neutral, Scan.isWordRest c = false := by decide
  by_contra hgap
  have hrest := hneutral c (Glyph.mem_neutral_of_isGap (by simpa using hgap))
  rw [IsWord.isWordRest h hc] at hrest
  cases hrest

/-- A number ends before a gap, so none is inside it. -/
theorem Token.Scan.IsNumber.isGap_eq_false (h : IsNumber text) (hc : c ∈ text) : isGap c = false := by
  have hneutral : ∀ c ∈ Glyph.neutral, endsNumber c := by decide
  by_contra hgap
  have hends := hneutral c (Glyph.mem_neutral_of_isGap (by simpa using hgap))
  obtain ⟨before, after, rfl⟩ := List.append_of_mem hc
  cases before with
  | nil =>
    obtain ⟨d, ds, heq, hd⟩ := Glyph.exists_cons_of_isNumber h
    obtain ⟨rfl, -⟩ := List.cons.inj heq
    rcases hd with hdigit | rfl
    · rw [endsNumber_isDigit hends] at hdigit
      cases hdigit
    · exact absurd hends (by decide)
  | cons d before =>
    have hnumber : number (d :: before ++ c :: after) = number (d :: before) :=
      number_append (by simp) (by simpa using hends)
    have hle := number_le_length (d :: before)
    have hlength : (d :: before ++ c :: after).length = (d :: before).length + (c :: after).length :=
      List.length_append
    rw [h.1, List.length_append, List.length_cons (a := c)] at hnumber
    omega

theorem Token.Scan.IsQuotedName.getLast? (h : IsQuotedName text) : text.getLast? = some backquote := by
  obtain ⟨body, rfl, hbody⟩ := h
  simp [List.getLast?_cons, getLast?_of_quoted hbody]

theorem Token.Scan.IsLiteral.exists_getLast? (h : IsLiteral text) :
    ∃ quote, text.getLast? = some quote ∧ isQuote quote := by
  obtain ⟨literal, rfl⟩ := exists_literal_of_isLiteral h
  refine ⟨literal.delimiter.quote, ?_, literal.delimiter.isQuote_quote⟩
  unfold Literal.chars Delimiter.around Delimiter.chars
  split <;> simp [List.getLast?_append, List.getLast?_cons]

theorem Token.Scan.IsBlockComment.getLast? (h : IsBlockComment text) : text.getLast? = some '/' := by
  obtain ⟨body, rfl, hbody⟩ := h
  simp [List.getLast?_cons, getLast?_of_blockEnd? hbody]

end Gaps

namespace Glyph

variable {glyph : Glyph} {c : Char}

/-- Words, numbers, symbols and comments up to the end of their line stand on one line. -/
theorem kind_mem_of_newline_mem (h : glyph.IsGenuine) (hmem : '\n' ∈ glyph.text.toList) :
    glyph.kind ∈ [Kind.string, .quotedIdent, .blockComment] := by
  obtain ⟨kind, text, tied⟩ := glyph
  unfold IsGenuine at h
  dsimp only at h hmem ⊢
  split at h
  · exact absurd (h.isGap_eq_false hmem) (by decide)
  · exact List.mem_of_elem_eq_true rfl
  · exact List.mem_of_elem_eq_true rfl
  · exact absurd (h.isGap_eq_false hmem) (by decide)
  · obtain ⟨opener, body, htext, hopener, hbody⟩ := h
    rw [htext] at hmem
    rcases List.mem_append.mp hmem with hmem | hmem
    · rcases hopener with rfl | rfl <;> exact absurd hmem (by decide)
    · exact absurd rfl (hbody _ hmem)
  · exact List.mem_of_elem_eq_true rfl
  · have hnone : ∀ symbol ∈ Kind.symbols, '\n' ∉ symbol.2.toList := by decide
    exact absurd hmem (hnone _ h)

/-- No token ends in a blank unless it takes in everything up to the end of its line. -/
theorem isGap_of_getLast? (h : glyph.IsGenuine) (hkind : glyph.kind ≠ .lineComment)
    (hlast : glyph.text.toList.getLast? = some c) : isGap c = false := by
  have hmem := List.mem_of_getLast? hlast
  obtain ⟨kind, text, tied⟩ := glyph
  unfold IsGenuine at h
  dsimp only at h hmem hkind hlast ⊢
  split at h
  · exact h.isGap_eq_false hmem
  · rw [h.getLast?] at hlast
    cases hlast
    rfl
  · obtain ⟨quote, hquote, hisQuote⟩ := h.exists_getLast?
    rw [hquote] at hlast
    cases hlast
    simp only [isQuote, Bool.or_eq_true, beq_iff_eq] at hisQuote
    rcases hisQuote with rfl | rfl <;> rfl
  · exact h.isGap_eq_false hmem
  · exact absurd rfl hkind
  · rw [h.getLast?] at hlast
    cases hlast
    rfl
  · have hnone : ∀ symbol ∈ Kind.symbols, ∀ c ∈ symbol.2.toList, isGap c = false := by decide
    exact hnone _ h c hmem

/-- Two tokens with one text are of one kind. -/
theorem kind_eq_of_text_eq {other : Glyph} (h : glyph.IsGenuine) (h' : other.IsGenuine)
    (htext : glyph.text = other.text) : glyph.kind = other.kind := by
  have hempty : ∀ c ∈ ([] : List Char).head?, glyph.endsBefore c := by simp
  have hempty' : ∀ c ∈ ([] : List Char).head?, other.endsBefore c := by simp
  have hnext := next_of_endsBefore h hempty
  have hother := next_of_endsBefore h' hempty'
  rw [htext, hother] at hnext
  exact (Lexeme.mk.inj hnext).1.symm

end Glyph

section Texts

variable {spelling : Spelling} {tokens : List Token} {start : Nat}

/-- All newlines of an expansion that its glyphs do not have are those of the blanks. -/
theorem Realizes.count_newlines (h : Realizes start spelling tokens) (hlegible : spelling.IsLegible)
    (hflat : Atom.line ∉ spelling) :
    spelling.plain.count '\n' +
        ((tokens.filter (·.kind = .whitespace)).flatMap fun token => token.text.toList).count '\n' =
      (tokens.flatMap fun token => token.text.toList).count '\n' := by
  induction h with
  | nil => rfl
  | @glyph start glyph spelling tokens h ih =>
    have hkind := (Glyph.kind_of_isGenuine (hlegible.genuine glyph (by simp))).2
    have hrest := ih hlegible.tail fun hmem => hflat (List.mem_cons_of_mem _ hmem)
    rw [List.filter_cons_of_neg (by simpa using hkind), Spelling.plain, List.flatMap_cons,
      List.count_append, List.count_append, Nat.add_assoc, hrest]
  | @blank start atom hatom text htext htidy spelling tokens h ih =>
    have hrest := ih hlegible.tail fun hmem => hflat (List.mem_cons_of_mem _ hmem)
    have hplain : (Spelling.plain (atom :: spelling)).count '\n' = spelling.plain.count '\n' := by
      cases atom with
      | glyph glyph => exact absurd rfl (hatom glyph)
      | gap => exact List.count_cons_of_ne (by decide)
      | soft side => rfl
      | line => exact absurd List.mem_cons_self hflat
    rw [List.filter_cons_of_pos (by simp), List.flatMap_cons, List.flatMap_cons, List.count_append,
      List.count_append, hplain, ← hrest]
    omega
  | soft side h ih => exact ih hlegible.tail fun hmem => hflat (List.mem_cons_of_mem _ hmem)

/-- The blanks between the tokens of a text with single blanks hold no newline. -/
theorem Realizes.newline_notMem_of_plain (h : Realizes start spelling tokens) (hlegible : spelling.IsLegible)
    (hflat : Atom.line ∉ spelling) (hplain : (tokens.flatMap fun token => token.text.toList) = spelling.plain)
    {token : Token} (htoken : token ∈ tokens) (hkind : token.kind = .whitespace) :
    '\n' ∉ token.text.toList := by
  intro hmem
  have hcount := h.count_newlines hlegible hflat
  rw [hplain] at hcount
  have hnone : '\n' ∉ (tokens.filter (·.kind = .whitespace)).flatMap fun token => token.text.toList :=
    List.count_eq_zero.mp (by omega)
  exact hnone (List.mem_flatMap.mpr ⟨token, List.mem_filter.mpr ⟨htoken, by simpa using hkind⟩, hmem⟩)

/-- A token of a text that expands a spelling is a glyph of the spelling or blanks. -/
theorem Realizes.mem_cases (h : Realizes start spelling tokens) {token : Token} (htoken : token ∈ tokens) :
    (∃ glyph, .glyph glyph ∈ spelling ∧ glyph.kind = token.kind ∧ glyph.text = token.text) ∨
      token.kind = .whitespace ∧ IsTidy token.text.toList := by
  induction h with
  | nil => cases htoken
  | @glyph start glyph spelling tokens h ih =>
    rcases List.mem_cons.mp htoken with rfl | htoken
    · exact .inl ⟨glyph, List.mem_cons_self, rfl, rfl⟩
    · rcases ih htoken with ⟨other, hmem, hsame⟩ | hblank
      · exact .inl ⟨other, List.mem_cons_of_mem _ hmem, hsame⟩
      · exact .inr hblank
  | blank hatom htext htidy h ih =>
    rcases List.mem_cons.mp htoken with rfl | htoken
    · exact .inr ⟨rfl, htidy⟩
    · rcases ih htoken with ⟨other, hmem, hsame⟩ | hblank
      · exact .inl ⟨other, List.mem_cons_of_mem _ hmem, hsame⟩
      · exact .inr hblank
  | soft side h ih =>
    rcases ih htoken with ⟨other, hmem, hsame⟩ | hblank
    · exact .inl ⟨other, List.mem_cons_of_mem _ hmem, hsame⟩
    · exact .inr hblank

/-- Blanks are never next to blanks. -/
theorem Realizes.isChain_blanks (h : Realizes start spelling tokens) (hlegible : spelling.IsLegible) :
    tokens.IsChain fun token next => ¬(token.kind = .whitespace ∧ next.kind = .whitespace) := by
  have hglyph {glyph : Glyph} (hgenuine : glyph.IsGenuine) : glyph.kind ≠ .whitespace :=
    (Glyph.kind_of_isGenuine hgenuine).2
  induction h with
  | nil => exact .nil
  | @glyph start glyph spelling tokens h ih =>
    have hkind := hglyph (hlegible.genuine glyph (by simp))
    exact List.isChain_cons.mpr ⟨fun next _ hboth => hkind hboth.1, ih hlegible.tail⟩
  | @blank start atom hatom text htext htidy spelling tokens h ih =>
    refine List.isChain_cons.mpr ⟨fun next hnext hboth => ?_, ih hlegible.tail⟩
    cases h with
    | nil => cases hnext
    | glyph glyph h =>
      cases hnext
      exact hglyph (hlegible.genuine glyph (by simp)) hboth.2
    | blank hother _ _ _ =>
      exact Atom.not_joins hatom hother (List.isChain_cons_cons.mp hlegible.joins).1
    | soft side h =>
      exact Atom.not_joins hatom (by simp) (List.isChain_cons_cons.mp hlegible.joins).1
  | soft side h ih => exact ih hlegible.tail

/-- A spelling that ends with a glyph has it as its last token. -/
theorem Realizes.exists_getLast? (h : Realizes start spelling tokens) {glyph : Glyph}
    (hlast : spelling.getLast? = some (.glyph glyph)) :
    ∃ last, tokens.getLast? = some last ∧ last.kind = glyph.kind ∧ last.text = glyph.text := by
  have hcons {atom : Atom} {rest : Spelling} (hne : rest ≠ [])
      (hlast : (atom :: rest).getLast? = some (.glyph glyph)) : rest.getLast? = some (.glyph glyph) := by
    rwa [List.getLast?_cons_of_ne_nil hne] at hlast
  induction h with
  | nil => cases hlast
  | @glyph start first spelling tokens h ih =>
    by_cases hne : spelling = []
    · subst hne
      cases hlast
      cases h
      exact ⟨_, rfl, rfl, rfl⟩
    · obtain ⟨last, htokens, hsame⟩ := ih (hcons hne hlast)
      exact ⟨last, by simp [List.getLast?_cons, htokens], hsame⟩
  | @blank start atom hatom text htext htidy spelling tokens h ih =>
    by_cases hne : spelling = []
    · subst hne
      exact absurd (Option.some.inj hlast) (hatom glyph)
    · obtain ⟨last, htokens, hsame⟩ := ih (hcons hne hlast)
      exact ⟨last, by simp [List.getLast?_cons, htokens], hsame⟩
  | @soft start side spelling tokens h ih =>
    by_cases hne : spelling = []
    · subst hne
      cases hlast
    · exact ih (hcons hne hlast)

end Texts

end SqlLayout
