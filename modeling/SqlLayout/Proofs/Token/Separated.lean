import SqlLayout.Proofs.Token.Stream

/-!
# Tokens Between Blanks

A token that is cut out of one source and put into another one is read there as the same token, provided
that blanks stand on both sides of it. Every blank ends every token that is no comment, and no token
starts with a blank, so nothing that was read can go on past the blanks or begin inside of them.
-/

namespace SqlLayout

open Token Token.Scan

/-- What a token is, wherever it stands. -/
def Token.piece (token : Token) : Kind × String :=
  (token.kind, token.text)

/-- Some source has a token of this kind and text, and the token carries meaning. -/
def IsPiece (piece : Kind × String) : Prop :=
  piece.1.isTrivia = false ∧ piece.1 ≠ .garbage ∧ ∃ source, ∃ token ∈ lex source, token.piece = piece

/-- The characters between tokens: some blanks of any kind. -/
def IsGapText (gap : String) : Prop :=
  gap ≠ "" ∧ ∀ c ∈ gap.toList, isGap c

/-- A source of some pieces with blanks between each two of them. -/
inductive Separates : List (Kind × String) → String → Prop
  | nil : Separates [] ""
  | single (piece : Kind × String) : Separates [piece] piece.2
  | cons (piece : Kind × String) {gap : String} (hgap : IsGapText gap) {next : Kind × String}
    {pieces : List (Kind × String)} {source : String} (h : Separates (next :: pieces) source) :
    Separates (piece :: next :: pieces) (piece.2 ++ gap ++ source)

section Pieces

variable {piece : Kind × String} {c : Char}

theorem IsPiece.isGenuine (h : IsPiece piece) : Glyph.IsGenuine { kind := piece.1, text := piece.2 } := by
  obtain ⟨htrivia, hgarbage, source, token, hmem, rfl⟩ := h
  refine isGenuine_of_mem_lex hmem hgarbage ?_
  intro hblank
  rw [piece, hblank] at htrivia
  cases htrivia

theorem IsPiece.isComment_eq_false (h : IsPiece piece) : piece.1.isComment = false := by
  cases hcomment : piece.1.isComment with
  | false => rfl
  | true => exact absurd (Kind.isTrivia_of_isComment piece.1 hcomment) (by simp [h.1])

theorem IsPiece.ne_nil (h : IsPiece piece) : piece.2.toList ≠ [] := by
  obtain ⟨c, cs, htext, -⟩ := Glyph.exists_cons_of_isGenuine h.isGenuine
  rw [htext]
  exact List.cons_ne_nil c cs

theorem mem_neutral_of_isGap (h : isGap c) : c ∈ Glyph.neutral := by
  simp only [isGap, Bool.or_eq_true, beq_iff_eq] at h
  rcases h with (((rfl | rfl) | rfl) | rfl) | rfl <;> decide

/-- A piece ends where blanks start, or where nothing is left. -/
theorem IsPiece.next_eq (h : IsPiece piece) {rest : List Char} (hrest : ∀ c ∈ rest.head?, isGap c) :
    Scan.next (piece.2.toList ++ rest) = ⟨piece.1, piece.2.toList.length⟩ := by
  have hcomment : piece.1 ≠ .lineComment := by
    intro hline
    have hnone := h.isComment_eq_false
    rw [hline] at hnone
    cases hnone
  apply Glyph.next_of_endsBefore h.isGenuine
  intro c hc
  apply Glyph.endsBefore_of_mem_neutral h.isGenuine hcomment
  exact mem_neutral_of_isGap (hrest c hc)

end Pieces

/-- Tokens that are sorted into a stream of some pieces without comments. -/
structure Yields (tokens : List Token) (pieces : List (Kind × String)) : Prop where
  kind_ne_garbage : ∀ token ∈ tokens, token.kind ≠ .garbage
  sort_tokens : ∀ count, (TokenStream.sort count tokens).tokens.map Token.piece = pieces
  sort_comments : ∀ count, (TokenStream.sort count tokens).comments = []

section Scanning

variable {tokens : List Token} {piece : Kind × String} {pieces : List (Kind × String)}
  {source : String} {steps start : Nat}

theorem Yields.nil : Yields [] [] :=
  ⟨by simp, fun _ => rfl, fun _ => rfl⟩

theorem Yields.cons_piece (hpiece : IsPiece piece) (h : Yields tokens pieces) :
    Yields (⟨piece.1, piece.2, start⟩ :: tokens) (piece :: pieces) := by
  have hblank := (Glyph.kind_of_isGenuine hpiece.isGenuine).2
  have hsort := @sort_glyph tokens ⟨piece.1, piece.2, start⟩ hpiece.isComment_eq_false hblank
  refine ⟨List.forall_mem_cons.mpr ⟨hpiece.2.1, h.kind_ne_garbage⟩, ?_, ?_⟩
  · intro count
    rw [hsort, List.map_cons, h.sort_tokens]
    rfl
  · intro count
    rw [hsort]
    exact h.sort_comments (count + 1)

theorem Yields.cons_blank (text : String) (h : Yields tokens pieces) :
    Yields (⟨.whitespace, text, start⟩ :: tokens) pieces :=
  ⟨List.forall_mem_cons.mpr ⟨by simp, h.kind_ne_garbage⟩, h.sort_tokens, h.sort_comments⟩

/-- What separated pieces start with is no blank. -/
theorem Separates.head?_not_isGap (h : Separates (piece :: pieces) source) (hpiece : IsPiece piece) :
    ∀ c ∈ source.toList.head?, isGap c = false := by
  obtain ⟨d, ds, htext, hd⟩ := Glyph.exists_cons_of_isGenuine hpiece.isGenuine
  dsimp only at htext
  intro c hc
  cases h with
  | single =>
    rw [htext] at hc
    cases hc
    exact hd
  | cons _ _ h =>
    simp only [String.toList_append, htext, List.cons_append] at hc
    cases hc
    exact hd

theorem Separates.yields_scan (h : Separates pieces source) (hpieces : ∀ piece ∈ pieces, IsPiece piece)
    (hsteps : source.toList.length ≤ steps) : Yields (scan steps start source.toList) pieces := by
  induction h generalizing steps start with
  | nil => cases steps <;> exact .nil
  | single piece =>
    have hpiece := hpieces piece List.mem_cons_self
    have hpos := List.length_pos_of_ne_nil hpiece.ne_nil
    have hnext : Scan.next (piece.2.toList ++ []) = ⟨piece.1, piece.2.toList.length⟩ :=
      hpiece.next_eq (by simp)
    obtain ⟨steps, rfl⟩ : ∃ count, steps = count + 1 := ⟨steps - 1, by omega⟩
    rw [← List.append_nil piece.2.toList, scan_append hnext hpiece.ne_nil, String.ofList_toList]
    exact .cons_piece hpiece (by cases steps <;> exact .nil)
  | @cons piece gap hgap next pieces source h ih =>
    have hpiece := hpieces piece List.mem_cons_self
    have hrest : ∀ other ∈ next :: pieces, IsPiece other := fun other hother =>
      hpieces other (List.mem_cons_of_mem _ hother)
    have hpos := List.length_pos_of_ne_nil hpiece.ne_nil
    have hne : gap.toList ≠ [] := by simpa using hgap.1
    have hgappos := List.length_pos_of_ne_nil hne
    have hstart := h.head?_not_isGap (hrest next List.mem_cons_self)
    simp only [String.toList_append, List.append_assoc, List.length_append] at hsteps ⊢
    obtain ⟨steps, rfl⟩ : ∃ count, steps = count + 2 := ⟨steps - 2, by omega⟩
    -- One step reads the piece and one the blanks after it.
    have hhead : ∀ c ∈ (gap.toList ++ source.toList).head?, isGap c := by
      obtain ⟨d, ds, hd⟩ := List.exists_cons_of_ne_nil hne
      intro c hc
      rw [hd] at hc
      cases hc
      exact hgap.2 d (by simp [hd])
    rw [scan_append (hpiece.next_eq hhead) hpiece.ne_nil, scan_append (next_gap hgap.2 hne hstart) hne,
      String.ofList_toList]
    exact .cons_piece hpiece (.cons_blank _ (ih hrest (by omega)))

end Scanning

namespace TokenStream

variable {pieces : List (Kind × String)} {source : String}

/-- Tokens with blanks between them are read as these tokens and nothing else. -/
theorem ofSource_of_separates (hpieces : ∀ piece ∈ pieces, IsPiece piece)
    (h : Separates pieces source) :
    ∃ stream, ofSource source = .ok stream ∧ stream.tokens.map Token.piece = pieces ∧
      stream.comments = [] := by
  have hyields : Yields (scan source.toList.length 0 source.toList) pieces :=
    h.yields_scan hpieces le_rfl
  have hlex : lex source = scan source.toList.length 0 source.toList :=
    foldr_cover hyields.kind_ne_garbage
  refine ⟨sort 0 (lex source), ofSource_of_lex ?_, ?_, ?_⟩
  · rw [hlex]
    exact hyields.kind_ne_garbage
  · rw [hlex]
    exact hyields.sort_tokens 0
  · rw [hlex]
    exact hyields.sort_comments 0

/-- Two minus signs that touch start a comment, and letters before a quote belong to a literal. -/
theorem ofSource_of_separates_minus :
    ∃ stream, ofSource "-\t-\x0c r\r\n'a'" = .ok stream ∧
      stream.tokens.map Token.piece = [(.minus, "-"), (.minus, "-"), (.word, "r"), (.string, "'a'")] ∧
      stream.comments = [] := by
  apply ofSource_of_separates
  · have hminus : IsPiece (.minus, "-") :=
      ⟨rfl, by decide, "-", ⟨.minus, "-", 0⟩, by decide +kernel, rfl⟩
    have hword : IsPiece (.word, "r") := ⟨rfl, by decide, "r", ⟨.word, "r", 0⟩, by decide +kernel, rfl⟩
    have hstring : IsPiece (.string, "'a'") :=
      ⟨rfl, by decide, "'a'", ⟨.string, "'a'", 0⟩, by decide +kernel, rfl⟩
    simp [hminus, hword, hstring]
  · have htab : IsGapText "\t" := ⟨by decide, by decide⟩
    have hfeed : IsGapText "\x0c " := ⟨by decide, by decide⟩
    have hline : IsGapText "\r\n" := ⟨by decide, by decide⟩
    exact .cons (.minus, "-") htab (.cons (.minus, "-") hfeed (.cons (.word, "r") hline (.single _)))

end TokenStream

end SqlLayout
