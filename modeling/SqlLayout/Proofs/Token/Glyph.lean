import SqlLayout.Proofs.Layout.Spelling
import SqlLayout.Proofs.Token.Symbol
import SqlLayout.Token.Lexer

/-!
# Glyphs as Tokens

A genuine glyph is what its kind says. It is scanned as a single token where what follows cannot go on
with it; digits before a point are the one glyph that takes in a part of the name after it.
-/

namespace SqlLayout

open Token Token.Scan

/-- A token seen on its own. -/
def Token.glyph (token : Token) : Glyph :=
  { kind := token.kind, text := token.text }

namespace Glyph

variable {glyph next : Glyph} {rest : List Char}

def IsGenuine (glyph : Glyph) : Prop :=
  match glyph.kind with
  | .word => IsWord glyph.text.toList
  | .quotedIdent => IsQuotedName glyph.text.toList
  | .string => IsLiteral glyph.text.toList
  | .number => IsNumber glyph.text.toList
  | .lineComment => IsLineComment glyph.text.toList
  | .blockComment => IsBlockComment glyph.text.toList
  | kind => (kind, glyph.text) ∈ Kind.symbols

/-- The characters before which a glyph ends. -/
def endsBefore (glyph : Glyph) (c : Char) : Bool :=
  match glyph.kind with
  | .word => !isWordRest c && !isQuote c && c != '+' && c != '-'
  | .quotedIdent => true
  | .string => !isQuote c
  | .number => endsNumber c || (c == '.' && !glyph.text.toList.all Char.isDigit)
  | .lineComment => c == '\n'
  | .blockComment => true
  | _ => !extendsSymbol glyph.text.toList c

/-- A glyph of digits, their point and perhaps an exponent that is the start of a name, and the rest of
the name. -/
def Continues (glyph next : Glyph) : Prop :=
  glyph.kind = .number ∧ ∃ digits name : List Char, digits ≠ [] ∧ (∀ c ∈ digits, c.isDigit) ∧
    glyph.text.toList = digits ++ '.' :: name.take (exponent name) ∧
    next.text.toList = name.drop (exponent name) ∧
    ((IsWord name ∧ next.kind = .word) ∨ (IsQuotedName name ∧ next.kind = .quotedIdent))

/-- The kinds with a text of their own. -/
theorem mem_symbols_of_isGenuine (h : glyph.IsGenuine) (hsymbol : glyph.kind.isSymbol) :
    (glyph.kind, glyph.text) ∈ Kind.symbols := by
  unfold IsGenuine at h
  split at h <;> simp_all [Kind.isSymbol]

theorem next_of_endsBefore (h : glyph.IsGenuine) (hrest : ∀ c ∈ rest.head?, glyph.endsBefore c) :
    Scan.next (glyph.text.toList ++ rest) = ⟨glyph.kind, glyph.text.toList.length⟩ := by
  obtain ⟨kind, text, tied⟩ := glyph
  unfold IsGenuine at h
  unfold endsBefore at hrest
  dsimp only at h hrest ⊢
  split at h
  · apply next_word h
    intro c hc
    have hends := hrest c hc
    simp only [Bool.and_eq_true, Bool.not_eq_true'] at hends
    exact ⟨hends.1.1.1, hends.1.1.2⟩
  · exact next_quotedName h rest
  · apply next_literal h
    intro c hc
    simpa using hrest c hc
  · rename_i hnumber
    cases rest with
    | nil => exact next_number h (by simp)
    | cons c rest =>
      have hends := hrest c rfl
      simp only [Bool.or_eq_true, Bool.and_eq_true, beq_iff_eq, Bool.not_eq_true'] at hends
      rcases hends with hends | ⟨rfl, hdigits⟩
      · apply next_number h
        intro d hd
        cases hd
        exact hends
      · have hpoint : ∃ c ∈ text.toList, c.isDigit = false := by
          simpa [List.all_eq_false] using hdigits
        exact next_number_of_eq ((number_append_point hpoint).trans h.1)
          (List.length_pos_of_ne_nil h.2).ne'
  · apply next_lineComment h
    intro c hc
    simpa using hrest c hc
  · exact next_blockComment h rest
  · have hends : ∀ c ∈ rest.head?, extendsSymbol text.toList c = false := by
      intro c hc
      have hc := hrest c hc
      split at hc <;> simp_all
    rw [String.length_toList]
    have hsymbol := next_symbol h hends
    exact hsymbol

/-- The character of a name before which its beginning ends. -/
theorem next_of_continues (h : glyph.Continues next)
    (hrest : ∀ c ∈ rest.head?, next.endsBefore c) :
    Scan.next (glyph.text.toList ++ (next.text.toList ++ rest)) =
      ⟨glyph.kind, glyph.text.toList.length⟩ := by
  obtain ⟨hkind, digits, name, hne, hdigits, htext, hname, hform⟩ := h
  have hexponent : exponent (name ++ rest) = exponent name := by
    rcases hform with ⟨hword, hk⟩ | ⟨⟨body, rfl, hbody⟩, hk⟩
    · apply exponent_append
      intro c hc
      have hends := hrest c hc
      simp only [endsBefore, hk, Bool.and_eq_true, Bool.not_eq_true', bne_iff_ne] at hends
      obtain ⟨⟨⟨hrest, -⟩, hplus⟩, hminus⟩ := hends
      apply endsExponent_of_isWordRest hrest hplus hminus
    · rfl
  have hstart : ∀ c ∈ (name ++ rest).head?, c.isDigit = false := by
    rcases hform with ⟨⟨c, cs, rfl, hc, -⟩, -⟩ | ⟨⟨body, rfl, -⟩, -⟩
    · intro d hd
      cases hd
      exact not_isDigit_of_isWordStart hc
    · intro d hd
      cases hd
      decide
  have hwhole : glyph.text.toList ++ (next.text.toList ++ rest) = digits ++ '.' :: (name ++ rest) := by
    rw [htext, hname]
    simp only [List.append_assoc, List.cons_append, ← List.append_assoc (name.take _),
      List.take_append_drop]
  have hnumber := number_digits_point hdigits hne hstart
  rw [hexponent] at hnumber
  have hlength : glyph.text.toList.length = digits.length + 1 + exponent name := by
    have hle := exponent_le_length name
    rw [htext, List.length_append, List.length_cons, List.length_take, Nat.min_eq_left hle]
    omega
  rw [hwhole, hkind, hlength]
  exact next_number_of_eq hnumber (by omega)

/-- Blanks, brackets, commas and semicolons go on with nothing. -/
def neutral : List Char :=
  [' ', '\t', '\r', '\n', '\x0c', '(', ')', '[', ']', ',', ';']

theorem endsBefore_of_mem_neutral (h : glyph.IsGenuine) (hkind : glyph.kind ≠ .lineComment) {c : Char}
    (hc : c ∈ neutral) : glyph.endsBefore c := by
  have hsymbol : ∀ symbol ∈ Kind.symbols, ∀ c ∈ neutral,
      extendsSymbol symbol.2.toList c = false := by
    decide
  have hword : ∀ c ∈ neutral, (!isWordRest c && !isQuote c && c != '+' && c != '-') := by decide
  have hquote : ∀ c ∈ neutral, !isQuote c := by decide
  have hnumber : ∀ c ∈ neutral, endsNumber c := by decide
  obtain ⟨kind, text, tied⟩ := glyph
  unfold IsGenuine at h
  unfold endsBefore
  dsimp only at h hkind ⊢
  split
  · exact hword c hc
  · rfl
  · exact hquote c hc
  · simp [hnumber c hc]
  · exact absurd rfl hkind
  · rfl
  · split at h
    all_goals first | contradiction | skip
    simp [hsymbol _ h c hc]

/-- A literal starts with a quote or with the letters before it. -/
theorem exists_cons_of_isLiteral {text : List Char} (h : IsLiteral text) :
    ∃ c cs, text = c :: cs ∧ (isWordStart c ∨ isQuote c) := by
  obtain ⟨letters, quote, tail, body, rfl, hletters, -, hquote, -⟩ := exists_of_literal h
  cases letters with
  | nil => exact ⟨quote, tail, rfl, .inr hquote⟩
  | cons c letters =>
    have hc := isWordStart_of_isPrefixLetter (hletters c (by simp))
    exact ⟨c, letters ++ quote :: tail, rfl, .inl hc⟩

theorem exists_cons_of_isNumber {text : List Char} (h : IsNumber text) :
    ∃ c cs, text = c :: cs ∧ (c.isDigit ∨ c = '.') := by
  obtain ⟨hnumber, hne⟩ := h
  obtain ⟨c, cs, rfl⟩ := List.exists_cons_of_ne_nil hne
  have hpos : number (c :: cs) ≠ 0 := by
    rw [hnumber]
    simp
  exact ⟨c, cs, rfl, number_ne_zero hpos⟩

/-- A genuine glyph is not empty and does not start with a blank. -/
theorem exists_cons_of_isGenuine (h : glyph.IsGenuine) :
    ∃ c cs, glyph.text.toList = c :: cs ∧ isGap c = false := by
  obtain ⟨kind, text, tied⟩ := glyph
  unfold IsGenuine at h
  dsimp only at h ⊢
  have hmark {c : Char} (hc : c ∉ marks) : isGap c = false := by
    by_contra hgap
    simp only [isGap, Bool.not_eq_false, Bool.or_eq_true, beq_iff_eq] at hgap
    rcases hgap with (((rfl | rfl) | rfl) | rfl) | rfl <;> exact absurd (by decide) hc
  split at h
  · obtain ⟨c, cs, htext, hc, -⟩ := h
    exact ⟨c, cs, htext, hmark (not_mem_marks_of_isWordStart hc)⟩
  · obtain ⟨body, htext, -⟩ := h
    exact ⟨_, body, htext, by decide⟩
  · obtain ⟨c, cs, htext, hc | hquote⟩ := exists_cons_of_isLiteral h
    · exact ⟨c, cs, htext, hmark (not_mem_marks_of_isWordStart hc)⟩
    · refine ⟨c, cs, htext, ?_⟩
      simp only [isQuote, Bool.or_eq_true, beq_iff_eq] at hquote
      rcases hquote with rfl | rfl <;> decide
  · obtain ⟨c, cs, htext, hdigit | rfl⟩ := exists_cons_of_isNumber h
    · exact ⟨c, cs, htext, hmark (not_mem_marks_of_isDigit hdigit)⟩
    · exact ⟨_, cs, htext, by decide⟩
  · obtain ⟨opener, body, htext, rfl | rfl, -⟩ := h
    · exact ⟨_, _, htext, by decide⟩
    · exact ⟨_, _, htext, by decide⟩
  · obtain ⟨body, htext, -⟩ := h
    exact ⟨_, _, htext, by decide⟩
  · obtain ⟨c, cs, htext⟩ := List.exists_cons_of_ne_nil (symbol_ne_nil _ h)
    exact ⟨c, cs, htext, (symbol_head _ h c (by simp [htext])).2.2.2.2.2⟩

end Glyph

end SqlLayout
