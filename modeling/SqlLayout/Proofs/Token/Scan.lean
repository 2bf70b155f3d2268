import Mathlib.Data.List.Infix
import Mathlib.Data.List.TakeWhile
import SqlLayout.Token.Scan

/-!
# What One Token Looks Like

A token of each kind that carries a text of its own has a shape: the text alone tells that it is one. A
text of that shape is scanned as a single token wherever it stands, unless the character after it goes on
with it.
-/

namespace SqlLayout

-- A property of the characters of a text is decided along the text, not over all characters.
attribute [scoped instance (high)] List.decidableBAll Option.decidableForallMem

namespace Token.Scan

section Candidates

variable {cs : List Char} {lexeme : Lexeme}

theorem mem_candidates : lexeme ∈ candidates cs ↔
    (word cs ≠ 0 ∧ lexeme = ⟨.word, word cs⟩) ∨
    (quotedIdent cs ≠ 0 ∧ lexeme = ⟨.quotedIdent, quotedIdent cs⟩) ∨
    literal cs = some lexeme ∨
    (number cs ≠ 0 ∧ lexeme = ⟨.number, number cs⟩) ∨
    (gap cs ≠ 0 ∧ lexeme = ⟨.whitespace, gap cs⟩) ∨
    (lineComment cs ≠ 0 ∧ lexeme = ⟨.lineComment, lineComment cs⟩) ∨
    (blockComment cs ≠ 0 ∧ lexeme = ⟨.blockComment, blockComment cs⟩) ∨
    ∃ symbol ∈ Kind.symbols, symbol.2.toList <+: cs ∧ lexeme = ⟨symbol.1, symbol.2.length⟩ := by
  have hlexeme (kind : Kind) (length : Nat) :
      some lexeme = lexeme? kind length ↔ length ≠ 0 ∧ lexeme = ⟨kind, length⟩ := by
    unfold lexeme?
    by_cases hlength : length = 0 <;> simp [hlength]
  have hsymbol (symbol : Kind × String) :
      symbol? cs symbol = some lexeme ↔
        symbol.2.toList <+: cs ∧ lexeme = ⟨symbol.1, symbol.2.length⟩ := by
    unfold symbol?
    rw [eq_comm (a := lexeme)]
    by_cases hleading : symbol.2.toList <+: cs <;> simp [hleading]
  have hpatterns {patterns : List (Option Lexeme)} :
      lexeme ∈ patterns.filterMap id ↔ some lexeme ∈ patterns := by
    simp
  rw [candidates, List.mem_append, hpatterns, List.mem_filterMap]
  simp only [List.mem_cons, List.not_mem_nil, or_false, hsymbol, or_assoc, hlexeme,
    eq_comm (b := literal cs)]

theorem longest_spec (lexemes : List Lexeme) :
    (lexemes = [] ∧ longest lexemes = none) ∨
      ∃ lexeme ∈ lexemes, longest lexemes = some lexeme ∧ ∀ other ∈ lexemes, other.length ≤ lexeme.length := by
  induction lexemes with
  | nil => exact .inl ⟨rfl, rfl⟩
  | cons first lexemes ih =>
    right
    rw [longest]
    rcases ih with ⟨rfl, hnone⟩ | ⟨lexeme, hmem, hsome, hmax⟩
    · rw [hnone]
      exact ⟨first, by simp, rfl, by simp⟩
    · rw [hsome]
      dsimp only
      split
      · rename_i hlt
        exact ⟨lexeme, by simp [hmem], rfl, by simp; exact ⟨by omega, hmax⟩⟩
      · rename_i hle
        refine ⟨first, by simp, rfl, ?_⟩
        simp only [List.mem_cons, forall_eq_or_imp, le_refl, true_and]
        intro other hother
        have := hmax other hother
        omega

/-- Every token but garbage is one of the candidates. -/
theorem next_mem_candidates (h : (next cs).kind ≠ .garbage) : next cs ∈ candidates cs := by
  unfold next at h ⊢
  rcases longest_spec (candidates cs) with ⟨-, hnone⟩ | ⟨lexeme, hmem, hsome, -⟩
  · rw [hnone] at h
    exact absurd rfl h
  · rw [hsome]
    exact hmem

/-- A candidate that is longer than all others is the token. -/
theorem next_eq (hmem : lexeme ∈ candidates cs)
    (hlonger : ∀ other ∈ candidates cs, other = lexeme ∨ other.length < lexeme.length) :
    next cs = lexeme := by
  unfold next
  rcases longest_spec (candidates cs) with ⟨hnil, -⟩ | ⟨found, hfound, hsome, hmax⟩
  · rw [hnil] at hmem
    cases hmem
  · rw [hsome]
    rcases hlonger found hfound with heq | hlt
    · exact heq
    · have := hmax lexeme hmem
      omega

end Candidates

section Openings

def isQuote (c : Char) : Bool :=
  c == '\x22' || c == '\x27'

theorem not_isDigit_of_isWordStart {c : Char} (h : isWordStart c) : c.isDigit = false := by
  have hword : 65 ≤ c.toNat := by
    delta isWordStart Char.isAlpha Char.isUpper Char.isLower at h
    simp only [Bool.or_eq_true,
      Bool.and_eq_true, decide_eq_true_eq, beq_iff_eq, ge_iff_le, UInt32.le_iff_toNat_le] at h
    rcases h with (⟨hlow, -⟩ | ⟨hlow, -⟩) | rfl
    · exact hlow
    · exact le_trans (by decide) hlow
    · decide
  by_contra hdigit
  have hdigit := Char.isDigit_iff_toNat.mp (by simpa using hdigit)
  have hnine : '9'.toNat = 57 := by decide
  omega

variable {c : Char} {cs : List Char}

theorem quotedIdent_ne_zero (h : quotedIdent (c :: cs) ≠ 0) : c = backquote := by
  by_contra hc
  exact h (if_neg hc)

theorem literal_ne_none (h : literal (c :: cs) ≠ none) : isPrefixLetter c ∨ isQuote c := by
  by_contra hc
  obtain ⟨hletter, hquote⟩ := not_or.mp hc
  apply h
  have hrun : run isPrefixLetter (c :: cs) = 0 := by simp [run, hletter]
  have hbody : literalBody (c :: cs) = none := by
    simp only [isQuote, Bool.or_eq_true, beq_iff_eq, not_or] at hquote
    simp [literalBody, hquote]
  simp [literal, hrun, hbody]

theorem number_ne_zero (h : number (c :: cs) ≠ 0) : c.isDigit ∨ c = '.' := by
  by_contra hc
  obtain ⟨hdigit, hpoint⟩ := not_or.mp hc
  apply h
  have hrun : run Char.isDigit (c :: cs) = 0 := by simp [run, hdigit]
  have hdecimal : decimal (c :: cs) = 0 := by simp [decimal, hrun]
  have hfraction : fraction (c :: cs) = 0 := by
    unfold fraction
    split
    · rename_i heq
      simp_all
    · rfl
  have hhexadecimal : hexadecimal (c :: cs) = 0 := by
    unfold hexadecimal
    split
    · rename_i heq
      obtain ⟨rfl, -⟩ := List.cons.inj heq
      exact absurd (by decide) hdigit
    · rfl
  simp [number, hdecimal, pointFirst, hfraction, hhexadecimal]

theorem gap_ne_zero (h : gap (c :: cs) ≠ 0) : isGap c := by
  by_contra hc
  exact h (by simp [gap, run, hc])

theorem lineComment_ne_zero (h : lineComment (c :: cs) ≠ 0) : c = '#' ∨ c = '-' := by
  unfold lineComment at h
  split at h
  · rename_i heq
    exact .inl (List.cons.inj heq).1
  · rename_i heq
    exact .inr (List.cons.inj heq).1
  · exact absurd rfl h

theorem blockComment_ne_zero (h : blockComment (c :: cs) ≠ 0) : c = '/' := by
  unfold blockComment at h
  split at h
  · rename_i heq
    exact (List.cons.inj heq).1
  · exact absurd rfl h

theorem word_ne_zero (h : word (c :: cs) ≠ 0) : isWordStart c := by
  by_contra hc
  exact h (if_neg hc)

/-- A symbol starts with one of a few characters. -/
def isSymbolStart (c : Char) : Bool :=
  Kind.symbols.any fun symbol => symbol.2.toList.head? == some c

theorem symbol_ne_nil : ∀ symbol ∈ Kind.symbols, symbol.2.toList ≠ [] := by
  decide

theorem isSymbolStart_of_mem {symbol : Kind × String} (hmem : symbol ∈ Kind.symbols)
    (h : symbol.2.toList <+: c :: cs) : isSymbolStart c := by
  obtain ⟨rest, hrest⟩ := h
  apply List.any_eq_true.mpr
  refine ⟨symbol, hmem, ?_⟩
  cases htext : symbol.2.toList with
  | nil => exact absurd htext (symbol_ne_nil symbol hmem)
  | cons d ds =>
    rw [htext, List.cons_append] at hrest
    obtain ⟨rfl, -⟩ := List.cons.inj hrest
    simp

/-- What the first character tells about the candidates. -/
theorem openings {lexeme : Lexeme} (h : lexeme ∈ candidates (c :: cs)) :
    (isWordStart c ∧ lexeme = ⟨.word, word (c :: cs)⟩) ∨
    (c = backquote ∧ lexeme = ⟨.quotedIdent, quotedIdent (c :: cs)⟩) ∨
    ((isPrefixLetter c ∨ isQuote c) ∧ literal (c :: cs) = some lexeme) ∨
    ((c.isDigit ∨ c = '.') ∧ lexeme = ⟨.number, number (c :: cs)⟩) ∨
    (isGap c ∧ lexeme = ⟨.whitespace, gap (c :: cs)⟩) ∨
    ((c = '#' ∨ c = '-') ∧ lexeme = ⟨.lineComment, lineComment (c :: cs)⟩) ∨
    (c = '/' ∧ lexeme = ⟨.blockComment, blockComment (c :: cs)⟩) ∨
    (isSymbolStart c ∧ ∃ symbol ∈ Kind.symbols, symbol.2.toList <+: c :: cs ∧
      lexeme = ⟨symbol.1, symbol.2.length⟩) := by
  rcases mem_candidates.mp h with
    ⟨hne, heq⟩ | ⟨hne, heq⟩ | hsome | ⟨hne, heq⟩ | ⟨hne, heq⟩ | ⟨hne, heq⟩ | ⟨hne, heq⟩ |
      ⟨symbol, hmem, hleading, heq⟩
  · exact .inl ⟨word_ne_zero hne, heq⟩
  · exact .inr (.inl ⟨quotedIdent_ne_zero hne, heq⟩)
  · exact .inr (.inr (.inl ⟨literal_ne_none (hsome ▸ Option.some_ne_none _), hsome⟩))
  · exact .inr (.inr (.inr (.inl ⟨number_ne_zero hne, heq⟩)))
  · exact .inr (.inr (.inr (.inr (.inl ⟨gap_ne_zero hne, heq⟩))))
  · exact .inr (.inr (.inr (.inr (.inr (.inl ⟨lineComment_ne_zero hne, heq⟩)))))
  · exact .inr (.inr (.inr (.inr (.inr (.inr (.inl ⟨blockComment_ne_zero hne, heq⟩))))))
  · exact .inr (.inr (.inr (.inr (.inr (.inr (.inr
      ⟨isSymbolStart_of_mem hmem hleading, symbol, hmem, hleading, heq⟩))))))

/-- The characters that neither letters nor digits are. -/
def marks : List Char :=
  [backquote, '\x22', '\x27', '.', '#', '-', '/', ' ', '\t', '\r', '\n', '\x0c']
    ++ Kind.symbols.filterMap fun symbol => symbol.2.toList.head?

theorem not_mem_marks_of_isWordStart (h : isWordStart c) : c ∉ marks := by
  have hmarks : ∀ d ∈ marks, isWordStart d = false := by decide
  intro hmem
  rw [hmarks c hmem] at h
  cases h

theorem not_mem_marks_of_isDigit (h : c.isDigit) : c ∉ marks := by
  have hmarks : ∀ d ∈ marks, d.isDigit = false := by decide
  intro hmem
  rw [hmarks c hmem] at h
  cases h

theorem mem_marks_of_isSymbolStart (h : isSymbolStart c) : c ∈ marks := by
  obtain ⟨symbol, hmem, hhead⟩ := List.any_eq_true.mp h
  exact List.mem_append_right _ (List.mem_filterMap.mpr ⟨symbol, hmem, by simpa using hhead⟩)

/-- A token that starts with no mark is a word, a literal or a number. -/
theorem openings_of_not_mem_marks {lexeme : Lexeme} (hc : c ∉ marks)
    (h : lexeme ∈ candidates (c :: cs)) :
    (isWordStart c ∧ lexeme = ⟨.word, word (c :: cs)⟩) ∨
    (isPrefixLetter c ∧ literal (c :: cs) = some lexeme) ∨
    (c.isDigit ∧ lexeme = ⟨.number, number (c :: cs)⟩) := by
  rcases openings h with
    hword | ⟨rfl, -⟩ | ⟨hletter | hquote, hsome⟩ | ⟨hdigit | rfl, heq⟩ | ⟨hgap, -⟩ | ⟨rfl | rfl, -⟩ |
      ⟨rfl, -⟩ | ⟨hsymbol, -⟩
  · exact .inl hword
  · exact absurd (by decide) hc
  · exact .inr (.inl ⟨hletter, hsome⟩)
  · simp only [isQuote, Bool.or_eq_true, beq_iff_eq] at hquote
    rcases hquote with rfl | rfl <;> exact absurd (by decide) hc
  · exact .inr (.inr ⟨hdigit, heq⟩)
  · exact absurd (by decide) hc
  · simp only [isGap, Bool.or_eq_true, beq_iff_eq] at hgap
    rcases hgap with (((rfl | rfl) | rfl) | rfl) | rfl <;> exact absurd (by decide) hc
  · exact absurd (by decide) hc
  · exact absurd (by decide) hc
  · exact absurd (by decide) hc
  · exact absurd (mem_marks_of_isSymbolStart hsymbol) hc

/-- Nothing but a literal starts with a quote. -/
theorem literal_of_isQuote {lexeme : Lexeme} (hc : isQuote c) (h : lexeme ∈ candidates (c :: cs)) :
    literal (c :: cs) = some lexeme := by
  simp only [isQuote, Bool.or_eq_true, beq_iff_eq] at hc
  rcases openings h with
    ⟨hs, -⟩ | ⟨hs, -⟩ | ⟨-, hsome⟩ | ⟨hs, -⟩ | ⟨hs, -⟩ | ⟨hs, -⟩ | ⟨hs, -⟩ | ⟨hs, -⟩
  case inr.inr.inl => exact hsome
  all_goals rcases hc with rfl | rfl <;> exact absurd hs (by decide)

theorem kind_of_literal {lexeme : Lexeme} (h : literal cs = some lexeme) :
    lexeme.kind = .string ∨ lexeme.kind = .garbage := by
  unfold literal at h
  dsimp only at h
  split at h
  · obtain ⟨body, hbody, rfl⟩ := Option.map_eq_some_iff.mp h
    unfold literalBody at hbody
    split at hbody
    · split at hbody
      · split at hbody <;> split at hbody <;> cases hbody <;> simp
      · cases hbody
    · cases hbody
  · cases h

/-- What is known of a token of each kind. -/
theorem next_cases {kind : Kind} {length : Nat} (h : next cs = ⟨kind, length⟩)
    (hkind : kind ≠ .garbage) :
    (kind = .word ∧ word cs = length ∧ length ≠ 0) ∨
    (kind = .quotedIdent ∧ quotedIdent cs = length ∧ length ≠ 0) ∨
    (kind = .string ∧ literal cs = some ⟨.string, length⟩) ∨
    (kind = .number ∧ number cs = length ∧ length ≠ 0) ∨
    (kind = .whitespace ∧ gap cs = length ∧ length ≠ 0) ∨
    (kind = .lineComment ∧ lineComment cs = length ∧ length ≠ 0) ∨
    (kind = .blockComment ∧ blockComment cs = length ∧ length ≠ 0) ∨
    (kind.isSymbol ∧ ∃ text, (kind, text) ∈ Kind.symbols ∧ text.toList <+: cs ∧
      length = text.length) := by
  have hmem : next cs ∈ candidates cs := next_mem_candidates (by rw [h]; exact hkind)
  rw [h, mem_candidates] at hmem
  rcases hmem with ⟨hne, heq⟩ | ⟨hne, heq⟩ | hsome | ⟨hne, heq⟩ | ⟨hne, heq⟩ | ⟨hne, heq⟩ | ⟨hne, heq⟩ |
      ⟨⟨symbol, text⟩, hmem, hleading, heq⟩
  · cases heq
    exact .inl ⟨rfl, rfl, hne⟩
  · cases heq
    exact .inr (.inl ⟨rfl, rfl, hne⟩)
  · obtain rfl : kind = .string := (kind_of_literal hsome).resolve_right hkind
    exact .inr (.inr (.inl ⟨rfl, hsome⟩))
  · cases heq
    exact .inr (.inr (.inr (.inl ⟨rfl, rfl, hne⟩)))
  · cases heq
    exact .inr (.inr (.inr (.inr (.inl ⟨rfl, rfl, hne⟩))))
  · cases heq
    exact .inr (.inr (.inr (.inr (.inr (.inl ⟨rfl, rfl, hne⟩)))))
  · cases heq
    exact .inr (.inr (.inr (.inr (.inr (.inr (.inl ⟨rfl, rfl, hne⟩))))))
  · cases heq
    have hsymbol := (Kind.mem_symbols_iff symbol).mp (List.mem_map_of_mem hmem)
    exact .inr (.inr (.inr (.inr (.inr (.inr (.inr ⟨hsymbol, text, hmem, hleading, rfl⟩))))))

end Openings

section Runs

variable {p : Char → Bool} {cs rest : List Char}

theorem run_append (h : ∀ c ∈ cs, p c) : run p (cs ++ rest) = cs.length + run p rest := by
  induction cs with
  | nil => simp
  | cons c cs ih =>
    have hc : p c := h c (by simp)
    have hrest := ih fun d hd => h d (by simp [hd])
    simp only [run] at hrest
    simp only [run, List.cons_append, List.takeWhile_cons_of_pos hc, List.length_cons, hrest]
    omega

theorem run_eq_zero (h : ∀ c ∈ cs.head?, p c = false) : run p cs = 0 := by
  cases cs with
  | nil => rfl
  | cons c cs => simp [run, h c rfl]

theorem run_append_eq (h : ∀ c ∈ cs, p c) (hrest : ∀ c ∈ rest.head?, p c = false) :
    run p (cs ++ rest) = cs.length := by
  rw [run_append h, run_eq_zero hrest, Nat.add_zero]

theorem take_run (cs : List Char) : cs.take (run p cs) = cs.takeWhile p :=
  List.prefix_iff_eq_take.mp (List.takeWhile_prefix p) |>.symm

theorem mem_take_run {c : Char} (h : c ∈ cs.take (run p cs)) : p c := by
  rw [take_run] at h
  exact List.mem_takeWhile_imp h

theorem drop_run (cs : List Char) : cs.drop (run p cs) = cs.dropWhile p := by
  induction cs with
  | nil => rfl
  | cons c cs ih =>
    simp only [run] at ih
    by_cases hc : p c <;> simp [run, hc, ih]

theorem head?_drop_run {c : Char} (h : c ∈ (cs.drop (run p cs)).head?) : p c = false := by
  rw [drop_run] at h
  have hne := List.head?_dropWhile_not p cs
  cases hcase : (cs.dropWhile p).head? with
  | none => simp [hcase] at h
  | some d =>
    rw [hcase] at h hne
    cases h
    simpa using hne

end Runs

section Words

variable {text rest : List Char}

/-- A letter or an underscore, then letters, digits and underscores. -/
def IsWord (text : List Char) : Prop :=
  ∃ c cs, text = c :: cs ∧ isWordStart c ∧ ∀ d ∈ cs, isWordRest d

theorem isWordRest_of_isWordStart {c : Char} (h : isWordStart c) : isWordRest c := by
  simp only [isWordStart, Bool.or_eq_true, beq_iff_eq] at h
  simp only [isWordRest, Char.isAlphanum, Bool.or_eq_true, beq_iff_eq]
  exact h.imp_left .inl

theorem IsWord.isWordRest (h : IsWord text) {c : Char} (hc : c ∈ text) : isWordRest c := by
  obtain ⟨first, cs, rfl, hfirst, hcs⟩ := h
  rcases List.mem_cons.mp hc with rfl | hc
  · exact isWordRest_of_isWordStart hfirst
  · exact hcs c hc

theorem not_isQuote_of_isWordRest {c : Char} (h : isWordRest c) : isQuote c = false := by
  by_contra hquote
  simp only [isQuote, Bool.not_eq_false, Bool.or_eq_true, beq_iff_eq] at hquote
  rcases hquote with rfl | rfl
  · exact absurd h (by decide)
  · exact absurd h (by decide)

theorem isWordRest_of_isPrefixLetter {c : Char} (h : isPrefixLetter c) : isWordRest c := by
  simp only [isPrefixLetter, Bool.or_eq_true, beq_iff_eq] at h
  rcases h with ((rfl | rfl) | rfl) | rfl <;> decide

/-- A literal has a quote after its letters. -/
theorem exists_quote_of_literal {cs : List Char} (h : literal cs ≠ none) :
    ∃ letters quote tail, cs = letters ++ quote :: tail ∧ (∀ c ∈ letters, isPrefixLetter c) ∧
      isQuote quote := by
  have hbody : literalBody (cs.drop (run isPrefixLetter cs)) ≠ none := by
    intro hnone
    apply h
    simp [literal, hnone]
  have hsplit := List.take_append_drop (run isPrefixLetter cs) cs
  cases hdrop : cs.drop (run isPrefixLetter cs) with
  | nil => exact absurd (by rw [hdrop]; rfl) hbody
  | cons quote tail =>
    refine ⟨_, quote, tail, by rw [← hdrop, hsplit], fun c hc => mem_take_run hc, ?_⟩
    by_contra hquote
    simp only [isQuote, Bool.or_eq_true, beq_iff_eq, not_or] at hquote
    rw [hdrop] at hbody
    simp [literalBody, hquote] at hbody

theorem literal_append_eq_none (h : IsWord text)
    (hrest : ∀ c ∈ rest.head?, isWordRest c = false ∧ isQuote c = false) :
    literal (text ++ rest) = none := by
  by_contra hne
  obtain ⟨letters, quote, tail, heq, hletters, hquote⟩ := exists_quote_of_literal hne
  rcases List.append_eq_append_iff.mp heq with ⟨middle, hmiddle, hrestEq⟩ | ⟨middle, hmiddle, htail⟩
  · -- The word ends before the quote, so what follows it starts with a letter or the quote.
    cases middle with
    | nil =>
      have hhead := (hrest quote (by simp [hrestEq])).2
      rw [hquote] at hhead
      cases hhead
    | cons d middle =>
      have hletter := isWordRest_of_isPrefixLetter (hletters d (by simp [hmiddle]))
      have hhead := (hrest d (by simp [hrestEq])).1
      rw [hletter] at hhead
      cases hhead
  · cases middle with
    | nil =>
      have hrestEq : rest = quote :: tail := htail.symm
      have hhead := (hrest quote (by simp [hrestEq])).2
      rw [hquote] at hhead
      cases hhead
    | cons d middle =>
      obtain ⟨rfl, -⟩ := List.cons.inj htail
      have hmem : quote ∈ text := by simp [hmiddle]
      have hword := not_isQuote_of_isWordRest (h.isWordRest hmem)
      rw [hquote] at hword
      cases hword

theorem next_word (h : IsWord text)
    (hrest : ∀ c ∈ rest.head?, isWordRest c = false ∧ isQuote c = false) :
    next (text ++ rest) = ⟨.word, text.length⟩ := by
  have hliteral := literal_append_eq_none h hrest
  obtain ⟨c, cs, rfl, hc, hcs⟩ := h
  rw [List.cons_append] at hliteral ⊢
  have hword : word (c :: (cs ++ rest)) = (c :: cs).length := by
    rw [word, if_pos hc, run_append_eq hcs fun d hd => (hrest d hd).1]
    simp [Nat.add_comm]
  apply next_eq
  · rw [mem_candidates, hword]
    exact .inl ⟨by simp, rfl⟩
  · intro other hother
    left
    rcases openings_of_not_mem_marks (not_mem_marks_of_isWordStart hc) hother with
      ⟨-, rfl⟩ | ⟨-, hsome⟩ | ⟨hdigit, -⟩
    · rw [hword]
    · rw [hliteral] at hsome
      cases hsome
    · rw [not_isDigit_of_isWordStart hc] at hdigit
      cases hdigit

theorem isWord_of_next {cs : List Char} {length : Nat} (h : next cs = ⟨.word, length⟩) :
    IsWord (cs.take length) := by
  rcases next_cases h (by decide) with ⟨-, hword, hne⟩ | ⟨hk, -⟩ | ⟨hk, -⟩ | ⟨hk, -⟩ | ⟨hk, -⟩ | ⟨hk, -⟩ |
    ⟨hk, -⟩ | ⟨hk, -⟩
  · cases cs with
    | nil => exact absurd hword.symm hne
    | cons c cs =>
      have hc : isWordStart c := word_ne_zero (hword ▸ hne)
      rw [word, if_pos hc] at hword
      refine ⟨c, cs.take (run isWordRest cs), ?_, hc, fun d hd => mem_take_run hd⟩
      rw [← hword, Nat.add_comm, List.take_succ_cons]
  all_goals cases hk

end Words

section Quotes

theorem quoted_cons {quote c : Char} {multiline : Bool} {cs : List Char} (hc : c ≠ '\\') :
    quoted quote multiline (c :: cs) =
      if c = quote then (true, 1)
      else if c = '\n' && !multiline then (false, 0)
      else ((quoted quote multiline cs).1, (quoted quote multiline cs).2 + 1) := by
  rw [quoted]
  · exact fun h _ => hc h
  · exact fun _ _ h _ => hc h

theorem quoted_backslash {quote c : Char} {multiline : Bool} {cs : List Char} :
    quoted quote multiline ('\\' :: c :: cs) =
      if c = '\n' then (false, 1)
      else ((quoted quote multiline cs).1, (quoted quote multiline cs).2 + 2) := by
  rw [quoted]

/-- Only the characters up to the closing quote matter. -/
theorem quoted_take_append {quote : Char} {multiline : Bool} {cs : List Char} {count : Nat}
    (h : quoted quote multiline cs = (true, count)) (rest : List Char) :
    count ≤ cs.length ∧ quoted quote multiline (cs.take count ++ rest) = (true, count) := by
  induction hlength : cs.length using Nat.strong_induction_on generalizing cs count with
  | _ length ih =>
    subst hlength
    cases cs with
    | nil => cases h
    | cons c cs =>
      by_cases hc : c = '\\'
      · subst hc
        cases cs with
        | nil => cases h
        | cons d cs =>
          rw [quoted_backslash] at h
          split at h
          · cases h
          · rename_i hd
            obtain ⟨hclosed, rfl⟩ := Prod.mk.inj h
            have hrest : quoted quote multiline cs = (true, (quoted quote multiline cs).2) :=
              Prod.ext hclosed rfl
            obtain ⟨hle, hquoted⟩ := ih cs.length (by simp only [List.length_cons]; omega) hrest rfl
            refine ⟨by simpa using hle, ?_⟩
            rw [List.take_succ_cons, List.take_succ_cons, List.cons_append, List.cons_append,
              quoted_backslash, if_neg hd, hquoted]
      · rw [quoted_cons hc] at h
        split at h
        · obtain ⟨-, rfl⟩ := Prod.mk.inj h
          rename_i hquote
          refine ⟨by simp, ?_⟩
          rw [List.take_succ_cons, List.cons_append, quoted_cons hc, if_pos hquote]
        · rename_i hquote
          split at h
          · cases h
          · rename_i hline
            obtain ⟨hclosed, rfl⟩ := Prod.mk.inj h
            have hrest : quoted quote multiline cs = (true, (quoted quote multiline cs).2) :=
              Prod.ext hclosed rfl
            obtain ⟨hle, hquoted⟩ := ih cs.length (by simp) hrest rfl
            refine ⟨by simpa using hle, ?_⟩
            rw [List.take_succ_cons, List.cons_append, quoted_cons hc, if_neg hquote, if_neg hline,
              hquoted]

/-- A quoted text ends with its quote. -/
theorem getLast?_of_quoted {quote : Char} {multiline : Bool} {cs : List Char}
    (h : quoted quote multiline cs = (true, cs.length)) : cs.getLast? = some quote := by
  induction hlength : cs.length using Nat.strong_induction_on generalizing cs with
  | _ length ih =>
    subst hlength
    cases cs with
    | nil => cases h
    | cons c cs =>
      by_cases hc : c = '\\'
      · subst hc
        cases cs with
        | nil => cases h
        | cons d cs =>
          rw [quoted_backslash] at h
          split at h
          · cases h
          · obtain ⟨hclosed, hcount⟩ := Prod.mk.inj h
            have hrest : quoted quote multiline cs = (true, cs.length) :=
              Prod.ext hclosed (by simpa using hcount)
            have hlast := ih cs.length (by simp only [List.length_cons]; omega) hrest rfl
            simp [List.getLast?_cons, hlast]
      · rw [quoted_cons hc] at h
        split at h
        · rename_i hquote
          obtain ⟨-, hcount⟩ := Prod.mk.inj h
          have hnil : cs = [] := by simpa using hcount
          simp [hnil, hquote]
        · split at h
          · cases h
          · obtain ⟨hclosed, hcount⟩ := Prod.mk.inj h
            have hrest : quoted quote multiline cs = (true, cs.length) :=
              Prod.ext hclosed (by simpa using hcount)
            have hlast := ih cs.length (by simp) hrest rfl
            simp [List.getLast?_cons, hlast]

/-- A backquote and everything up to the next one. -/
def IsQuotedName (text : List Char) : Prop :=
  ∃ body, text = backquote :: body ∧ quoted backquote true body = (true, body.length)

theorem next_quotedName {text : List Char} (h : IsQuotedName text) (rest : List Char) :
    next (text ++ rest) = ⟨.quotedIdent, text.length⟩ := by
  obtain ⟨body, rfl, hbody⟩ := h
  obtain ⟨-, hquoted⟩ := quoted_take_append hbody rest
  rw [List.take_length] at hquoted
  rw [List.cons_append]
  have hname : quotedIdent (backquote :: (body ++ rest)) = (backquote :: body).length := by
    simp [quotedIdent, hquoted]
  apply next_eq
  · rw [mem_candidates, hname]
    exact .inr (.inl ⟨by simp, rfl⟩)
  · intro other hother
    left
    rcases openings hother with
      ⟨hc, -⟩ | ⟨-, rfl⟩ | ⟨hc, -⟩ | ⟨hc, -⟩ | ⟨hc, -⟩ | ⟨hc, -⟩ | ⟨hc, -⟩ | ⟨hc, -⟩
    · exact absurd hc (by decide)
    · rw [hname]
    all_goals exact absurd hc (by decide)

theorem isQuotedName_of_next {cs : List Char} {length : Nat}
    (h : next cs = ⟨.quotedIdent, length⟩) : IsQuotedName (cs.take length) := by
  rcases next_cases h (by decide) with ⟨hk, -⟩ | ⟨-, hname, hne⟩ | ⟨hk, -⟩ | ⟨hk, -⟩ | ⟨hk, -⟩ | ⟨hk, -⟩ |
    ⟨hk, -⟩ | ⟨hk, -⟩
  · cases hk
  · cases cs with
    | nil => exact absurd hname.symm hne
    | cons c cs =>
      obtain rfl := quotedIdent_ne_zero (hname ▸ hne)
      rw [quotedIdent, if_pos rfl] at hname
      split at hname
      · rename_i count hquoted
        obtain ⟨hle, htake⟩ := quoted_take_append hquoted []
        refine ⟨cs.take count, ?_, ?_⟩
        · rw [← hname, List.take_succ_cons]
        · rw [List.append_nil] at htake
          rw [htake, List.length_take, Nat.min_eq_left hle]
      · exact absurd hname.symm hne
  all_goals cases hk

theorem three_le_of_tripleEnd? {quote : Char} {cs : List Char} {count : Nat}
    (h : tripleEnd? quote cs = some count) : 3 ≤ count := by
  induction hlength : cs.length using Nat.strong_induction_on generalizing cs count with
  | _ length ih =>
    subst hlength
    unfold tripleEnd? at h
    split at h
    · obtain ⟨inner, hinner, rfl⟩ := Option.map_eq_some_iff.mp h
      have := ih _ (by simp only [List.length_cons]; omega) hinner rfl
      omega
    · cases h
    · split at h
      · cases h
        omega
      · obtain ⟨inner, hinner, rfl⟩ := Option.map_eq_some_iff.mp h
        have := ih _ (by simp) hinner rfl
        omega
    · cases h

theorem tripleEnd?_cons {quote c : Char} {cs : List Char} (hc : c ≠ '\\') :
    tripleEnd? quote (c :: cs) =
      if [quote, quote, quote].isPrefixOf (c :: cs) then some 3
      else (tripleEnd? quote cs).map (· + 1) := by
  rw [tripleEnd?]
  · exact fun _ _ h _ => hc h
  · exact fun h _ => hc h

/-- Only the characters up to the closing quotes matter. -/
theorem tripleEnd?_take_append {quote : Char} {cs : List Char} {count : Nat}
    (h : tripleEnd? quote cs = some count) (rest : List Char) :
    count ≤ cs.length ∧ tripleEnd? quote (cs.take count ++ rest) = some count := by
  induction hlength : cs.length using Nat.strong_induction_on generalizing cs count with
  | _ length ih =>
    subst hlength
    cases cs with
    | nil => cases h
    | cons c cs =>
      by_cases hc : c = '\\'
      · subst hc
        cases cs with
        | nil => cases h
        | cons d cs =>
          rw [tripleEnd?] at h
          obtain ⟨inner, hinner, rfl⟩ := Option.map_eq_some_iff.mp h
          obtain ⟨hle, htake⟩ := ih cs.length (by simp only [List.length_cons]; omega) hinner rfl
          refine ⟨by simpa using hle, ?_⟩
          rw [List.take_succ_cons, List.take_succ_cons, List.cons_append, List.cons_append, tripleEnd?,
            htake]
          rfl
      · rw [tripleEnd?_cons hc] at h
        split at h
        · cases h
          rename_i hleading
          obtain ⟨tail, htail⟩ := List.isPrefixOf_iff_prefix.mp hleading
          have htake : (c :: cs).take 3 = [quote, quote, quote] := by simp [← htail]
          have hlong : 3 ≤ (c :: cs).length := by simp [← htail]
          refine ⟨hlong, ?_⟩
          have hquote : quote ≠ '\\' := by
            rw [List.cons_append] at htail
            rw [(List.cons.inj htail).1]
            exact hc
          rw [htake, List.cons_append, tripleEnd?_cons hquote]
          simp
        · rename_i hleading
          obtain ⟨inner, hinner, rfl⟩ := Option.map_eq_some_iff.mp h
          obtain ⟨hle, htake⟩ := ih cs.length (by simp) hinner rfl
          have hthree := three_le_of_tripleEnd? hinner
          refine ⟨by simpa using hle, ?_⟩
          rw [List.take_succ_cons, List.cons_append, tripleEnd?_cons hc, htake, if_neg]
          · rfl
          · intro hcontra
            apply hleading
            -- The first three characters are the same, since at least three are left.
            rw [List.isPrefixOf_iff_prefix] at hcontra ⊢
            rw [← List.cons_append] at hcontra
            have hshort := List.prefix_of_prefix_length_le hcontra (List.prefix_append _ _)
              (by simp; omega)
            exact hshort.trans (by simp [List.take_prefix])

end Quotes

section Literals

variable {letters cs rest text : List Char} {quote : Char}

/-- Letters, a quote and everything up to the quotes that close the literal. -/
def IsLiteral (text : List Char) : Prop :=
  literal text = some ⟨.string, text.length⟩

theorem literal_append (hletters : ∀ c ∈ letters, isPrefixLetter c) (hshort : letters.length ≤ 2)
    (hquote : isQuote quote) :
    literal (letters ++ quote :: cs) =
      (literalBody (quote :: cs)).map fun body =>
        { body with length := letters.length + body.length } := by
  have hstop : ∀ c ∈ (quote :: cs).head?, isPrefixLetter c = false := by
    intro c hc
    cases hc
    by_contra hletter
    have hword := isWordRest_of_isPrefixLetter (by simpa using hletter)
    rw [not_isQuote_of_isWordRest hword] at hquote
    cases hquote
  have hrun := run_append_eq hletters hstop
  simp only [literal, hrun, if_pos hshort, List.drop_left]

theorem exists_of_literal {lexeme : Lexeme} (h : literal cs = some lexeme) :
    ∃ letters quote tail body, cs = letters ++ quote :: tail ∧ (∀ c ∈ letters, isPrefixLetter c) ∧
      letters.length ≤ 2 ∧ isQuote quote ∧ literalBody (quote :: tail) = some body ∧
      lexeme = { body with length := letters.length + body.length } := by
  obtain ⟨letters, quote, tail, rfl, hletters, hquote⟩ :=
    exists_quote_of_literal (h ▸ Option.some_ne_none _)
  have hshort : letters.length ≤ 2 := by
    by_contra hlong
    have hstop : run isPrefixLetter (letters ++ quote :: tail) =
        letters.length + run isPrefixLetter (quote :: tail) := run_append hletters
    simp only [literal, hstop] at h
    rw [if_neg (by omega)] at h
    cases h
  rw [literal_append hletters hshort hquote] at h
  obtain ⟨body, hbody, rfl⟩ := Option.map_eq_some_iff.mp h
  exact ⟨letters, quote, tail, body, rfl, hletters, hshort, hquote, hbody, rfl⟩

theorem literalBody_cons (hquote : isQuote quote) :
    literalBody (quote :: cs) =
      if [quote, quote].isPrefixOf cs then
        match tripleEnd? quote (cs.drop 2) with
        | some count => some ⟨.string, count + 3⟩
        | none => some ⟨.garbage, 3⟩
      else
        match quoted quote false cs with
        | (true, count) => some ⟨.string, count + 1⟩
        | (false, _) => none := by
  have hcond : (quote = '\x22' || quote = '\x27') = true := by
    simpa [isQuote] using hquote
  unfold literalBody
  exact if_pos hcond

theorem ne_backslash_of_isQuote (h : isQuote quote) : quote ≠ '\\' := by
  rintro rfl
  exact absurd h (by decide)

/-- Only the characters up to the closing quote matter, unless another quote follows it. -/
theorem literalBody_take_append {count : Nat} (hquote : isQuote quote)
    (h : literalBody (quote :: cs) = some ⟨.string, count⟩)
    (hrest : ∀ c ∈ rest.head?, isQuote c = false) :
    0 < count ∧ count ≤ cs.length + 1 ∧
      literalBody (quote :: (cs.take (count - 1) ++ rest)) = some ⟨.string, count⟩ := by
  rw [literalBody_cons hquote] at h ⊢
  split at h
  · rename_i hleading
    obtain ⟨tail, rfl⟩ := List.isPrefixOf_iff_prefix.mp hleading
    split at h
    · rename_i inner hinner
      cases h
      obtain ⟨hle, htake⟩ := tripleEnd?_take_append hinner rest
      simp only [List.cons_append, List.nil_append, List.drop_succ_cons, List.drop_zero] at hle htake
      have hcut : ([quote, quote] ++ tail).take (inner + 3 - 1) =
          quote :: quote :: tail.take inner := by
        simp
      refine ⟨by omega, by simp; omega, ?_⟩
      rw [hcut, if_pos (by simp)]
      simp [htake]
    · cases h
  · rename_i hleading
    split at h
    · rename_i inner hinner
      cases h
      obtain ⟨hle, htake⟩ := quoted_take_append hinner rest
      refine ⟨by omega, by omega, ?_⟩
      have hsingle : ¬ [quote, quote].isPrefixOf (cs.take inner ++ rest) := by
        intro hpair
        obtain ⟨tail, htail⟩ := List.isPrefixOf_iff_prefix.mp hpair
        -- An empty literal is closed by its second quote, and what follows it is no quote.
        have hinner : inner = 1 := by
          rw [← htail, List.cons_append, quoted_cons (ne_backslash_of_isQuote hquote), if_pos rfl] at htake
          exact (Prod.mk.inj htake).2.symm
        subst hinner
        cases cs with
        | nil => cases hle
        | cons c cs =>
          have hhead : rest = quote :: tail := (List.cons.inj htail).2.symm
          have hnone := hrest quote (by simp [hhead])
          rw [hquote] at hnone
          cases hnone
      rw [Nat.add_sub_cancel, if_neg hsingle, htake]
    · cases h

theorem literal_take_append {count : Nat} (h : literal cs = some ⟨.string, count⟩)
    (hrest : ∀ c ∈ rest.head?, isQuote c = false) :
    0 < count ∧ count ≤ cs.length ∧ literal (cs.take count ++ rest) = some ⟨.string, count⟩ := by
  obtain ⟨letters, quote, tail, ⟨kind, length⟩, rfl, hletters, hshort, hquote, hbody, heq⟩ :=
    exists_of_literal h
  obtain ⟨rfl, rfl⟩ : kind = .string ∧ count = letters.length + length := by
    cases heq
    exact ⟨rfl, rfl⟩
  obtain ⟨hpos, hle, htake⟩ := literalBody_take_append hquote hbody hrest
  obtain ⟨length, rfl⟩ := Nat.exists_eq_add_of_lt hpos
  simp only [Nat.zero_add, Nat.add_sub_cancel] at hle htake
  refine ⟨by omega, by simp; omega, ?_⟩
  have hcut : (letters ++ quote :: tail).take (letters.length + (0 + length + 1)) ++ rest =
      letters ++ quote :: (tail.take length ++ rest) := by
    simp [List.take_append]
  rw [hcut, literal_append hletters hshort hquote, htake]
  simp

theorem isLiteral_of_next (h : next cs = ⟨.string, length⟩) : IsLiteral (cs.take length) := by
  rcases next_cases h (by decide) with ⟨hk, -⟩ | ⟨hk, -⟩ | ⟨-, hliteral⟩ | ⟨hk, -⟩ | ⟨hk, -⟩ | ⟨hk, -⟩ |
    ⟨hk, -⟩ | ⟨hk, -⟩
  · cases hk
  · cases hk
  · have hnone : ∀ c ∈ ([] : List Char).head?, isQuote c = false := by simp
    obtain ⟨-, hle, htake⟩ := literal_take_append hliteral hnone
    rw [List.append_nil] at htake
    rw [IsLiteral, htake, List.length_take, Nat.min_eq_left hle]
  all_goals cases hk

theorem isWordStart_of_isPrefixLetter {c : Char} (h : isPrefixLetter c) : isWordStart c := by
  simp only [isPrefixLetter, Bool.or_eq_true, beq_iff_eq] at h
  rcases h with ((rfl | rfl) | rfl) | rfl <;> decide

/-- The letters before a quote are a word on their own. -/
theorem word_letters {c : Char} (hletters : ∀ d ∈ c :: letters, isPrefixLetter d) (hquote : isQuote quote) :
    word (c :: (letters ++ quote :: rest)) = 1 + letters.length := by
  have hrun : run isWordRest (letters ++ quote :: rest) = letters.length := by
    apply run_append_eq
    · exact fun d hd => isWordRest_of_isPrefixLetter (hletters d (by simp [hd]))
    · intro d hd
      cases hd
      by_contra hword
      rw [not_isQuote_of_isWordRest (by simpa using hword)] at hquote
      cases hquote
  rw [word, if_pos (isWordStart_of_isPrefixLetter (hletters c (by simp))), hrun]

theorem next_literal (h : IsLiteral text) (hrest : ∀ c ∈ rest.head?, isQuote c = false) :
    next (text ++ rest) = ⟨.string, text.length⟩ := by
  obtain ⟨hpos, -, htake⟩ := literal_take_append h hrest
  rw [List.take_length] at htake
  obtain ⟨letters, quote, tail, body, rfl, hletters, -, hquote, hbody, -⟩ := exists_of_literal h
  apply next_eq
  · rw [mem_candidates]
    exact .inr (.inr (.inl htake))
  · intro other hother
    cases letters with
    | nil => exact .inl (Option.some.inj ((literal_of_isQuote hquote hother).symm.trans htake))
    | cons c letters =>
      have hc := isWordStart_of_isPrefixLetter (hletters c (by simp))
      rcases openings_of_not_mem_marks (not_mem_marks_of_isWordStart hc) hother with
        ⟨-, rfl⟩ | ⟨-, hsome⟩ | ⟨hdigit, -⟩
      · -- The word ends at the quote.
        right
        have hcut : (c :: letters ++ quote :: tail) ++ rest =
            c :: (letters ++ quote :: (tail ++ rest)) := by
          simp
        change word ((c :: letters ++ quote :: tail) ++ rest) < _
        rw [hcut, word_letters hletters hquote]
        simp
        omega
      · exact .inl (Option.some.inj (hsome.symm.trans htake))
      · rw [not_isDigit_of_isWordStart hc] at hdigit
        cases hdigit

end Literals

end Token.Scan

end SqlLayout
