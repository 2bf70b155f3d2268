import SqlLayout.Proofs.Token.Number
import SqlLayout.Text.Blank

/-!
# Symbols, Comments and Blanks

A symbol is a token of its own unless the character after it makes a longer symbol, a number or the start
of a comment. A comment up to the end of its line needs that end after it; a block comment carries its own.
-/

namespace SqlLayout.Token.Scan

section Symbols

/-- Whether a symbol would go on with a character. -/
def extendsSymbol (text : List Char) (c : Char) : Bool :=
  Kind.symbols.any (fun symbol => (text ++ [c]).isPrefixOf symbol.2.toList)
    || (text == ['.'] && c.isDigit) || (text == ['-'] && c == '-') || (text == ['/'] && c == '*')

theorem symbol_injective : ∀ symbol ∈ Kind.symbols, ∀ other ∈ Kind.symbols,
    symbol.2 = other.2 → symbol = other := by
  decide

/-- Two symbols that the same characters start with, unless a character after the first goes on with it. -/
theorem symbol_eq_or_length_lt {symbol other : Kind × String} {rest : List Char}
    (hmem : symbol ∈ Kind.symbols) (hother : other ∈ Kind.symbols)
    (hleading : other.2.toList <+: symbol.2.toList ++ rest)
    (h : ∀ c ∈ rest.head?, extendsSymbol symbol.2.toList c = false) :
    other = symbol ∨ other.2.length < symbol.2.length := by
  rcases Nat.lt_trichotomy other.2.length symbol.2.length with hlt | heq | hgt
  · exact .inr hlt
  · left
    have htext : other.2.toList = symbol.2.toList :=
      (List.prefix_of_prefix_length_le hleading (List.prefix_append _ _)
        (by rw [String.length_toList, String.length_toList, heq])).eq_of_length
        (by rw [String.length_toList, String.length_toList, heq])
    exact symbol_injective other hother symbol hmem (String.toList_inj.mp htext)
  · exfalso
    cases rest with
    | nil =>
      have hle := hleading.length_le
      rw [List.append_nil, String.length_toList, String.length_toList] at hle
      omega
    | cons c rest =>
      have hlonger : symbol.2.toList ++ [c] <+: other.2.toList := by
        apply List.prefix_of_prefix_length_le _ hleading
        · rw [List.length_append, String.length_toList, String.length_toList]
          exact hgt
        · exact ⟨rest, by simp⟩
      have hextends : extendsSymbol symbol.2.toList c := by
        have hany : Kind.symbols.any fun other =>
            (symbol.2.toList ++ [c]).isPrefixOf other.2.toList :=
          List.any_eq_true.mpr ⟨other, hother, List.isPrefixOf_iff_prefix.mpr hlonger⟩
        simp [extendsSymbol, hany]
      rw [h c rfl] at hextends
      cases hextends

/-- A symbol that no other symbol, number or comment starts with goes on with nothing. -/
theorem extendsSymbol_of_alone {first : Char} (hfirst : first ≠ '.' ∧ first ≠ '-' ∧ first ≠ '/')
    (halone : ∀ symbol ∈ Kind.symbols, symbol.2.toList.head? = some first → symbol.2.toList = [first])
    (c : Char) : extendsSymbol [first] c = false := by
  have hany : Kind.symbols.any (fun symbol => ([first] ++ [c]).isPrefixOf symbol.2.toList) = false := by
    rw [List.any_eq_false]
    intro symbol hsymbol hleading
    obtain ⟨tail, htail⟩ := List.isPrefixOf_iff_prefix.mp hleading
    have := halone symbol hsymbol (by simp [← htail])
    simp [← htail] at this
  rw [extendsSymbol, hany]
  simp [hfirst]

/-- The symbols that start like a number or a comment are single characters. -/
theorem symbol_of_head : ∀ symbol ∈ Kind.symbols, ∀ c ∈ ['.', '#', '-', '/'],
    symbol.2.toList.head? = some c → symbol.2.toList = [c] ∧ c ≠ '#' := by
  decide

theorem symbol_head : ∀ symbol ∈ Kind.symbols, ∀ c ∈ symbol.2.toList.head?,
    isWordStart c = false ∧ c ≠ backquote ∧ isPrefixLetter c = false ∧ isQuote c = false ∧
      c.isDigit = false ∧ isGap c = false := by
  decide

theorem next_symbol {symbol : Kind × String} {rest : List Char} (hmem : symbol ∈ Kind.symbols)
    (h : ∀ c ∈ rest.head?, extendsSymbol symbol.2.toList c = false) :
    next (symbol.2.toList ++ rest) = ⟨symbol.1, symbol.2.length⟩ := by
  obtain ⟨c, cs, htext⟩ := List.exists_cons_of_ne_nil (symbol_ne_nil symbol hmem)
  have hc : c ∈ symbol.2.toList.head? := by simp [htext]
  have hpos : 0 < symbol.2.length := by
    rw [← String.length_toList, htext]
    simp
  obtain ⟨hstart, hbackquote, hletter, hquote, hdigit, hgap⟩ := symbol_head symbol hmem c hc
  apply next_eq
  · rw [mem_candidates]
    exact .inr (.inr (.inr (.inr (.inr (.inr (.inr ⟨symbol, hmem, List.prefix_append _ _, rfl⟩))))))
  · intro other hother
    have hsingle := symbol_of_head symbol hmem c
    rw [htext, List.cons_append] at hother
    rcases openings hother with
      ⟨hs, -⟩ | ⟨hs, -⟩ | ⟨hs | hs, -⟩ | ⟨hs | rfl, rfl⟩ | ⟨hs, -⟩ | ⟨rfl | rfl, rfl⟩ | ⟨rfl, rfl⟩ |
        ⟨-, longer, hlonger, hleading, rfl⟩
    · rw [hstart] at hs
      cases hs
    · exact absurd hs hbackquote
    · rw [hletter] at hs
      cases hs
    · rw [hquote] at hs
      cases hs
    · rw [hdigit] at hs
      cases hs
    · -- A point before no digit starts no number.
      right
      obtain ⟨hsymbol, -⟩ := hsingle (by simp) hc
      obtain rfl : cs = [] := by simpa [htext] using hsymbol
      have hrest : ∀ c ∈ rest.head?, c.isDigit = false := by
        intro c hc
        have hends := h c hc
        simp only [extendsSymbol, hsymbol, Bool.or_eq_false_iff] at hends
        simpa using hends.1.1.2
      have hnumber : number ('.' :: rest) = 0 := by
        by_contra hne
        have htwo := two_le_number_of_point hne
        have hzero : hexadecimal ('.' :: rest) = 0 := hexadecimal_cons_of_ne (by decide)
        have hfraction : fraction ('.' :: rest) = 1 := by rw [fraction, run_eq_zero hrest]
        have hdecimal : decimal ('.' :: rest) = 0 := rfl
        simp [number, hzero, hdecimal, pointFirst_eq, hfraction] at hne
      exact hnumber ▸ hpos
    · rw [hgap] at hs
      cases hs
    · exact absurd rfl (hsingle (by simp) hc).2
    · right
      obtain ⟨hsymbol, -⟩ := hsingle (by simp) hc
      obtain rfl : cs = [] := by simpa [htext] using hsymbol
      have hcomment : lineComment ('-' :: rest) = 0 := by
        unfold lineComment
        split
        · rename_i heq
          exact absurd (List.cons.inj heq).1 (by decide)
        · rename_i heq
          have hends := h '-' (by simp [(List.cons.inj heq).2])
          simp [extendsSymbol, hsymbol] at hends
        · rfl
      exact hcomment ▸ hpos
    · right
      obtain ⟨hsymbol, -⟩ := hsingle (by simp) hc
      obtain rfl : cs = [] := by simpa [htext] using hsymbol
      have hcomment : blockComment ('/' :: rest) = 0 := by
        unfold blockComment
        split
        · rename_i heq
          have hends := h '*' (by simp [(List.cons.inj heq).2])
          simp [extendsSymbol, hsymbol] at hends
        · rfl
      exact hcomment ▸ hpos
    · rw [← List.cons_append, ← htext] at hleading
      rcases symbol_eq_or_length_lt hmem hlonger hleading h with rfl | hlt
      · exact .inl rfl
      · exact .inr hlt

end Symbols

section Comments

variable {cs text rest : List Char} {length : Nat}

/-- A number sign or two dashes and the rest of a line. -/
def IsLineComment (text : List Char) : Prop :=
  ∃ opener body, text = opener ++ body ∧ (opener = ['#'] ∨ opener = ['-', '-']) ∧
    ∀ c ∈ body, c ≠ '\n'

/-- Everything from an opener up to the first closer after it. -/
def IsBlockComment (text : List Char) : Prop :=
  ∃ body, text = '/' :: '*' :: body ∧ blockEnd? body = some body.length

theorem next_lineComment (h : IsLineComment text) (hrest : ∀ c ∈ rest.head?, c = '\n') :
    next (text ++ rest) = ⟨.lineComment, text.length⟩ := by
  obtain ⟨opener, body, rfl, hopener, hbody⟩ := h
  have hrun : run (· ≠ '\n') (body ++ rest) = body.length := by
    apply run_append_eq
    · exact fun c hc => by simpa using hbody c hc
    · exact fun c hc => by simpa using hrest c hc
  have hcomment : lineComment (opener ++ body ++ rest) = (opener ++ body).length := by
    rcases hopener with rfl | rfl
    · change 1 + run (· ≠ '\n') (body ++ rest) = _
      rw [hrun, List.length_append, List.length_singleton]
    · change 2 + run (· ≠ '\n') (body ++ rest) = _
      rw [hrun, List.length_append]
      rfl
  apply next_eq
  · rw [mem_candidates, hcomment]
    exact .inr (.inr (.inr (.inr (.inr (.inl ⟨by rcases hopener with rfl | rfl <;> simp, rfl⟩)))))
  · intro other hother
    rcases hopener with rfl | rfl
    · rcases openings hother with
        ⟨hs, -⟩ | ⟨hs, -⟩ | ⟨hs, -⟩ | ⟨hs, -⟩ | ⟨hs, -⟩ | ⟨-, rfl⟩ | ⟨hs, -⟩ | ⟨hs, -⟩
      · exact absurd hs (by decide)
      · exact absurd hs (by decide)
      · exact absurd hs (by decide)
      · exact absurd hs (by decide)
      · exact absurd hs (by decide)
      · exact .inl (congrArg _ hcomment)
      · exact absurd hs (by decide)
      · exact absurd hs (by decide)
    · rcases openings hother with
        ⟨hs, -⟩ | ⟨hs, -⟩ | ⟨hs, -⟩ | ⟨hs, -⟩ | ⟨hs, -⟩ | ⟨-, rfl⟩ | ⟨hs, -⟩ |
          ⟨-, symbol, hmem, hleading, rfl⟩
      · exact absurd hs (by decide)
      · exact absurd hs (by decide)
      · exact absurd hs (by decide)
      · exact absurd hs (by decide)
      · exact absurd hs (by decide)
      · exact .inl (congrArg _ hcomment)
      · exact absurd hs (by decide)
      · -- A lone dash is shorter than two of them.
        right
        obtain ⟨tail, htail⟩ := hleading
        obtain ⟨c, ds, htext⟩ := List.exists_cons_of_ne_nil (symbol_ne_nil symbol hmem)
        rw [htext, List.cons_append] at htail
        have hhead : symbol.2.toList.head? = some '-' := by rw [htext, (List.cons.inj htail).1]; rfl
        have hsingle := (symbol_of_head symbol hmem '-' (by simp) hhead).1
        have hlength : symbol.2.length = 1 := by
          rw [← String.length_toList, hsingle]
          rfl
        simp [hlength]

theorem isLineComment_of_next (h : next cs = ⟨.lineComment, length⟩) :
    IsLineComment (cs.take length) := by
  rcases next_cases h (by decide) with ⟨hk, -⟩ | ⟨hk, -⟩ | ⟨hk, -⟩ | ⟨hk, -⟩ | ⟨hk, -⟩ |
    ⟨-, hcomment, hne⟩ | ⟨hk, -⟩ | ⟨hk, -⟩
  case inr.inr.inr.inr.inr.inl =>
    unfold lineComment at hcomment
    split at hcomment
    · rename_i cs
      refine ⟨['#'], cs.take (run (· ≠ '\n') cs), ?_, .inl rfl, ?_⟩
      · rw [← hcomment, Nat.add_comm]
        rfl
      · exact fun c hc => by simpa using mem_take_run hc
    · rename_i cs
      refine ⟨['-', '-'], cs.take (run (· ≠ '\n') cs), ?_, .inr rfl, ?_⟩
      · rw [← hcomment, Nat.add_comm]
        rfl
      · exact fun c hc => by simpa using mem_take_run hc
    · exact absurd hcomment.symm hne
  all_goals cases hk

theorem blockEnd?_star {c : Char} (hc : c ≠ '/') (cs : List Char) :
    blockEnd? ('*' :: c :: cs) = (blockEnd? cs).map (· + 2) := by
  rw [blockEnd?]
  exact hc

theorem blockEnd?_cons {c : Char} (hc : c ≠ '*') (cs : List Char) :
    blockEnd? (c :: cs) = (blockEnd? cs).map (· + 1) := by
  rw [blockEnd?]
  all_goals simp [hc]

/-- Only the characters up to the closer matter. -/
theorem blockEnd?_take_append {count : Nat} (h : blockEnd? cs = some count) (rest : List Char) :
    count ≤ cs.length ∧ blockEnd? (cs.take count ++ rest) = some count := by
  induction hlength : cs.length using Nat.strong_induction_on generalizing cs count with
  | _ length ih =>
    subst hlength
    cases cs with
    | nil => cases h
    | cons c cs =>
      by_cases hc : c = '*'
      · subst hc
        cases cs with
        | nil => cases h
        | cons d cs =>
          by_cases hd : d = '/'
          · subst hd
            cases h
            exact ⟨by simp, rfl⟩
          · rw [blockEnd?_star hd] at h
            obtain ⟨inner, hinner, rfl⟩ := Option.map_eq_some_iff.mp h
            obtain ⟨hle, htake⟩ := ih cs.length (by simp only [List.length_cons]; omega) hinner rfl
            refine ⟨by simpa using hle, ?_⟩
            rw [List.take_succ_cons, List.take_succ_cons, List.cons_append, List.cons_append,
              blockEnd?_star hd, htake]
            rfl
      · rw [blockEnd?_cons hc] at h
        obtain ⟨inner, hinner, rfl⟩ := Option.map_eq_some_iff.mp h
        obtain ⟨hle, htake⟩ := ih cs.length (by simp) hinner rfl
        refine ⟨by simpa using hle, ?_⟩
        rw [List.take_succ_cons, List.cons_append, blockEnd?_cons hc, htake]
        rfl

/-- At a slash there are only a comment and the slash itself. -/
theorem openings_slash {lexeme : Lexeme} (h : lexeme ∈ candidates ('/' :: cs)) :
    lexeme = ⟨.blockComment, blockComment ('/' :: cs)⟩ ∨ lexeme = ⟨.slash, 1⟩ := by
  rcases openings h with
    ⟨hs, -⟩ | ⟨hs, -⟩ | ⟨hs, -⟩ | ⟨hs, -⟩ | ⟨hs, -⟩ | ⟨hs, -⟩ | ⟨-, hlexeme⟩ |
      ⟨-, symbol, hmem, hleading, rfl⟩
  · exact absurd hs (by decide)
  · exact absurd hs (by decide)
  · exact absurd hs (by decide)
  · exact absurd hs (by decide)
  · exact absurd hs (by decide)
  · exact absurd hs (by decide)
  · exact .inl hlexeme
  · obtain ⟨tail, htail⟩ := hleading
    obtain ⟨c, ds, htext⟩ := List.exists_cons_of_ne_nil (symbol_ne_nil symbol hmem)
    rw [htext, List.cons_append] at htail
    have hhead : symbol.2.toList.head? = some '/' := by rw [htext, (List.cons.inj htail).1]; rfl
    have hsingle : symbol.2.toList = "/".toList := (symbol_of_head symbol hmem '/' (by simp) hhead).1
    have hsymbol : symbol = (.slash, "/") :=
      symbol_injective symbol hmem _ (by decide) (String.toList_inj.mp hsingle)
    exact .inr (by rw [hsymbol]; rfl)

theorem next_blockComment (h : IsBlockComment text) (rest : List Char) :
    next (text ++ rest) = ⟨.blockComment, text.length⟩ := by
  obtain ⟨body, rfl, hbody⟩ := h
  obtain ⟨-, hend⟩ := blockEnd?_take_append hbody rest
  rw [List.take_length] at hend
  rw [List.cons_append, List.cons_append]
  have hcomment : blockComment ('/' :: '*' :: (body ++ rest)) = ('/' :: '*' :: body).length := by
    rw [blockComment, hend]
    rfl
  apply next_eq
  · rw [mem_candidates, hcomment]
    exact .inr (.inr (.inr (.inr (.inr (.inr (.inl ⟨by simp, rfl⟩))))))
  · intro other hother
    obtain rfl | rfl := openings_slash hother
    · exact .inl (congrArg _ hcomment)
    · exact .inr (by simp)

/-- An opener that nothing closes is a slash. -/
theorem next_opened {body : List Char} (h : blockEnd? body = none) :
    next ('/' :: '*' :: body) = ⟨.slash, 1⟩ := by
  have hcomment : blockComment ('/' :: '*' :: body) = 0 := by
    rw [blockComment, h]
    rfl
  apply next_eq
  · rw [mem_candidates]
    refine .inr (.inr (.inr (.inr (.inr (.inr (.inr ⟨(.slash, "/"), by decide, ?_, rfl⟩))))))
    exact ⟨'*' :: body, rfl⟩
  · intro other hother
    obtain rfl | rfl := openings_slash hother
    · exact .inr (by simp [hcomment])
    · exact .inl rfl

theorem isBlockComment_of_next (h : next cs = ⟨.blockComment, length⟩) :
    IsBlockComment (cs.take length) := by
  rcases next_cases h (by decide) with ⟨hk, -⟩ | ⟨hk, -⟩ | ⟨hk, -⟩ | ⟨hk, -⟩ | ⟨hk, -⟩ | ⟨hk, -⟩ |
    ⟨-, hcomment, hne⟩ | ⟨hk, -⟩
  case inr.inr.inr.inr.inr.inr.inl =>
    unfold blockComment at hcomment
    split at hcomment
    · rename_i cs
      cases hend : blockEnd? cs with
      | none =>
        rw [hend] at hcomment
        exact absurd hcomment.symm hne
      | some count =>
        rw [hend] at hcomment
        obtain ⟨hle, htake⟩ := blockEnd?_take_append hend []
        rw [List.append_nil] at htake
        refine ⟨cs.take count, ?_, ?_⟩
        · rw [← hcomment]
          rfl
        · rw [htake, List.length_take, Nat.min_eq_left hle]
    · exact absurd hcomment.symm hne
  all_goals cases hk

theorem blockEnd?_star_slash (cs : List Char) : blockEnd? ('*' :: '/' :: cs) = some 2 := rfl

/-- A block comment ends with its closer. -/
theorem getLast?_of_blockEnd? (h : blockEnd? cs = some cs.length) : cs.getLast? = some '/' := by
  induction hlength : cs.length using Nat.strong_induction_on generalizing cs with
  | _ length ih =>
    subst hlength
    cases cs with
    | nil => cases h
    | cons c cs =>
      by_cases hc : c = '*'
      · subst hc
        cases cs with
        | nil => cases h
        | cons d cs =>
          by_cases hd : d = '/'
          · subst hd
            have hnil : cs = [] := by simpa [blockEnd?_star_slash] using h
            simp [hnil]
          · rw [blockEnd?_star hd] at h
            obtain ⟨inner, hinner, heq⟩ := Option.map_eq_some_iff.mp h
            obtain rfl : inner = cs.length := by simpa using heq
            have hlast := ih cs.length (by simp only [List.length_cons]; omega) hinner rfl
            simp [List.getLast?_cons, hlast]
      · rw [blockEnd?_cons hc] at h
        obtain ⟨inner, hinner, heq⟩ := Option.map_eq_some_iff.mp h
        obtain rfl : inner = cs.length := by simpa using heq
        have hlast := ih cs.length (by simp) hinner rfl
        simp [List.getLast?_cons, hlast]

theorem IsBlockComment.trimEnd {text : String} (h : IsBlockComment text.toList) :
    Text.trimEnd text = text := by
  obtain ⟨body, htext, hbody⟩ := h
  have hlast := getLast?_of_blockEnd? hbody
  have hslash : text.toList.reverse.head? = some '/' := by
    rw [List.head?_reverse, htext]
    simp [List.getLast?_cons, hlast]
  have hdrop : text.toList.reverse.dropWhile Text.isBlank = text.toList.reverse := by
    cases hcase : text.toList.reverse with
    | nil => rfl
    | cons c cs =>
      rw [hcase] at hslash
      cases hslash
      exact List.dropWhile_cons_of_neg (by decide)
  rw [Text.trimEnd, hdrop, List.reverse_reverse, String.ofList_toList]

theorem IsLineComment.trimEnd {text : String} (h : IsLineComment text.toList) :
    IsLineComment (Text.trimEnd text).toList := by
  obtain ⟨opener, body, htext, hopener, hbody⟩ := h
  have hkept : (Text.trimEnd text).toList =
      opener ++ (body.reverse.dropWhile Text.isBlank).reverse := by
    have hopenerDrop : opener.reverse.dropWhile Text.isBlank = opener.reverse := by
      rcases hopener with rfl | rfl <;> decide
    rw [Text.trimEnd, htext, List.reverse_append, List.dropWhile_append, hopenerDrop,
      String.toList_ofList]
    split
    · rename_i hempty
      have hnil : body.reverse.dropWhile Text.isBlank = [] := by simpa using hempty
      simp [hnil]
    · simp
  rw [hkept]
  refine ⟨opener, _, rfl, hopener, fun c hc => hbody c ?_⟩
  have hmem := (List.dropWhile_sublist _).subset (List.mem_reverse.mp hc)
  exact List.mem_reverse.mp hmem

end Comments

section Blanks

theorem next_gap {blanks rest : List Char} (hblanks : ∀ c ∈ blanks, isGap c) (hne : blanks ≠ [])
    (h : ∀ c ∈ rest.head?, isGap c = false) :
    next (blanks ++ rest) = ⟨.whitespace, blanks.length⟩ := by
  have hgap : gap (blanks ++ rest) = blanks.length := run_append_eq hblanks h
  obtain ⟨c, blanks, rfl⟩ := List.exists_cons_of_ne_nil hne
  have hc : isGap c := hblanks c (by simp)
  simp only [isGap, Bool.or_eq_true, beq_iff_eq] at hc
  apply next_eq
  · rw [mem_candidates, hgap]
    exact .inr (.inr (.inr (.inr (.inl ⟨by simp, rfl⟩))))
  · intro other hother
    left
    rcases openings hother with
      ⟨hs, -⟩ | ⟨hs, -⟩ | ⟨hs, -⟩ | ⟨hs, -⟩ | ⟨-, rfl⟩ | ⟨hs, -⟩ | ⟨hs, -⟩ | ⟨hs, -⟩
    case inr.inr.inr.inr.inl => exact congrArg _ hgap
    all_goals rcases hc with (((rfl | rfl) | rfl) | rfl) | rfl <;> exact absurd hs (by decide)

end Blanks

end SqlLayout.Token.Scan
