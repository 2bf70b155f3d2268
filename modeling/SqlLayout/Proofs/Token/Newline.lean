import SqlLayout.Proofs.Token.Stream
import SqlLayout.Proofs.Token.Tiling

/-!
# Tokens before a Newline

A newline goes on with no token but a literal of three quotes, a backquoted name or a block comment that has
been left open. The first two are garbage where nothing closes them, and a block comment is then a slash and a
star. So the tokens of a text without garbage and without a slash before a star stay what they are when a
newline and any other text come after them.
-/

namespace SqlLayout

namespace Token.Scan

section Patterns

variable {cs tail : List Char}

theorem isPrefixOf_append_newline {text : List Char} (h : '\n' ∉ text) :
    text.isPrefixOf (cs ++ '\n' :: tail) = text.isPrefixOf cs := by
  induction text generalizing cs with
  | nil => simp
  | cons c text ih =>
    have hc : c ≠ '\n' := fun heq => h (heq ▸ List.mem_cons_self)
    have htext : '\n' ∉ text := fun hmem => h (List.mem_cons_of_mem c hmem)
    cases cs with
    | nil =>
      rw [List.nil_append, List.isPrefixOf_cons_cons, beq_false_of_ne hc, Bool.false_and]
      rfl
    | cons d cs => rw [List.cons_append, List.isPrefixOf_cons_cons, List.isPrefixOf_cons_cons, ih htext]

theorem run_append_newline {p : Char → Bool} (h : p '\n' = false) : run p (cs ++ '\n' :: tail) = run p cs :=
  run_append_of_head? (by simpa using h)

/-- A run that ends before the text does. -/
theorem run_append_of_exists {p : Char → Bool} (h : ∃ c ∈ cs, p c = false) (rest : List Char) :
    run p (cs ++ rest) = run p cs := by
  induction cs with
  | nil => simp at h
  | cons c cs ih =>
    cases hc : p c with
    | false => simp [run, hc]
    | true =>
      have hrest := ih (by simpa [hc] using h)
      simp only [run] at hrest
      simp [run, hc, hrest]

theorem word_append_newline : word (cs ++ '\n' :: tail) = word cs := by
  cases cs with
  | nil => rfl
  | cons c cs => rw [List.cons_append, word, word, run_append_newline (by decide)]

theorem lineComment_append_newline : lineComment (cs ++ '\n' :: tail) = lineComment cs := by
  have hline (cs : List Char) : run (· ≠ '\n') (cs ++ '\n' :: tail) = run (· ≠ '\n') cs :=
    run_append_newline (by decide)
  rcases cs with _ | ⟨c, cs⟩
  · rfl
  · by_cases hsharp : c = '#'
    · subst hsharp
      exact congrArg (1 + ·) (hline cs)
    · by_cases hdash : c = '-'
      · subst hdash
        rcases cs with _ | ⟨d, cs⟩
        · rfl
        · by_cases hd : d = '-'
          · subst hd
            exact congrArg (2 + ·) (hline cs)
          · simp [lineComment, hd]
      · simp [lineComment, hsharp, hdash]

theorem quoted_append {quote : Char} {multiline : Bool} {count : Nat}
    (h : quoted quote multiline cs = (true, count)) (rest : List Char) :
    quoted quote multiline (cs ++ rest) = (true, count) := by
  have htake := (quoted_take_append h (cs.drop count ++ rest)).2
  rwa [← List.append_assoc, List.take_append_drop] at htake

theorem tripleEnd?_append {quote : Char} {count : Nat} (h : tripleEnd? quote cs = some count)
    (rest : List Char) : tripleEnd? quote (cs ++ rest) = some count := by
  have htake := (tripleEnd?_take_append h (cs.drop count ++ rest)).2
  rwa [← List.append_assoc, List.take_append_drop] at htake

theorem blockEnd?_append {count : Nat} (h : blockEnd? cs = some count) (rest : List Char) :
    blockEnd? (cs ++ rest) = some count := by
  have htake := (blockEnd?_take_append h (cs.drop count ++ rest)).2
  rwa [← List.append_assoc, List.take_append_drop] at htake

/-- A quote that is not closed on its line is not closed on a later one. -/
theorem quoted_append_newline {quote : Char} (hquote : quote ≠ '\n') (h : (quoted quote false cs).1 = false) :
    (quoted quote false (cs ++ '\n' :: tail)).1 = false := by
  fun_induction quoted quote false cs with
  | case1 => rw [List.nil_append, quoted_cons (by decide), if_neg hquote.symm, if_pos (by decide)]
  | case2 => rw [List.cons_append, List.nil_append, quoted_backslash, if_pos rfl]
  | case3 cs => rw [List.cons_append, List.cons_append, quoted_backslash, if_pos rfl]
  | case4 c cs hc closed count hrest ih =>
    rw [List.cons_append, List.cons_append, quoted_backslash, if_neg hc]
    exact ih (by rw [hrest]; exact h)
  | case5 cs hslash => cases h
  | case6 c cs hslash hlast hc hline =>
    have hplain : c ≠ '\\' := by
      rintro rfl
      cases hline
    rw [List.cons_append, quoted_cons hplain, if_neg hc, if_pos hline]
  | case7 c cs hslash hlast hc hline closed count hrest ih =>
    have hplain : c ≠ '\\' := by
      rintro rfl
      cases cs with
      | nil => exact hslash rfl rfl
      | cons d cs => exact hlast d cs rfl rfl
    rw [List.cons_append, quoted_cons hplain, if_neg hc, if_neg hline]
    exact ih (by rw [hrest]; exact h)

theorem blockComment_append_newline (h : ∀ body, cs = '/' :: '*' :: body → blockEnd? body ≠ none) :
    blockComment (cs ++ '\n' :: tail) = blockComment cs := by
  rcases cs with _ | ⟨c, _ | ⟨d, cs⟩⟩
  · rfl
  · by_cases hslash : c = '/'
    · subst hslash
      rfl
    · simp [blockComment, hslash]
  · by_cases hopen : c = '/' ∧ d = '*'
    · obtain ⟨rfl, rfl⟩ := hopen
      obtain ⟨count, hcount⟩ := Option.ne_none_iff_exists'.mp (h cs rfl)
      rw [List.cons_append, List.cons_append, blockComment, blockComment, hcount, blockEnd?_append hcount]
    · have hnone (rest : List Char) : blockComment (c :: d :: rest) = 0 := by
        unfold blockComment
        split
        · rename_i heq
          cases heq
          exact absurd ⟨rfl, rfl⟩ hopen
        · rfl
      rw [List.cons_append, List.cons_append, hnone, hnone]

theorem literalBody_append_newline (h : literalBody cs ≠ some ⟨.garbage, 3⟩) :
    literalBody (cs ++ '\n' :: tail) = literalBody cs := by
  cases cs with
  | nil => rfl
  | cons c cs =>
    cases hquote : isQuote c with
    | false =>
      have hnone : ¬(c = '\x22' || c = '\x27') = true := by simpa [isQuote] using hquote
      rw [List.cons_append, literalBody, literalBody, if_neg hnone, if_neg hnone]
    | true =>
      have hc : c ≠ '\n' := by
        rintro rfl
        cases hquote
      rw [literalBody_cons hquote] at h
      rw [List.cons_append, literalBody_cons hquote, literalBody_cons hquote,
        isPrefixOf_append_newline (by simp [hc.symm])]
      split
      · rename_i hleading
        obtain ⟨rest, rfl⟩ := List.isPrefixOf_iff_prefix.mp hleading
        rw [if_pos hleading] at h
        simp only [List.cons_append, List.nil_append, List.drop_succ_cons, List.drop_zero] at h ⊢
        cases hend : tripleEnd? c rest with
        | none => simp [hend] at h
        | some count => rw [tripleEnd?_append hend]
      · cases hclosed : quoted c false cs with
        | mk closed count =>
          cases closed with
          | true => rw [quoted_append hclosed]
          | false =>
            have hopen := @quoted_append_newline cs tail c hc (congrArg Prod.fst hclosed)
            cases hlonger : quoted c false (cs ++ '\n' :: tail) with
            | mk closed' count' =>
              rw [hlonger] at hopen
              cases hopen
              rfl

theorem literal_append_newline (h : ∀ length, literal cs ≠ some ⟨.garbage, length⟩) :
    literal (cs ++ '\n' :: tail) = literal cs := by
  unfold literal at h ⊢
  rw [run_append_newline (by decide)]
  dsimp only at h ⊢
  split
  · rename_i hshort
    rw [List.drop_append_of_le_length (run_le_length cs), literalBody_append_newline]
    intro hbody
    rw [if_pos hshort, hbody] at h
    exact h _ rfl
  · rfl

end Patterns

section Lexemes

variable {cs tail : List Char}

theorem length_le_next {lexeme : Lexeme} (h : lexeme ∈ candidates cs) : lexeme.length ≤ (next cs).length := by
  unfold next
  rcases longest_spec (candidates cs) with ⟨hnil, -⟩ | ⟨found, -, hsome, hmax⟩
  · rw [hnil] at h
    cases h
  · rw [hsome]
    exact hmax lexeme h

/-- Three quotes that nothing closes are garbage, and take more than the letters before them. -/
theorem kind_next_of_literal {length : Nat} (h : literal cs = some ⟨.garbage, length⟩) :
    (next cs).kind = .garbage := by
  by_contra hkind
  have hmem := next_mem_candidates hkind
  have hlength := length_le_next (mem_candidates.mpr (.inr (.inr (.inl h))))
  have hliteral {lexeme : Lexeme} (hsome : literal cs = some lexeme) (heq : next cs = lexeme) : False := by
    rw [h] at hsome
    cases hsome
    exact hkind (congrArg Lexeme.kind heq)
  obtain ⟨letters, quote, rest, body, rfl, hletters, -, hquote, hbody, heq⟩ := exists_of_literal h
  cases letters with
  | nil => exact hliteral (literal_of_isQuote hquote hmem) rfl
  | cons c letters =>
    have hstart := isWordStart_of_isPrefixLetter (hletters c List.mem_cons_self)
    rcases openings_of_not_mem_marks (not_mem_marks_of_isWordStart hstart) hmem with
      ⟨-, hword⟩ | ⟨-, hsome⟩ | ⟨hdigit, -⟩
    · -- The word of the letters is shorter than the garbage, which takes the quotes as well.
      have hpos := (literalBody_length hquote hbody).1
      have hlonger : length = (c :: letters).length + body.length := congrArg Lexeme.length heq
      have hshort : (next (c :: letters ++ quote :: rest)).length = 1 + letters.length :=
        (congrArg Lexeme.length hword).trans (word_letters hletters hquote)
      rw [List.length_cons] at hlonger
      rw [hshort] at hlength
      dsimp only at hlength
      omega
    · exact hliteral hsome rfl
    · rw [not_isDigit_of_isWordStart hstart] at hdigit
      cases hdigit

theorem quotedIdent_append_newline (hne : cs ≠ []) (h : (next cs).kind ≠ .garbage) :
    quotedIdent (cs ++ '\n' :: tail) = quotedIdent cs := by
  obtain ⟨c, cs, rfl⟩ := List.exists_cons_of_ne_nil hne
  by_cases hc : c = backquote
  · subst hc
    cases hclosed : quoted backquote true cs with
    | mk closed count =>
      cases closed with
      | true =>
        rw [List.cons_append, quotedIdent, quotedIdent, if_pos rfl, if_pos rfl, hclosed,
          quoted_append hclosed]
      | false =>
        -- Nothing else starts with a backquote, so one that is left open is garbage.
        exfalso
        have hnone : quotedIdent (backquote :: cs) = 0 := by rw [quotedIdent, if_pos rfl, hclosed]
        have hbounds := next_bounds backquote cs
        rcases openings (next_mem_candidates h) with
          ⟨hs, -⟩ | ⟨-, heq⟩ | ⟨hs | hs, -⟩ | ⟨hs | hs, -⟩ | ⟨hs, -⟩ | ⟨hs | hs, -⟩ | ⟨hs, -⟩ | ⟨hs, -⟩
        · exact absurd hs (by decide)
        · rw [heq, hnone] at hbounds
          exact absurd hbounds.1 (Nat.lt_irrefl 0)
        all_goals exact absurd hs (by decide)
  · rw [List.cons_append, quotedIdent, quotedIdent, if_neg hc, if_neg hc]

/-- Nothing new matches before a newline, and nothing stops matching. -/
theorem candidates_append_newline (hne : cs ≠ []) (hkind : (next cs).kind ≠ .garbage)
    (hgap : ∃ c ∈ cs, isGap c = false) (hopen : ∀ body, cs = '/' :: '*' :: body → blockEnd? body ≠ none) :
    candidates (cs ++ '\n' :: tail) = candidates cs := by
  have hliteral : ∀ length, literal cs ≠ some ⟨.garbage, length⟩ :=
    fun length h => hkind (kind_next_of_literal h)
  have hsymbols : ∀ symbol ∈ Kind.symbols, '\n' ∉ symbol.2.toList := by decide
  have hsymbol : Kind.symbols.filterMap (symbol? (cs ++ '\n' :: tail)) =
      Kind.symbols.filterMap (symbol? cs) := by
    apply List.filterMap_congr
    intro symbol hmem
    rw [symbol?, symbol?, isPrefixOf_append_newline (hsymbols symbol hmem)]
  rw [candidates, candidates, word_append_newline, quotedIdent_append_newline hne hkind,
    literal_append_newline hliteral, number_append hne (by simp; decide), gap, gap,
    run_append_of_exists hgap, lineComment_append_newline, blockComment_append_newline hopen, hsymbol]

theorem next_append_newline (hne : cs ≠ []) (hkind : (next cs).kind ≠ .garbage)
    (hgap : ∃ c ∈ cs, isGap c = false) (hopen : ∀ body, cs = '/' :: '*' :: body → blockEnd? body ≠ none) :
    next (cs ++ '\n' :: tail) = next cs := by
  have hcandidates := @candidates_append_newline cs tail hne hkind hgap hopen
  rcases longest_spec (candidates cs) with ⟨-, hnone⟩ | ⟨lexeme, -, hsome, -⟩
  · rw [next, hnone] at hkind
    exact absurd rfl hkind
  · rw [next, next, hcandidates, hsome]
    rfl

/-- A block comment that nothing closes starts with a slash of its own. -/
theorem next_slash {body : List Char} (h : blockEnd? body = none) :
    next ('/' :: '*' :: body) = ⟨.slash, 1⟩ := by
  have hslash : (Kind.slash, "/") ∈ Kind.symbols := by decide
  apply next_eq
  · rw [mem_candidates]
    exact .inr (.inr (.inr (.inr (.inr (.inr (.inr ⟨_, hslash, ⟨'*' :: body, rfl⟩, rfl⟩))))))
  · intro other hother
    rcases openings hother with
      ⟨hs, -⟩ | ⟨hs, -⟩ | ⟨hs | hs, -⟩ | ⟨hs | hs, -⟩ | ⟨hs, -⟩ | ⟨hs | hs, -⟩ | ⟨-, rfl⟩ |
        ⟨-, symbol, hmem, hleading, rfl⟩
    case inr.inr.inr.inr.inr.inr.inl =>
      right
      rw [blockComment, h]
      exact Nat.one_pos
    case inr.inr.inr.inr.inr.inr.inr =>
      left
      obtain ⟨rest, hrest⟩ := hleading
      obtain ⟨c, cs, htext⟩ := List.exists_cons_of_ne_nil (symbol_ne_nil symbol hmem)
      rw [htext, List.cons_append] at hrest
      have hhead : symbol.2.toList.head? = some '/' := by rw [htext, (List.cons.inj hrest).1]; rfl
      have hsingle := (symbol_of_head symbol hmem '/' (by decide) hhead).1
      have heq : symbol = (.slash, "/") :=
        symbol_injective symbol hmem _ hslash (String.toList_inj.mp hsingle)
      rw [heq]
      rfl
    all_goals exact absurd hs (by decide)

/-- A symbol that no other one goes on with. -/
theorem next_alone {kind : Kind} {first : Char} (hmem : (kind, String.singleton first) ∈ Kind.symbols)
    (hfirst : first ≠ '.' ∧ first ≠ '-' ∧ first ≠ '/')
    (halone : ∀ symbol ∈ Kind.symbols, symbol.2.toList.head? = some first → symbol.2.toList = [first])
    (rest : List Char) : next (first :: rest) = ⟨kind, 1⟩ := by
  have hnext := @next_symbol _ rest hmem fun c _ => by
    rw [String.toList_singleton]
    exact extendsSymbol_of_alone hfirst halone c
  rwa [String.toList_singleton, String.length_singleton] at hnext

theorem next_star (rest : List Char) : next ('*' :: rest) = ⟨.star, 1⟩ :=
  next_alone (by decide) (by decide) (by decide) rest

theorem next_semicolon (rest : List Char) : next (';' :: rest) = ⟨.semicolon, 1⟩ :=
  next_alone (by decide) (by decide) (by decide) rest

end Lexemes

end Token.Scan

namespace Token

open Scan

/-- The tokens but for the blanks between them. -/
def dropBlanks (tokens : List Token) : List Token :=
  tokens.filter fun token => token.kind ≠ .whitespace

theorem filter_dropBlanks {tokens : List Token} {p : Token → Bool}
    (h : ∀ token, token.kind = .whitespace → p token = false) :
    (dropBlanks tokens).filter p = tokens.filter p := by
  rw [dropBlanks, List.filter_filter]
  apply List.filter_congr
  intro token _
  by_cases hblank : token.kind = .whitespace
  · simp [hblank, h]
  · simp [hblank]

section Scanning

variable {cs tail : List Char} {steps more start : Nat}

/-- Blanks at the start only move the tokens after them. -/
theorem dropBlanks_scan_append {blanks : List Char} (hblanks : ∀ c ∈ blanks, isGap c)
    (hsteps : (blanks ++ cs).length ≤ steps) (hmore : cs.length ≤ more) :
    dropBlanks (scan steps start (blanks ++ cs)) =
      dropBlanks (scan more (start + (String.ofList blanks).utf8ByteSize) cs) := by
  have hleading {gaps rest : List Char} {steps start : Nat} (hgaps : ∀ c ∈ gaps, isGap c)
      (hrest : ∀ c ∈ rest.head?, isGap c = false) (hsteps : (gaps ++ rest).length ≤ steps) :
      dropBlanks (scan steps start (gaps ++ rest)) =
        dropBlanks (scan rest.length (start + (String.ofList gaps).utf8ByteSize) rest) := by
    rw [List.length_append] at hsteps
    by_cases hne : gaps = []
    · subst hne
      rw [List.nil_append, scan_eq_of_le (by omega) (Nat.le_refl rest.length)]
      rfl
    · have hpos := List.length_pos_of_ne_nil hne
      have hone : 1 ≤ steps := Nat.le_trans hpos (Nat.le_of_add_right_le hsteps)
      obtain ⟨steps, rfl⟩ := Nat.exists_eq_add_of_le' hone
      rw [scan_append (next_gap hgaps hne hrest) hne, dropBlanks, List.filter_cons_of_neg (by simp),
        scan_eq_of_le (by omega) (Nat.le_refl rest.length)]
      rfl
  have hgaps : ∀ c ∈ cs.take (run isGap cs), isGap c := fun c hc => mem_take_run hc
  have hrest : ∀ c ∈ (cs.drop (run isGap cs)).head?, isGap c = false := fun c hc => head?_drop_run hc
  have hall : ∀ c ∈ blanks ++ cs.take (run isGap cs), isGap c := by
    intro c hc
    rcases List.mem_append.mp hc with hc | hc
    · exact hblanks c hc
    · exact hgaps c hc
  rw [← List.take_append_drop (run isGap cs) cs] at hsteps hmore ⊢
  generalize cs.take (run isGap cs) = gaps at hsteps hmore hgaps hall ⊢
  generalize cs.drop (run isGap cs) = rest at hsteps hmore hrest ⊢
  rw [hleading hgaps hrest hmore, ← List.append_assoc, hleading hall hrest (by simpa using hsteps),
    String.ofList_append, String.utf8ByteSize_append, Nat.add_assoc]

theorem dropBlanks_scan_eq_nil (h : ∀ c ∈ cs, isGap c) (hsteps : cs.length ≤ steps) :
    dropBlanks (scan steps start cs) = [] := by
  have happend := @dropBlanks_scan_append [] steps 0 start cs h (by simpa using hsteps) (Nat.le_refl 0)
  rwa [List.append_nil] at happend

/-- A slash before an asterisk is a token of its own only where no comment starts. -/
theorem blockEnd?_ne_none_of_isChain (hsteps : cs.length ≤ steps)
    (h : (scan steps start cs).IsChain fun token next => ¬(token.kind = .slash ∧ next.kind = .star))
    {body : List Char} (hbody : cs = '/' :: '*' :: body) : blockEnd? body ≠ none := by
  intro hnone
  subst hbody
  simp only [List.length_cons] at hsteps
  obtain ⟨steps, rfl⟩ := Nat.exists_eq_add_of_le' (Nat.le_trans (Nat.le_add_left 2 _) hsteps)
  rw [scan, next_slash hnone, List.drop_succ_cons, List.drop_zero, scan, next_star] at h
  exact (List.isChain_cons_cons.mp h).1 ⟨rfl, rfl⟩

/-- What comes after a newline changes none of the tokens before it. -/
theorem dropBlanks_scan_append_newline (hsteps : cs.length ≤ steps)
    (hmore : (cs ++ '\n' :: tail).length ≤ more)
    (hgarbage : ∀ token ∈ scan steps start cs, token.kind ≠ .garbage)
    (hopen : (scan steps start cs).IsChain fun token next => ¬(token.kind = .slash ∧ next.kind = .star)) :
    dropBlanks (scan more start (cs ++ '\n' :: tail)) =
      dropBlanks (scan steps start cs) ++
        dropBlanks (scan more (start + (String.ofList cs).utf8ByteSize) ('\n' :: tail)) := by
  induction steps generalizing start cs more with
  | zero =>
    obtain rfl := List.length_eq_zero_iff.mp (Nat.le_zero.mp hsteps)
    simp [scan, dropBlanks]
  | succ steps ih =>
    rw [List.length_append] at hmore
    by_cases hblank : ∀ c ∈ cs, isGap c
    · rw [dropBlanks_scan_eq_nil hblank hsteps, List.nil_append, dropBlanks_scan_append hblank]
      · rwa [List.length_append]
      · exact Nat.le_trans (Nat.le_add_left _ _) hmore
    · have hgap : ∃ c ∈ cs, isGap c = false := by simpa using hblank
      obtain _ | ⟨c, cs⟩ := cs
      · simp at hblank
      have hnext : next (c :: cs ++ '\n' :: tail) = next (c :: cs) :=
        next_append_newline (List.cons_ne_nil c cs) (hgarbage _ List.mem_cons_self) hgap
          fun body hbody => blockEnd?_ne_none_of_isChain hsteps hopen hbody
      obtain ⟨hpos, hle⟩ := next_bounds c cs
      simp only [List.length_cons] at hsteps hmore hle
      obtain ⟨more, rfl⟩ := Nat.exists_eq_add_of_le' (Nat.le_trans (Nat.le_add_left 1 _) hmore)
      rw [scan] at hgarbage hopen ⊢
      rw [List.cons_append, scan, ← List.cons_append, hnext, List.take_append_of_le_length hle,
        List.drop_append_of_le_length hle]
      generalize next (c :: cs) = lexeme at hpos hle hgarbage hopen ⊢
      have hcut : (String.ofList (c :: cs)).utf8ByteSize =
          (String.ofList ((c :: cs).take lexeme.length)).utf8ByteSize +
            (String.ofList ((c :: cs).drop lexeme.length)).utf8ByteSize := by
        rw [← String.utf8ByteSize_append, ← String.ofList_append, List.take_append_drop]
      have hlength : ((c :: cs).drop lexeme.length).length = cs.length + 1 - lexeme.length := List.length_drop
      have htail : ('\n' :: tail).length ≤ more := by rw [List.length_cons]; omega
      rw [dropBlanks, List.filter_cons, dropBlanks, List.filter_cons]
      have hrest := @ih ((c :: cs).drop lexeme.length) more
        (start + (String.ofList ((c :: cs).take lexeme.length)).utf8ByteSize)
        (by omega) (by rw [List.length_append, List.length_cons]; omega)
        (fun token htoken => hgarbage token (List.mem_cons_of_mem _ htoken)) hopen.of_cons
      rw [dropBlanks, dropBlanks, Nat.add_assoc, ← hcut,
        scan_eq_of_le htail (Nat.le_succ_of_le htail)] at hrest
      rw [hrest]
      split <;> rfl

theorem dropBlanks_scan_add_start (steps start bytes : Nat) (cs : List Char) :
    dropBlanks (scan steps (start + bytes) cs) = (dropBlanks (scan steps start cs)).map (moved · bytes) := by
  rw [scan_add_start, dropBlanks, List.filter_map]
  rfl

/-- A semicolon on a line of its own is one token, and moves what comes after it. -/
theorem dropBlanks_scan_semicolon (h : ('\n' :: ';' :: '\n' :: cs).length ≤ steps) :
    dropBlanks (scan steps start ('\n' :: ';' :: '\n' :: cs)) =
      ⟨.semicolon, ";", start + 1⟩ :: (dropBlanks (scan cs.length 0 cs)).map (moved · (start + 3)) := by
  have hnewline : ∀ c ∈ ['\n'], isGap c := by decide
  have hsize : (String.ofList ['\n']).utf8ByteSize = 1 := by decide
  have hbefore (rest : List Char) {steps start : Nat} (h : rest.length < steps) :
      dropBlanks (scan steps start ('\n' :: rest)) = dropBlanks (scan rest.length (start + 1) rest) := by
    have happend := @dropBlanks_scan_append rest steps rest.length start _ hnewline h (Nat.le_refl _)
    rwa [hsize] at happend
  rw [hbefore _ h, List.length_cons, scan, next_semicolon, List.drop_succ_cons, List.drop_zero, dropBlanks,
    List.filter_cons_of_pos (by rfl), ← dropBlanks]
  have hlast : ('\n' :: cs).length = cs.length + 1 := List.length_cons
  rw [hlast, hbefore cs (Nat.lt_succ_self _), ← dropBlanks_scan_add_start, Nat.zero_add]
  rfl

end Scanning

section Lexing

variable {source other : String} {tokens : List Token}

/-- Garbage stays garbage when it is covered. -/
theorem kind_ne_garbage_of_foldr_cover (h : ∀ token ∈ tokens.foldr cover [], token.kind ≠ .garbage) :
    ∀ token ∈ tokens, token.kind ≠ .garbage := by
  have hcover (token : Token) (rest : List Token) (h : ∀ other ∈ cover token rest, other.kind ≠ .garbage) :
      ∀ other ∈ token :: rest, other.kind ≠ .garbage := by
    cases rest with
    | nil => exact h
    | cons next rest =>
      rw [cover] at h
      split at h
      · rename_i hboth
        rw [Bool.and_eq_true, decide_eq_true_eq] at hboth
        exact absurd hboth.1 (h { token with text := token.text ++ next.text } List.mem_cons_self)
      · exact h
  induction tokens with
  | nil => simp
  | cons token tokens ih =>
    have hall := hcover token _ h
    exact List.forall_mem_cons.mpr ⟨hall _ List.mem_cons_self,
      ih fun other hother => hall other (List.mem_cons_of_mem token hother)⟩

theorem lex_eq_scan (h : ∀ token ∈ lex source, token.kind ≠ .garbage) :
    lex source = scan source.toList.length 0 source.toList :=
  foldr_cover (kind_ne_garbage_of_foldr_cover h)

/-- A semicolon on a line of its own stands between the tokens of two sources, and changes none of them. -/
theorem dropBlanks_lex_append (hsource : ∀ token ∈ lex source, token.kind ≠ .garbage)
    (hother : ∀ token ∈ lex other, token.kind ≠ .garbage)
    (hopen : (lex source).IsChain fun token next => ¬(token.kind = .slash ∧ next.kind = .star)) :
    (∀ token ∈ lex (source ++ "\n;\n" ++ other), token.kind ≠ .garbage) ∧
    dropBlanks (lex (source ++ "\n;\n" ++ other)) = dropBlanks (lex source) ++
      ⟨.semicolon, ";", source.utf8ByteSize + 1⟩ ::
        (dropBlanks (lex other)).map (moved · (source.utf8ByteSize + 3)) := by
  have htext : (source ++ "\n;\n" ++ other).toList =
      source.toList ++ '\n' :: ';' :: '\n' :: other.toList := by simp
  have hlex := lex_eq_scan hsource
  have hlex' := lex_eq_scan hother
  rw [hlex] at hsource hopen
  rw [hlex'] at hother
  generalize hlength : (source ++ "\n;\n" ++ other).toList.length = steps
  have hscan : dropBlanks (scan steps 0 (source ++ "\n;\n" ++ other).toList) = dropBlanks (lex source) ++
      ⟨.semicolon, ";", source.utf8ByteSize + 1⟩ ::
        (dropBlanks (lex other)).map (moved · (source.utf8ByteSize + 3)) := by
    rw [htext] at hlength ⊢
    have hle := Nat.le_of_eq hlength
    have hsteps : ('\n' :: ';' :: '\n' :: other.toList).length ≤ steps := by
      rw [List.length_append] at hle
      exact Nat.le_trans (Nat.le_add_left _ _) hle
    rw [dropBlanks_scan_append_newline (Nat.le_refl _) hle hsource hopen, dropBlanks_scan_semicolon hsteps,
      String.ofList_toList, Nat.zero_add, hlex, hlex']
  have hgarbage : ∀ token ∈ scan steps 0 (source ++ "\n;\n" ++ other).toList, token.kind ≠ .garbage := by
    intro token htoken hkind
    have hmem : token ∈ dropBlanks (scan steps 0 (source ++ "\n;\n" ++ other).toList) :=
      List.mem_filter.mpr ⟨htoken, by simp [hkind]⟩
    rw [hscan, hlex, hlex', List.mem_append, List.mem_cons, List.mem_map] at hmem
    rcases hmem with hmem | rfl | ⟨token, hmem, rfl⟩
    · exact hsource token (List.mem_filter.mp hmem).1 hkind
    · cases hkind
    · exact hother token (List.mem_filter.mp hmem).1 hkind
  have hall : lex (source ++ "\n;\n" ++ other) = scan steps 0 (source ++ "\n;\n" ++ other).toList := by
    rw [lex, hlength]
    exact foldr_cover hgarbage
  rw [hall]
  exact ⟨hgarbage, hscan⟩

end Lexing

end Token

namespace TokenStream

open Token

variable {source other : String} {stream stream' : TokenStream} {tokens : List Token} {count : Nat}

/-- What no two significant tokens in a row are, no two tokens in a row are. -/
theorem isChain_of_isChain_sort {related : Token → Token → Prop}
    (h : (sort count tokens).tokens.IsChain related)
    (htrivia : ∀ token next : Token, token.kind.isTrivia ∨ next.kind.isTrivia → related token next) :
    tokens.IsChain related := by
  rw [tokens_sort] at h
  induction tokens with
  | nil => exact .nil
  | cons token tokens ih =>
    cases tokens with
    | nil => exact .singleton token
    | cons next tokens =>
      rw [List.isChain_cons_cons]
      cases htoken : token.kind.isTrivia with
      | true =>
        rw [List.filter_cons_of_neg (by simp [htoken])] at h
        exact ⟨htrivia token next (.inl htoken), ih h⟩
      | false =>
        rw [List.filter_cons_of_pos (by simp [htoken])] at h
        refine ⟨?_, ih h.of_cons⟩
        cases hnext : next.kind.isTrivia with
        | true => exact htrivia token next (.inr hnext)
        | false =>
          rw [List.filter_cons_of_pos (by simp [hnext])] at h
          exact (List.isChain_cons_cons.mp h).1

/-- The tokens and the comments of two sources with a semicolon on a line of its own between them. -/
theorem ofSource_append (h : ofSource source = .ok stream) (h' : ofSource other = .ok stream')
    (hopen : stream.tokens.IsChain fun token next => ¬(token.kind = .slash ∧ next.kind = .star)) :
    ∃ joined, ofSource (source ++ "\n;\n" ++ other) = .ok joined ∧
      joined.tokens = stream.tokens ++
        ⟨.semicolon, ";", source.utf8ByteSize + 1⟩ :: stream'.tokens.map (moved · (source.utf8ByteSize + 3)) ∧
      joined.comments.map Comment.text =
        stream.comments.map Comment.text ++ stream'.comments.map Comment.text := by
  obtain ⟨rfl, hgarbage⟩ := eq_sort_of_ofSource h
  obtain ⟨rfl, hgarbage'⟩ := eq_sort_of_ofSource h'
  have hchain := isChain_of_isChain_sort hopen fun token next htrivia hboth => by
    rw [hboth.1, hboth.2] at htrivia
    simp [Kind.isTrivia] at htrivia
  obtain ⟨hjoined, hlex⟩ := dropBlanks_lex_append hgarbage hgarbage' hchain
  refine ⟨_, ofSource_of_lex hjoined, ?_, ?_⟩
  · have hblank (token : Token) (h : token.kind = .whitespace) : (!token.kind.isTrivia) = false := by
      rw [h]
      rfl
    rw [tokens_sort, tokens_sort, tokens_sort, ← filter_dropBlanks hblank, hlex, List.filter_append,
      List.filter_cons_of_pos (by rfl), List.filter_map, filter_dropBlanks hblank]
    exact congrArg (fun tokens => _ ++ _ :: List.map (moved · _) tokens) (filter_dropBlanks hblank)
  · have hblank (token : Token) (h : token.kind = .whitespace) : token.kind.isComment = false := by
      rw [h]
      rfl
    rw [sort_comments_text, sort_comments_text, sort_comments_text, ← filter_dropBlanks hblank, hlex,
      List.filter_append, List.filter_cons_of_neg (by simp [Kind.isComment]), List.map_append,
      List.filter_map, filter_dropBlanks hblank, List.map_map]
    exact congrArg (fun tokens : List Token => _ ++ List.map (fun token => Text.trimEnd token.text) tokens)
      (filter_dropBlanks hblank)

end TokenStream

end SqlLayout
