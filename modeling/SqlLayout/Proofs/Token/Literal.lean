import SqlLayout.Grammar.Name
import SqlLayout.Proofs.Cursor.Step
import SqlLayout.Proofs.Token.Stream

/-!
# What a Literal Says

A string or bytes literal is a prefix of letters, a delimiter, an interior and the delimiter again. The
lexer finds the end of the interior by looking for the first delimiter that no backslash takes away, in raw
literals as well; its value is found later from the text alone, by counting quotes off at both ends. Both
take the literal apart in the same way, and no interior ends in the middle of an escape.
-/

namespace SqlLayout

namespace Constant

/-- Whether resolving the escapes comes to a backslash with no character after it. -/
def dangles : List Char → Bool
  | [] => false
  | ['\\'] => true
  | '\\' :: _ :: cs => dangles cs
  | _ :: cs => dangles cs

theorem dangles_cons {c : Char} (hc : c ≠ '\\') (cs : List Char) : dangles (c :: cs) = dangles cs := by
  rw [dangles]
  · exact fun h _ => hc h
  · exact fun _ _ h _ => hc h

end Constant

namespace Token

open Scan

/-- One quote or three, double or single. -/
structure Delimiter where
  quote : Char
  isTriple : Bool
  isQuote_quote : isQuote quote

namespace Delimiter

def chars (delimiter : Delimiter) : List Char :=
  if delimiter.isTriple then [delimiter.quote, delimiter.quote, delimiter.quote] else [delimiter.quote]

def around (delimiter : Delimiter) (interior : List Char) : List Char :=
  delimiter.chars ++ interior ++ delimiter.chars

variable {delimiter : Delimiter} {cs : List Char}

theorem quote_ne_backslash : delimiter.quote ≠ '\\' :=
  ne_backslash_of_isQuote delimiter.isQuote_quote

/-- Characters that the delimiter closes at their end and nowhere before. A backslash takes the next
character with it, and one quote alone does not reach over a newline. -/
inductive Encloses (delimiter : Delimiter) : List Char → Prop
  | nil : Encloses delimiter []
  | escaped {c : Char} {cs : List Char} (hline : delimiter.isTriple ∨ c ≠ '\n')
      (h : Encloses delimiter cs) : Encloses delimiter ('\\' :: c :: cs)
  | plain {c : Char} {cs : List Char} (hc : c ≠ '\\') (hline : delimiter.isTriple ∨ c ≠ '\n')
      (hopen : ¬delimiter.chars <+: c :: cs ++ delimiter.chars) (h : Encloses delimiter cs) :
      Encloses delimiter (c :: cs)

theorem Encloses.dangles_eq_false (h : delimiter.Encloses cs) : Constant.dangles cs = false := by
  induction h with
  | nil => rfl
  | escaped _ _ ih => exact ih
  | plain hc _ _ _ ih => rw [Constant.dangles_cons hc, ih]

/-- Nothing that a single quote encloses starts with it. -/
theorem Encloses.head?_ne (h : delimiter.Encloses cs) (hsingle : delimiter.isTriple = false) :
    cs.head? ≠ some delimiter.quote := by
  cases h with
  | nil => exact nofun
  | escaped _ _ => exact fun hquote => quote_ne_backslash (Option.some.inj hquote).symm
  | plain _ _ hopen _ =>
    intro hquote
    obtain rfl := Option.some.inj hquote
    simp [chars, hsingle] at hopen

end Delimiter

namespace Scan

variable {quote c : Char} {cs tail interior rest : List Char} {count : Nat} {delimiter : Delimiter}

/-- What a search for the closing delimiter reads is an interior and the delimiter. -/
structure Splits (delimiter : Delimiter) (cs : List Char) (count : Nat) (interior rest : List Char) :
    Prop where
  encloses : delimiter.Encloses interior
  eq_append : cs = interior ++ (delimiter.chars ++ rest)
  count_eq : count = interior.length + delimiter.chars.length

theorem splits_chars (delimiter : Delimiter) (rest : List Char) :
    Splits delimiter (delimiter.chars ++ rest) delimiter.chars.length [] rest :=
  ⟨.nil, rfl, (Nat.zero_add _).symm⟩

theorem Splits.escaped (h : Splits delimiter cs count interior rest)
    (hline : delimiter.isTriple ∨ c ≠ '\n') :
    Splits delimiter ('\\' :: c :: cs) (count + 2) ('\\' :: c :: interior) rest := by
  refine ⟨.escaped hline h.encloses, ?_, ?_⟩
  · rw [h.eq_append]
    rfl
  · rw [h.count_eq, List.length_cons, List.length_cons]
    omega

theorem Splits.plain (h : Splits delimiter cs count interior rest) (hc : c ≠ '\\')
    (hline : delimiter.isTriple ∨ c ≠ '\n') (hopen : ¬delimiter.chars <+: c :: cs) :
    Splits delimiter (c :: cs) (count + 1) (c :: interior) rest := by
  have hcs : c :: cs = (c :: interior ++ delimiter.chars) ++ rest := by
    rw [h.eq_append, List.cons_append, List.cons_append, List.append_assoc]
  refine ⟨.plain hc hline (fun hprefix => hopen ?_) h.encloses, ?_, ?_⟩
  · rw [hcs]
    exact hprefix.trans (List.prefix_append _ _)
  · rw [hcs, List.append_assoc]
  · rw [h.count_eq, List.length_cons]
    omega

theorem ne_backslash_of_no_escape (hpair : ∀ d ds, c = '\\' → cs = d :: ds → False)
    (hlast : c = '\\' → cs = [] → False) : c ≠ '\\' := by
  intro hc
  cases cs with
  | nil => exact hlast hc rfl
  | cons d ds => exact hpair d ds hc rfl

theorem exists_splits_of_tripleEnd? (htriple : delimiter.isTriple)
    (h : tripleEnd? delimiter.quote cs = some count) :
    ∃ interior rest, Splits delimiter cs count interior rest := by
  have hchars : delimiter.chars = [delimiter.quote, delimiter.quote, delimiter.quote] := if_pos htriple
  fun_induction tripleEnd? delimiter.quote cs generalizing count with
  | case1 c cs ih =>
    obtain ⟨inner, hinner, rfl⟩ := Option.map_eq_some_iff.mp h
    obtain ⟨interior, rest, hsplits⟩ := ih hinner
    exact ⟨_, rest, hsplits.escaped (.inl htriple)⟩
  | case2 => cases h
  | case3 c cs _ _ hclosed =>
    rw [List.isPrefixOf_iff_prefix, ← hchars] at hclosed
    obtain ⟨rest, hrest⟩ := hclosed
    have hsplits := splits_chars delimiter rest
    rw [hrest, hchars] at hsplits
    cases h
    exact ⟨_, rest, hsplits⟩
  | case4 c cs hpair hlast hopen ih =>
    rw [List.isPrefixOf_iff_prefix, ← hchars] at hopen
    obtain ⟨inner, hinner, rfl⟩ := Option.map_eq_some_iff.mp h
    obtain ⟨interior, rest, hsplits⟩ := ih hinner
    exact ⟨_, rest, hsplits.plain (ne_backslash_of_no_escape hpair hlast) (.inl htriple) hopen⟩
  | case5 => cases h

theorem exists_splits_of_quoted (hsingle : delimiter.isTriple = false)
    (h : quoted delimiter.quote false cs = (true, count)) :
    ∃ interior rest, Splits delimiter cs count interior rest := by
  have hchars : delimiter.chars = [delimiter.quote] := if_neg (by simp [hsingle])
  fun_induction quoted delimiter.quote false cs generalizing count with
  | case1 => cases h
  | case2 => cases h
  | case3 => cases h
  | case4 c cs hline closed inner hinner ih =>
    cases h
    obtain ⟨interior, rest, hsplits⟩ := ih hinner
    exact ⟨_, rest, hsplits.escaped (.inr hline)⟩
  | case5 cs =>
    cases h
    have hsplits := splits_chars delimiter cs
    rw [hchars] at hsplits
    exact ⟨_, cs, hsplits⟩
  | case6 => cases h
  | case7 c cs hlast hpair hquote hline closed inner hinner ih =>
    cases h
    obtain ⟨interior, rest, hsplits⟩ := ih hinner
    have hline : c ≠ '\n' := by simpa using hline
    have hopen : ¬delimiter.chars <+: c :: cs := by
      rw [hchars, List.cons_prefix_cons]
      exact fun hprefix => hquote hprefix.1.symm
    exact ⟨_, rest, hsplits.plain (ne_backslash_of_no_escape hpair hlast) (.inr hline) hopen⟩

theorem exists_delimiter_of_literalBody (hquote : isQuote quote)
    (h : literalBody (quote :: tail) = some ⟨.string, count⟩) :
    ∃ (delimiter : Delimiter) (interior rest : List Char), delimiter.Encloses interior ∧
      quote :: tail = delimiter.around interior ++ rest ∧ count = (delimiter.around interior).length := by
  rw [literalBody_cons hquote] at h
  split at h
  · rename_i hopener
    obtain ⟨cs, rfl⟩ := List.isPrefixOf_iff_prefix.mp hopener
    split at h
    · rename_i inner hinner
      cases h
      let delimiter : Delimiter := ⟨quote, true, hquote⟩
      obtain ⟨interior, rest, hsplits⟩ :=
        exists_splits_of_tripleEnd? (rfl : delimiter.isTriple = true) hinner
      have hcs : cs = interior ++ (delimiter.chars ++ rest) := hsplits.eq_append
      refine ⟨delimiter, interior, rest, hsplits.encloses, ?_, ?_⟩
      · simp [hcs, Delimiter.around, Delimiter.chars, delimiter]
      · rw [hsplits.count_eq]
        simp [Delimiter.around, Delimiter.chars, delimiter]
    · cases h
  · split at h
    · rename_i inner hinner
      cases h
      let delimiter : Delimiter := ⟨quote, false, hquote⟩
      obtain ⟨interior, rest, hsplits⟩ :=
        exists_splits_of_quoted (rfl : delimiter.isTriple = false) hinner
      refine ⟨delimiter, interior, rest, hsplits.encloses, ?_, ?_⟩
      · simp [hsplits.eq_append, Delimiter.around, Delimiter.chars, delimiter]
      · rw [hsplits.count_eq]
        simp [Delimiter.around, Delimiter.chars, delimiter]
    · cases h

end Scan

/-- The parts of a string or bytes literal. -/
structure Literal where
  letters : List Char
  delimiter : Delimiter
  interior : List Char
  isPrefixLetter_of_mem : ∀ c ∈ letters, isPrefixLetter c
  letters_length_le : letters.length ≤ 2
  encloses : delimiter.Encloses interior

namespace Literal

def chars (literal : Literal) : List Char :=
  literal.letters ++ literal.delimiter.around literal.interior

def isRaw (literal : Literal) : Bool :=
  'r' ∈ literal.letters || 'R' ∈ literal.letters

def isBytes (literal : Literal) : Bool :=
  'b' ∈ literal.letters || 'B' ∈ literal.letters

/-- What the literal stands for: in a raw one a backslash is a character like any other. -/
def value (literal : Literal) : List Char :=
  if literal.isRaw then literal.interior else Constant.unescape literal.interior

end Literal

theorem exists_literal_of_isLiteral {text : List Char} (h : IsLiteral text) :
    ∃ literal : Literal, text = literal.chars := by
  obtain ⟨letters, quote, tail, ⟨kind, count⟩, rfl, hletters, hshort, hquote, hbody, heq⟩ :=
    exists_of_literal h
  obtain ⟨rfl, hlength⟩ := Lexeme.mk.inj heq
  obtain ⟨delimiter, interior, rest, hencloses, htail, rfl⟩ :=
    exists_delimiter_of_literalBody hquote hbody
  refine ⟨⟨letters, delimiter, interior, hletters, hshort, hencloses⟩, ?_⟩
  -- The literal is the whole text, so nothing is left of it.
  have hrest : rest = [] := by
    have hlength : (letters ++ (delimiter.around interior ++ rest)).length =
        letters.length + (delimiter.around interior).length := htail ▸ hlength
    rw [List.length_append, List.length_append] at hlength
    exact List.eq_nil_of_length_eq_zero (by omega)
  rw [htail, hrest, List.append_nil]
  rfl

namespace Delimiter

variable {delimiter : Delimiter} {cs : List Char}

theorem byteSize_chars (delimiter : Delimiter) : Text.byteSize delimiter.chars = delimiter.chars.length := by
  have hquote : delimiter.quote.utf8Size = 1 := by
    have hcases := delimiter.isQuote_quote
    simp only [isQuote, Bool.or_eq_true, beq_iff_eq] at hcases
    rcases hcases with heq | heq <;> rw [heq] <;> rfl
  unfold chars
  split <;> simp [Text.byteSize, hquote]

theorem quoteCount_around (h : delimiter.Encloses cs) :
    Constant.quoteCount (delimiter.around cs) = delimiter.chars.length := by
  cases htriple : delimiter.isTriple with
  | true => simp [around, chars, htriple, Constant.quoteCount]
  | false =>
    have hhead := h.head?_ne htriple
    cases cs with
    | nil => simp [around, chars, htriple, Constant.quoteCount]
    | cons c cs =>
      have hc : delimiter.quote ≠ c := fun heq => hhead (by rw [heq]; rfl)
      cases cs <;> simp [around, chars, htriple, Constant.quoteCount, hc]

/-- Counting the quotes off at both ends leaves the interior, whatever quotes it has itself. -/
theorem interior?_around (h : delimiter.Encloses cs) :
    Constant.interior? (delimiter.around cs) = some cs := by
  have hsize : Text.byteSize (delimiter.around cs) =
      delimiter.chars.length + Text.byteSize cs + delimiter.chars.length := by
    rw [around, Text.byteSize_append, Text.byteSize_append, byteSize_chars]
  have hdrop : (delimiter.around cs).drop delimiter.chars.length = cs ++ delimiter.chars := by
    rw [around, List.append_assoc, List.drop_left]
  have hrest : Text.byteSize (delimiter.around cs) - 2 * delimiter.chars.length = Text.byteSize cs := by
    omega
  unfold Constant.interior?
  rw [quoteCount_around h, if_neg (by omega), hdrop, hrest, Text.takeBytes?_byteSize]

end Delimiter

namespace Literal

variable (literal : Literal)

theorem not_isQuote_of_mem_letters {c : Char} (h : c ∈ literal.letters) : Constant.isQuote c = false :=
  not_isQuote_of_isWordRest (isWordRest_of_isPrefixLetter (literal.isPrefixLetter_of_mem c h))

/-- What stands after the letters starts with a quote. -/
theorem exists_around_eq_cons :
    ∃ c cs, literal.delimiter.around literal.interior = c :: cs ∧ Constant.isQuote c := by
  unfold Delimiter.around Delimiter.chars
  split <;> exact ⟨literal.delimiter.quote, _, rfl, literal.delimiter.isQuote_quote⟩

theorem letters_chars : Constant.letters literal.chars = literal.letters := by
  obtain ⟨c, cs, haround, hc⟩ := literal.exists_around_eq_cons
  rw [Constant.letters, chars, List.takeWhile_append_of_pos, haround]
  · simp [hc]
  · intro d hd
    simp [literal.not_isQuote_of_mem_letters hd]

theorem body_chars : Constant.body literal.chars = literal.delimiter.around literal.interior := by
  obtain ⟨c, cs, haround, hc⟩ := literal.exists_around_eq_cons
  rw [Constant.body, chars, List.dropWhile_append_of_pos, haround]
  · simp [hc]
  · intro d hd
    simp [literal.not_isQuote_of_mem_letters hd]

theorem isRaw_chars : Constant.isRaw literal.chars = literal.isRaw := by
  rw [Bool.eq_iff_iff, Constant.isRaw, letters_chars]
  simp [isRaw, and_or_left, exists_or]

theorem ofLiteral_chars :
    Constant.ofLiteral (String.ofList literal.chars) =
      { kind := if literal.isBytes then .bytes else .string, text := String.ofList literal.chars } := by
  have hbytes : (literal.letters.any fun c => c == 'b' || c == 'B') = literal.isBytes := by
    rw [Bool.eq_iff_iff]
    simp [isBytes, and_or_left, exists_or]
  rw [Constant.ofLiteral, String.toList_ofList, letters_chars, hbytes]
  split <;> rfl

theorem value?_ofLiteral_chars :
    (Constant.ofLiteral (String.ofList literal.chars)).value? = some (String.ofList literal.value) := by
  obtain ⟨c, cs, haround, -⟩ := literal.exists_around_eq_cons
  have hbody : (Constant.body literal.chars).isEmpty = false := by rw [body_chars, haround]; rfl
  rw [ofLiteral_chars]
  unfold Constant.value?
  dsimp only
  rw [String.toList_ofList, hbody, body_chars, Delimiter.interior?_around literal.encloses, isRaw_chars]
  cases literal.isBytes <;> rfl

end Literal

/-- A rule for constants takes a literal and leaves the cursor after it. -/
theorem constant?_of_string {cursor : Cursor} {token : Token} (h : cursor.token? 0 = some token)
    (hkind : token.kind = .string) :
    Grammar.constant? cursor = .ok (some (Constant.ofLiteral token.text)) (cursor.advance 1) := by
  have hseen : Rule.kind? cursor = .ok (some .string) cursor := by
    simp only [Rule.kind?, Rule.ask, Cursor.kind?, h, Option.map_some, hkind]
  have hbump : Rule.bump cursor = .ok (some token.text) (cursor.advance 1) := by
    simp only [Rule.bump, Cursor.text?, h, Option.map_some]
  rw [Grammar.constant?, Rule.bind_of_ok hseen]
  dsimp only
  rw [Rule.bind_of_ok hbump]
  rfl

/-- Every string or bytes literal has a value, and it is the one that its letters and its interior tell. -/
theorem exists_literal_of_mem_lex {source : String} {token : Token} (htoken : token ∈ lex source)
    (hkind : token.kind = .string) :
    ∃ (literal : Literal) (constant : Constant),
      (∀ cursor : Cursor, cursor.token? 0 = some token →
        Grammar.constant? cursor = .ok (some constant) (cursor.advance 1)) ∧
      constant.text = token.text ∧ token.text.toList = literal.chars ∧
      constant.kind = (if literal.isBytes then .bytes else .string) ∧
      constant.value? = some (String.ofList literal.value) ∧
      Constant.dangles literal.interior = false := by
  have hgenuine : token.glyph.IsGenuine :=
    isGenuine_of_mem_lex htoken (by rw [hkind]; decide) (by rw [hkind]; decide)
  have hliteral : IsLiteral token.text.toList := by
    simpa [Glyph.IsGenuine, Token.glyph, hkind] using hgenuine
  obtain ⟨literal, hchars⟩ := exists_literal_of_isLiteral hliteral
  have htext : token.text = String.ofList literal.chars := by
    rw [← hchars, String.ofList_toList]
  refine ⟨literal, Constant.ofLiteral token.text, ?_, ?_, hchars, ?_, ?_, literal.encloses.dangles_eq_false⟩
  · exact fun cursor hcursor => constant?_of_string hcursor hkind
  · rw [htext, literal.ofLiteral_chars]
  · rw [htext, literal.ofLiteral_chars]
  · rw [htext, literal.value?_ofLiteral_chars]

theorem exists_literal_of_mem_lex_raw :
    ∃ token ∈ lex "R\x27it\\\x27s\x27;", token.kind = .string ∧
      (∃ cursor : Cursor, cursor.token? 0 = some token) ∧
      ∃ (literal : Literal) (constant : Constant),
        (∀ cursor : Cursor, cursor.token? 0 = some token →
          Grammar.constant? cursor = .ok (some constant) (cursor.advance 1)) ∧
        constant.text = token.text ∧ token.text.toList = literal.chars ∧
        constant.kind = (if literal.isBytes then .bytes else .string) ∧
        constant.value? = some (String.ofList literal.value) ∧
        Constant.dangles literal.interior = false := by
  have hmem : (⟨.string, "R\x27it\\\x27s\x27", 0⟩ : Token) ∈ lex "R\x27it\\\x27s\x27;" := by decide
  exact ⟨_, hmem, rfl, ⟨.ofStream 8 ⟨[_], []⟩, rfl⟩, exists_literal_of_mem_lex hmem rfl⟩

/-- In a raw literal a backslash keeps a quote from closing it and stays in the value. -/
example : (Constant.ofLiteral "R\x27it\\\x27s\x27").value? = some "it\\\x27s" := by
  decide

end Token

end SqlLayout
