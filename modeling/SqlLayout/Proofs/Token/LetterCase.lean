import SqlLayout.Proofs.Token.Tiling
import SqlLayout.Text.Ascii

/-!
# Letter Case in Sources

Nothing that reads the characters of a source tells a letter from its capital: a name may start with
either, an exponent is announced by either, and so on. So the tokens of a source stand where those of its
capitalised text stand, and they are of the same kinds.
-/

namespace SqlLayout

namespace Token

namespace Scan

section Letters

/-- The letters that have a capital. -/
def lowercase : List Char :=
  (List.range' 97 26).map Char.ofNat

theorem toUpper_eq_or_mem (c : Char) : c.toUpper = c ∨ c ∈ lowercase := by
  unfold Char.toUpper
  split
  · rename_i hletter
    have hrange : 97 ≤ c.toNat ∧ c.toNat ≤ 122 := hletter
    refine .inr (List.mem_map.mpr ⟨c.toNat, ?_, Char.ofNat_toNat c⟩)
    simp only [List.mem_range'_1]
    omega
  · exact .inl rfl

/-- What does not tell a letter from its capital does not tell any character from its own. -/
theorem apply_toUpper {α : Type} {p : Char → α} (h : ∀ c ∈ lowercase, p c.toUpper = p c) (c : Char) :
    p c.toUpper = p c := by
  rcases toUpper_eq_or_mem c with heq | hmem
  · rw [heq]
  · exact h c hmem

theorem toUpper_eq_iff {c mark : Char} (hmark : mark.isAlpha = false) : c.toUpper = mark ↔ c = mark := by
  have halpha : c.toUpper.isAlpha = c.isAlpha := apply_toUpper (by decide) c
  rcases toUpper_eq_or_mem c with heq | hmem
  · rw [heq]
  · have hletters : ∀ c ∈ lowercase, c.isAlpha = true := by decide
    have hletter := hletters c hmem
    constructor
    · rintro rfl
      rw [halpha, hletter] at hmark
      cases hmark
    · rintro rfl
      rw [hletter] at hmark
      cases hmark

theorem toUpper_of_mark {mark : Char} (hmark : mark.isAlpha = false) : mark.toUpper = mark :=
  (toUpper_eq_iff hmark).mpr rfl

theorem utf8Size_toUpper (c : Char) : c.toUpper.utf8Size = c.utf8Size :=
  apply_toUpper (by decide) c

theorem isPrefixOf_map_toUpper {marks : List Char} (hmarks : ∀ mark ∈ marks, mark.isAlpha = false)
    (cs : List Char) : marks.isPrefixOf (cs.map Char.toUpper) = marks.isPrefixOf cs := by
  induction marks generalizing cs with
  | nil => rfl
  | cons mark marks ih =>
    cases cs with
    | nil => rfl
    | cons c cs =>
      have hmark : (mark == c.toUpper) = (mark == c) := by
        rw [Bool.eq_iff_iff, beq_iff_eq, beq_iff_eq, eq_comm, eq_comm (a := mark)]
        exact toUpper_eq_iff (hmarks mark List.mem_cons_self)
      rw [List.map_cons, List.isPrefixOf_cons_cons, List.isPrefixOf_cons_cons, hmark,
        ih fun other hother => hmarks other (List.mem_cons_of_mem mark hother)]

end Letters

section Patterns

variable (cs : List Char)

theorem run_map {p : Char → Bool} (h : ∀ c ∈ lowercase, p c.toUpper = p c) :
    run p (cs.map Char.toUpper) = run p cs := by
  have hclass : p ∘ Char.toUpper = p := funext (apply_toUpper h)
  rw [run, List.takeWhile_map, List.length_map, hclass]
  rfl

theorem word_map : word (cs.map Char.toUpper) = word cs := by
  cases cs with
  | nil => rfl
  | cons c cs =>
    have hstart : isWordStart c.toUpper = isWordStart c := apply_toUpper (by decide) c
    rw [List.map_cons, word, word, hstart, run_map cs (by decide)]

theorem gap_map : gap (cs.map Char.toUpper) = gap cs :=
  run_map cs (by decide)

theorem lineComment_map : lineComment (cs.map Char.toUpper) = lineComment cs := by
  have hrun (cs : List Char) : run (· ≠ '\n') (cs.map Char.toUpper) = run (· ≠ '\n') cs :=
    run_map cs (by decide)
  rcases cs with _ | ⟨c, cs⟩
  · rfl
  by_cases hhash : c = '#'
  · subst hhash
    exact congrArg (1 + ·) (hrun cs)
  have hupper : c.toUpper ≠ '#' := fun h => hhash ((toUpper_eq_iff (by decide)).mp h)
  rcases cs with _ | ⟨d, cs⟩
  · simp [lineComment, hhash, hupper]
  by_cases hdashes : c = '-' ∧ d = '-'
  · obtain ⟨rfl, rfl⟩ := hdashes
    exact congrArg (2 + ·) (hrun cs)
  have hdashes' : ¬(c.toUpper = '-' ∧ d.toUpper = '-') := by
    rwa [toUpper_eq_iff (by decide), toUpper_eq_iff (by decide)]
  simp only [List.map_cons]
  rw [lineComment, lineComment]
  all_goals simp_all

theorem blockEnd?_map : blockEnd? (cs.map Char.toUpper) = blockEnd? cs := by
  fun_induction blockEnd? cs with
  | case1 cs => rfl
  | case2 c cs hslash ih =>
    have hupper : c.toUpper ≠ '/' := fun h => hslash ((toUpper_eq_iff (by decide)).mp h)
    rw [List.map_cons, List.map_cons, toUpper_of_mark (by decide), blockEnd?_star hupper, ih]
  | case3 => rfl
  | case4 c cs hend hnext hlone ih =>
    have hstar : c.toUpper ≠ '*' := by
      intro hc
      obtain rfl := (toUpper_eq_iff (by decide)).mp hc
      cases cs with
      | nil => exact hlone rfl rfl
      | cons d cs => exact hnext d cs rfl rfl
    rw [List.map_cons, blockEnd?_cons hstar, ih]
  | case5 => rfl

theorem exponent_map : exponent (cs.map Char.toUpper) = exponent cs := by
  have hletter (c : Char) : (c.toUpper == 'e' || c.toUpper == 'E') = (c == 'e' || c == 'E') :=
    apply_toUpper (p := fun c => c == 'e' || c == 'E') (by decide) c
  have hsign (c : Char) : (c.toUpper == '+' || c.toUpper == '-') = (c == '+' || c == '-') :=
    apply_toUpper (p := fun c => c == '+' || c == '-') (by decide) c
  have hrun (cs : List Char) : run Char.isDigit (cs.map Char.toUpper) = run Char.isDigit cs :=
    run_map cs (by decide)
  rcases cs with _ | ⟨c, _ | ⟨d, ds⟩⟩
  · rfl
  · rw [List.map_cons, List.map_nil, exponent_singleton, exponent_singleton]
  · have htail := hrun (d :: ds)
    rw [List.map_cons] at htail
    simp only [List.map_cons, exponent, hletter, hsign, hrun, htail]

theorem fraction_map : fraction (cs.map Char.toUpper) = fraction cs := by
  rcases cs with _ | ⟨c, cs⟩
  · rfl
  by_cases hdot : c = '.'
  · subst hdot
    exact congrArg (1 + ·) (run_map cs (by decide))
  · have hupper : c.toUpper ≠ '.' := fun h => hdot ((toUpper_eq_iff (by decide)).mp h)
    rw [List.map_cons, fraction_cons_of_ne hdot, fraction_cons_of_ne hupper]

theorem decimal_map : decimal (cs.map Char.toUpper) = decimal cs := by
  have hwhole : run Char.isDigit (cs.map Char.toUpper) = run Char.isDigit cs := run_map cs (by decide)
  simp only [decimal_eq, hwhole, ← List.map_drop, fraction_map, exponent_map]

theorem pointFirst_map : pointFirst (cs.map Char.toUpper) = pointFirst cs := by
  simp only [pointFirst_eq, ← List.map_drop, fraction_map, exponent_map]

theorem hexadecimal_map : hexadecimal (cs.map Char.toUpper) = hexadecimal cs := by
  have hletter (c : Char) : (c.toUpper == 'x' || c.toUpper == 'X') = (c == 'x' || c == 'X') :=
    apply_toUpper (p := fun c => c == 'x' || c == 'X') (by decide) c
  rcases cs with _ | ⟨c, cs⟩
  · rfl
  by_cases hzero : c = '0'
  · subst hzero
    cases cs with
    | nil => rfl
    | cons c cs =>
      rw [List.map_cons, List.map_cons, toUpper_of_mark (by decide), hexadecimal_zero_cons,
        hexadecimal_zero_cons, hletter, run_map cs (by decide)]
  · have hupper : c.toUpper ≠ '0' := fun h => hzero ((toUpper_eq_iff (by decide)).mp h)
    rw [List.map_cons, hexadecimal_cons_of_ne hzero, hexadecimal_cons_of_ne hupper]

theorem number_map : number (cs.map Char.toUpper) = number cs := by
  rw [number, number, decimal_map, pointFirst_map, hexadecimal_map]

theorem quoted_map {quote : Char} (hquote : quote.isAlpha = false) (multiline : Bool) :
    quoted quote multiline (cs.map Char.toUpper) = quoted quote multiline cs := by
  have hnewline (c : Char) : c.toUpper = '\n' ↔ c = '\n' := toUpper_eq_iff (by decide)
  induction hlength : cs.length using Nat.strong_induction_on generalizing cs with
  | _ length ih =>
    subst hlength
    rcases cs with _ | ⟨c, cs⟩
    · rfl
    by_cases hc : c = '\\'
    · subst hc
      rcases cs with _ | ⟨d, cs⟩
      · rfl
      rw [List.map_cons, List.map_cons, toUpper_of_mark (by decide), quoted_backslash, quoted_backslash,
        ih cs.length (by simp only [List.length_cons]; omega) cs rfl]
      simp only [hnewline]
    · have hupper : c.toUpper ≠ '\\' := fun h => hc ((toUpper_eq_iff (by decide)).mp h)
      rw [List.map_cons, quoted_cons hc, quoted_cons hupper, ih cs.length (by simp) cs rfl]
      simp only [hnewline, toUpper_eq_iff hquote]

theorem tripleEnd?_map {quote : Char} (hquote : quote.isAlpha = false) :
    tripleEnd? quote (cs.map Char.toUpper) = tripleEnd? quote cs := by
  have hquotes : ∀ mark ∈ [quote, quote, quote], mark.isAlpha = false := by simp [hquote]
  induction hlength : cs.length using Nat.strong_induction_on generalizing cs with
  | _ length ih =>
    subst hlength
    rcases cs with _ | ⟨c, cs⟩
    · rfl
    by_cases hc : c = '\\'
    · subst hc
      rcases cs with _ | ⟨d, cs⟩
      · rfl
      rw [List.map_cons, List.map_cons, toUpper_of_mark (by decide), tripleEnd?, tripleEnd?,
        ih cs.length (by simp only [List.length_cons]; omega) cs rfl]
    · have hupper : c.toUpper ≠ '\\' := fun h => hc ((toUpper_eq_iff (by decide)).mp h)
      have hclosed := isPrefixOf_map_toUpper hquotes (c :: cs)
      rw [List.map_cons] at hclosed
      rw [List.map_cons, tripleEnd?_cons hc, tripleEnd?_cons hupper, hclosed,
        ih cs.length (by simp) cs rfl]

theorem quotedIdent_map : quotedIdent (cs.map Char.toUpper) = quotedIdent cs := by
  cases cs with
  | nil => rfl
  | cons c cs =>
    have hquote : backquote.isAlpha = false := by decide
    simp only [List.map_cons, quotedIdent, toUpper_eq_iff hquote, quoted_map cs hquote]

theorem literalBody_map : literalBody (cs.map Char.toUpper) = literalBody cs := by
  cases cs with
  | nil => rfl
  | cons c cs =>
    by_cases hquote : isQuote c
    · have hmark : c.isAlpha = false := by
        simp only [isQuote, Bool.or_eq_true, beq_iff_eq] at hquote
        rcases hquote with rfl | rfl <;> decide
      have hquotes : ∀ mark ∈ [c, c], mark.isAlpha = false := by simp [hmark]
      rw [List.map_cons, toUpper_of_mark hmark, literalBody_cons hquote, literalBody_cons hquote,
        isPrefixOf_map_toUpper hquotes, ← List.map_drop, tripleEnd?_map _ hmark, quoted_map _ hmark]
    · have hnone (c : Char) (cs : List Char) (hc : ¬isQuote c) : literalBody (c :: cs) = none :=
        if_neg (by simpa [isQuote] using hc)
      have hupper : isQuote c.toUpper = isQuote c := apply_toUpper (by decide) c
      rw [List.map_cons, hnone c cs hquote, hnone _ _ (by rwa [hupper])]

theorem literal_map : literal (cs.map Char.toUpper) = literal cs := by
  have hletters : run isPrefixLetter (cs.map Char.toUpper) = run isPrefixLetter cs :=
    run_map cs (by decide)
  simp only [literal, hletters, ← List.map_drop, literalBody_map]

theorem blockComment_map : blockComment (cs.map Char.toUpper) = blockComment cs := by
  rcases cs with _ | ⟨c, _ | ⟨d, cs⟩⟩
  · rfl
  · simp [blockComment]
  by_cases hopener : c = '/' ∧ d = '*'
  · obtain ⟨rfl, rfl⟩ := hopener
    exact congrArg (fun count? => (count?.map (· + 2)).getD 0) (blockEnd?_map cs)
  · have hupper : ¬(c.toUpper = '/' ∧ d.toUpper = '*') := by
      rwa [toUpper_eq_iff (by decide), toUpper_eq_iff (by decide)]
    have hnone (c d : Char) (cs : List Char) (h : ¬(c = '/' ∧ d = '*')) :
        blockComment (c :: d :: cs) = 0 := by
      rw [blockComment]
      rintro _ ⟨⟩
      exact h ⟨rfl, rfl⟩
    rw [List.map_cons, List.map_cons, hnone c d cs hopener, hnone _ _ _ hupper]

theorem candidates_map : candidates (cs.map Char.toUpper) = candidates cs := by
  have hsymbols : Kind.symbols.filterMap (symbol? (cs.map Char.toUpper)) =
      Kind.symbols.filterMap (symbol? cs) := by
    apply List.filterMap_congr
    intro symbol hsymbol
    have hmarks : ∀ symbol ∈ Kind.symbols, ∀ mark ∈ symbol.2.toList, mark.isAlpha = false := by decide
    rw [symbol?, symbol?, isPrefixOf_map_toUpper (hmarks symbol hsymbol)]
  rw [candidates, candidates, hsymbols, word_map, quotedIdent_map, literal_map, number_map, gap_map,
    lineComment_map, blockComment_map]

theorem hopeless_map : hopeless (cs.map Char.toUpper) = hopeless cs := by
  cases cs with
  | nil => rfl
  | cons c cs =>
    have hback : backquote.isAlpha = false := by decide
    have hdouble : c.toUpper = '\x22' ↔ c = '\x22' := toUpper_eq_iff (by decide)
    have hsingle : c.toUpper = '\x27' ↔ c = '\x27' := toUpper_eq_iff (by decide)
    simp only [List.map_cons, hopeless, toUpper_eq_iff hback, hdouble, hsingle, quoted_map cs hback]
    by_cases hquote : c = '\x22' ∨ c = '\x27'
    · have hmark : c.isAlpha = false := by rcases hquote with rfl | rfl <;> decide
      rw [toUpper_of_mark hmark, quoted_map cs hmark]
    · simp only [Bool.or_eq_true, decide_eq_true_eq, hquote, if_false]

theorem next_map : next (cs.map Char.toUpper) = next cs := by
  rw [next, next, candidates_map, hopeless_map]

end Patterns

end Scan

section Lexing

theorem upper_append (text other : String) :
    Text.upper (text ++ other) = Text.upper text ++ Text.upper other := by
  simp [Text.upper]

theorem length_toList_upper (text : String) : (Text.upper text).toList.length = text.toList.length := by
  rw [Text.toList_upper, List.length_map]

theorem utf8ByteSize_upper (text : String) : (Text.upper text).utf8ByteSize = text.utf8ByteSize := by
  have hsize (cs : List Char) :
      (String.ofList (cs.map Char.toUpper)).utf8ByteSize = (String.ofList cs).utf8ByteSize := by
    induction cs with
    | nil => rfl
    | cons c cs ih =>
      rw [List.map_cons, String.ofList_cons, String.ofList_cons, String.utf8ByteSize_append,
        String.utf8ByteSize_append, ih, String.utf8ByteSize_singleton, String.utf8ByteSize_singleton,
        Scan.utf8Size_toUpper]
  rw [Text.upper, hsize, String.ofList_toList]

/-- The token with its whole text in capitals, whatever its kind. -/
def upper (token : Token) : Token :=
  { token with text := Text.upper token.text }

theorem scan_map (steps start : Nat) (cs : List Char) :
    scan steps start (cs.map Char.toUpper) = (scan steps start cs).map upper := by
  induction steps generalizing start cs with
  | zero => rfl
  | succ steps ih =>
    cases cs with
    | nil => rfl
    | cons c cs =>
      have hnext := Scan.next_map (c :: cs)
      have htext (length : Nat) : String.ofList (((c :: cs).map Char.toUpper).take length) =
          Text.upper (String.ofList ((c :: cs).take length)) := by
        rw [Text.upper, String.toList_ofList, List.map_take]
      have hrest (length : Nat) : ((c :: cs).map Char.toUpper).drop length =
          ((c :: cs).drop length).map Char.toUpper :=
        List.map_drop.symm
      rw [List.map_cons] at hnext htext hrest ⊢
      simp only [scan, hnext, htext, hrest, utf8ByteSize_upper, ih, List.map_cons, upper]

theorem map_cover (token : Token) (tokens : List Token) :
    (token.cover tokens).map upper = token.upper.cover (tokens.map upper) := by
  cases tokens with
  | nil => rfl
  | cons next tokens =>
    rw [cover]
    split
    · rename_i hboth
      have htext : Text.upper (token.text ++ next.text) = Text.upper token.text ++ Text.upper next.text :=
        upper_append _ _
      rw [List.map_cons, List.map_cons, upper, htext]
      exact (if_pos hboth).symm
    · rename_i hboth
      exact (if_neg hboth).symm

/-- The tokens of a capitalised source are those of the source, capitalised. -/
theorem lex_upper (source : String) : lex (Text.upper source) = (lex source).map upper := by
  have hcover (tokens : List Token) :
      (tokens.foldr cover []).map upper = (tokens.map upper).foldr cover [] := by
    induction tokens with
    | nil => rfl
    | cons token tokens ih => rw [List.foldr_cons, map_cover, ih, List.map_cons, List.foldr_cons]
  simp only [lex, Text.toList_upper, List.length_map, scan_map, hcover]

end Lexing

end Token

end SqlLayout
