import SqlLayout.Proofs.Text.Escape
import SqlLayout.Proofs.Token.Scan
import SqlLayout.Text.Quoted

/-!
# Quoted Text Is a Literal

What stands between the quotes can be read back character by character, so quoted text is known from how
it is shown. It is also a literal: every quote inside has a backslash before it, and there are no newlines.
-/

namespace SqlLayout.Text

open Token.Scan

section Digits

theorem mem_digits_of_mem_hexDigits {n : Nat} {c : Char} (h : c ∈ hexDigits n) :
    c ∈ "0123456789abcdef".toList := by
  have hdigit : ∀ m < 16, Nat.digitChar m ∈ "0123456789abcdef".toList := by decide
  unfold hexDigits at h
  induction n using Nat.strong_induction_on with
  | _ n ih =>
    by_cases hsmall : n < 16
    · rw [Nat.toDigits_of_lt_base hsmall, List.mem_singleton] at h
      rw [h]
      exact hdigit n hsmall
    · rw [Nat.toDigits_of_base_le (by decide) (Nat.le_of_not_lt hsmall), List.mem_append,
        List.mem_singleton] at h
      rcases h with h | rfl
      · exact ih (n / 16) (by omega) h
      · exact hdigit _ (Nat.mod_lt n (by decide))

theorem hexDigits_inj {m n : Nat} (h : hexDigits m = hexDigits n) : m = n := by
  have hdigit : ∀ a < 16, ∀ b < 16, Nat.digitChar a = Nat.digitChar b → a = b := by decide
  unfold hexDigits at h
  induction m using Nat.strong_induction_on generalizing n with
  | _ m ih =>
    have hpos (k : Nat) : 0 < (Nat.toDigits 16 k).length := Nat.length_toDigits_pos
    by_cases hm : m < 16
    · by_cases hn : n < 16
      · rw [Nat.toDigits_of_lt_base hm, Nat.toDigits_of_lt_base hn, List.singleton_inj] at h
        exact hdigit m hm n hn h
      · rw [Nat.toDigits_of_lt_base hm, Nat.toDigits_of_base_le (by decide) (Nat.le_of_not_lt hn)] at h
        have hlength := congrArg List.length h
        rw [List.length_append, List.length_singleton, List.length_singleton] at hlength
        have := hpos (n / 16)
        omega
    · by_cases hn : n < 16
      · rw [Nat.toDigits_of_lt_base hn, Nat.toDigits_of_base_le (by decide) (Nat.le_of_not_lt hm)] at h
        have hlength := congrArg List.length h
        rw [List.length_append, List.length_singleton, List.length_singleton] at hlength
        have := hpos (m / 16)
        omega
      · rw [Nat.toDigits_of_base_le (by decide) (Nat.le_of_not_lt hm),
          Nat.toDigits_of_base_le (by decide) (Nat.le_of_not_lt hn)] at h
        obtain ⟨hinit, hlast⟩ := List.append_inj' h rfl
        have hdiv := ih (m / 16) (by omega) hinit
        have hmod := hdigit _ (Nat.mod_lt m (by decide)) _ (Nat.mod_lt n (by decide))
          (List.singleton_inj.mp hlast)
        omega

end Digits

section Escapes

/-- The letters that stand for a character after a backslash. -/
def letterEscapes : List (Char × Char) :=
  [('t', '\t'), ('r', '\r'), ('n', '\n'), ('0', '\x00'), ('\x22', '\x22'), ('\\', '\\')]

/-- The three ways to write a character. -/
inductive Escaped (c : Char) : List Char → Prop
  | letter {letter : Char} (h : (letter, c) ∈ letterEscapes) : Escaped c ['\\', letter]
  | plain (h : c ∉ letterEscapes.map Prod.snd) : Escaped c [c]
  | code : Escaped c ('\\' :: 'u' :: '\x7b' :: hexDigits c.toNat ++ ['\x7d'])

theorem escaped_escape (c : Char) : Escaped c (escape c) := by
  unfold escape
  split
  · exact .letter (by decide)
  · exact .letter (by decide)
  · exact .letter (by decide)
  · exact .letter (by decide)
  · exact .letter (by decide)
  · exact .letter (by decide)
  · split
    · apply Escaped.plain
      simp [letterEscapes]
      tauto
    · exact .code

variable {c d : Char} {cs ds rest rest' : List Char}

/-- Something is written for every character, and it does not start with a quote. -/
theorem Escaped.exists_cons (h : Escaped c cs) : ∃ d ds, cs = d :: ds ∧ d ≠ '\x22' := by
  cases h with
  | letter => exact ⟨_, _, rfl, by decide⟩
  | plain hplain =>
    refine ⟨c, [], rfl, ?_⟩
    rintro rfl
    exact hplain (by decide)
  | code => exact ⟨_, _, rfl, by decide⟩

theorem brace_notMem_hexDigits (n : Nat) : '\x7d' ∉ hexDigits n := fun h =>
  absurd (mem_digits_of_mem_hexDigits h) (by decide)

theorem takeWhile_hexDigits (n : Nat) (tail : List Char) :
    (hexDigits n ++ '\x7d' :: tail).takeWhile (· ≠ '\x7d') = hexDigits n := by
  rw [List.takeWhile_append_of_pos]
  · simp
  · intro c hc
    simp only [ne_eq, decide_not, Bool.not_eq_eq_eq_not, Bool.not_true, decide_eq_false_iff_not]
    rintro rfl
    exact brace_notMem_hexDigits n hc

/-- A character is known from how it is written, whatever comes after it. -/
theorem Escaped.inj (h : Escaped c cs) (hother : Escaped d ds) (htext : cs ++ rest = ds ++ rest') :
    c = d ∧ rest = rest' := by
  have hbackslash : '\\' ∈ letterEscapes.map Prod.snd := by decide
  have hcode (letter : Char) (hletter : (letter, c) ∈ letterEscapes ∨ (letter, d) ∈ letterEscapes) :
      letter ≠ 'u' := by
    rintro rfl
    simp [letterEscapes] at hletter
  cases h with
  | @letter letter hletter =>
    cases hother with
    | @letter other hother =>
      obtain ⟨rfl, rfl⟩ : letter = other ∧ rest = rest' := by simpa using htext
      have hfunctional : ∀ first ∈ letterEscapes, ∀ second ∈ letterEscapes, first.1 = second.1 →
          first.2 = second.2 := by decide
      exact ⟨hfunctional _ hletter _ hother rfl, rfl⟩
    | plain hplain =>
      obtain ⟨rfl, -⟩ : '\\' = d ∧ letter :: rest = rest' := by simpa using htext
      exact absurd hbackslash hplain
    | code => exact absurd (List.cons.inj (List.cons.inj htext).2).1 (hcode letter (.inl hletter))
  | plain hplain =>
    cases hother with
    | @letter other hother =>
      obtain ⟨rfl, -⟩ : c = '\\' ∧ rest = other :: rest' := by simpa using htext
      exact absurd hbackslash hplain
    | plain => simpa using htext
    | code =>
      obtain ⟨rfl, -⟩ := List.cons.inj htext
      exact absurd hbackslash hplain
  | code =>
    cases hother with
    | @letter other hother =>
      exact absurd (List.cons.inj (List.cons.inj htext).2).1.symm (hcode other (.inr hother))
    | plain hplain =>
      obtain ⟨rfl, -⟩ := List.cons.inj htext
      exact absurd hbackslash hplain
    | code =>
      have hdigits : hexDigits c.toNat ++ '\x7d' :: rest = hexDigits d.toNat ++ '\x7d' :: rest' := by
        simpa using htext
      have hbefore := congrArg (List.takeWhile (· ≠ '\x7d')) hdigits
      rw [takeWhile_hexDigits, takeWhile_hexDigits] at hbefore
      rw [hbefore, List.append_right_inj, List.cons.injEq] at hdigits
      exact ⟨Char.toNat_inj.mp (hexDigits_inj hbefore), hdigits.2⟩

theorem isReadable_escape : IsReadableUpTo '\x22' escape where
  inj {c d _ _} h := (escaped_escape c).inj (escaped_escape d) h
  ne_mark c rest rest' h := by
    obtain ⟨d, ds, hescape, hd⟩ := (escaped_escape c).exists_cons
    rw [hescape] at h
    exact hd (List.cons.inj h).1

/-- A text is known from how it is shown. -/
theorem quoted_inj {text other : String} (h : quoted text = quoted other) : text = other := by
  have hchars := congrArg String.toList h
  simp only [quoted, String.toList_ofList, List.cons_append, List.cons.injEq, true_and] at hchars
  exact String.toList_injective (isReadable_escape.flatMap_inj hchars).1

end Escapes

section Literals

/-- What is written for a character does not close the literal. -/
theorem Escaped.quoted {c : Char} {cs : List Char} (h : Escaped c cs) (rest : List Char) :
    Token.Scan.quoted '\x22' false (cs ++ rest) =
      ((Token.Scan.quoted '\x22' false rest).1, (Token.Scan.quoted '\x22' false rest).2 + cs.length) := by
  have hplain {cs : List Char} (hcs : ∀ c ∈ cs, c ≠ '\\' ∧ c ≠ '\x22' ∧ c ≠ '\n') :
      Token.Scan.quoted '\x22' false (cs ++ rest) =
        ((Token.Scan.quoted '\x22' false rest).1, (Token.Scan.quoted '\x22' false rest).2 + cs.length) := by
    induction cs with
    | nil => rfl
    | cons c cs ih =>
      rw [List.forall_mem_cons] at hcs
      obtain ⟨⟨hbackslash, hquote, hnewline⟩, hcs⟩ := hcs
      rw [List.cons_append, quoted_cons hbackslash, if_neg hquote, ih hcs]
      simp [hnewline, Nat.add_assoc]
  cases h with
  | @letter letter hletter =>
    have hnewline : letter ≠ '\n' := by
      rintro rfl
      simp [letterEscapes] at hletter
    rw [List.cons_append, List.cons_append, List.nil_append, quoted_backslash, if_neg hnewline]
    rfl
  | plain h =>
    apply hplain
    rw [List.forall_mem_singleton]
    simp only [letterEscapes, List.map_cons, List.map_nil, List.mem_cons, List.not_mem_nil, or_false,
      not_or] at h
    exact ⟨h.2.2.2.2.2, h.2.2.2.2.1, h.2.2.1⟩
  | code =>
    have hdigits : ∀ d ∈ '\x7b' :: hexDigits c.toNat ++ ['\x7d'], d ≠ '\\' ∧ d ≠ '\x22' ∧ d ≠ '\n' := by
      have hdigit : ∀ d ∈ "0123456789abcdef".toList, d ≠ '\\' ∧ d ≠ '\x22' ∧ d ≠ '\n' := by decide
      intro d hd
      rw [List.cons_append, List.mem_cons, List.mem_append, List.mem_singleton] at hd
      rcases hd with rfl | hd | rfl
      · decide
      · exact hdigit d (mem_digits_of_mem_hexDigits hd)
      · decide
    have hbraces := hplain hdigits
    rw [List.cons_append, List.cons_append, List.cons_append, List.cons_append, quoted_backslash,
      if_neg (by decide), ← List.cons_append, hbraces]
    simp [Nat.add_assoc]

theorem quoted_flatMap_escape (cs : List Char) :
    Token.Scan.quoted '\x22' false (cs.flatMap escape ++ ['\x22']) =
      (true, (cs.flatMap escape).length + 1) := by
  induction cs with
  | nil => decide
  | cons c cs ih =>
    rw [List.flatMap_cons, List.append_assoc, (escaped_escape c).quoted, ih]
    simp only [List.length_append, Prod.mk.injEq, true_and]
    omega

theorem isLiteral_quoted (text : String) : IsLiteral (quoted text).toList := by
  let body := text.toList.flatMap escape
  have hchars : (quoted text).toList = '\x22' :: (body ++ ['\x22']) := by
    simp [quoted, body]
  have hquote : isQuote '\x22' = true := by decide
  -- A quote inside has a backslash before it, so the body does not go on with two more quotes.
  have hopen : ['\x22', '\x22'].isPrefixOf (body ++ ['\x22']) = false := by
    cases htext : text.toList with
    | nil =>
      simp only [body, htext]
      decide
    | cons c cs =>
      obtain ⟨d, ds, hescape, hne⟩ := (escaped_escape c).exists_cons
      simp [body, htext, hescape, List.isPrefixOf, Ne.symm hne]
  have hliteral := @literal_append [] (body ++ ['\x22']) '\x22' (by simp) (by simp) hquote
  rw [List.nil_append, literalBody_cons hquote, hopen, quoted_flatMap_escape] at hliteral
  rw [IsLiteral, hchars, hliteral]
  simp [body]

end Literals

end SqlLayout.Text
