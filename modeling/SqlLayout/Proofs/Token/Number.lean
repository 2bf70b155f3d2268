import SqlLayout.Proofs.Token.Scan

/-!
# Numbers

What follows a number does not change where it ends, unless it is a letter, a digit, a sign or a point; a
point does not either when the number already has one, or an exponent, or is hexadecimal.
-/

namespace SqlLayout.Token.Scan

section Cuts

variable {p : Char → Bool} {cs : List Char} {count : Nat}

theorem run_le_length (cs : List Char) : run p cs ≤ cs.length :=
  (List.takeWhile_prefix p).length_le

theorem run_take (cs : List Char) (count : Nat) : run p (cs.take count) = min count (run p cs) := by
  induction cs generalizing count with
  | nil => simp [run]
  | cons c cs ih =>
    cases count with
    | zero => simp [run]
    | succ count =>
      have hrest := ih count
      simp only [run] at hrest
      by_cases hc : p c
      · simp only [run, List.take_succ_cons, List.takeWhile_cons_of_pos hc, List.length_cons, hrest]
        omega
      · simp [run, hc]

theorem fraction_le_length (cs : List Char) : fraction cs ≤ cs.length := by
  unfold fraction
  split
  · rename_i tail
    have := run_le_length (p := Char.isDigit) tail
    simp only [List.length_cons]
    omega
  · omega

theorem fraction_cons_of_ne {c : Char} (hc : c ≠ '.') : fraction (c :: cs) = 0 := by
  unfold fraction
  split
  · rename_i heq
    exact absurd (List.cons.inj heq).1 hc
  · rfl

theorem fraction_take (cs : List Char) (count : Nat) :
    fraction (cs.take count) = min count (fraction cs) := by
  cases cs with
  | nil => simp [fraction]
  | cons c cs =>
    cases count with
    | zero => simp [fraction]
    | succ count =>
      by_cases hc : c = '.'
      · subst hc
        simp only [List.take_succ_cons, fraction, run_take]
        omega
      · rw [List.take_succ_cons, fraction_cons_of_ne hc, fraction_cons_of_ne hc, Nat.min_zero]

/-- An exponent without a sign, after its letter. -/
theorem exponent_cons {e : Char} (he : (e == 'e' || e == 'E') = true) {c : Char}
    (hc : (c == '+' || c == '-') = false) :
    exponent (e :: c :: cs) =
      if run Char.isDigit (c :: cs) = 0 then 0 else 1 + run Char.isDigit (c :: cs) := by
  simp only [exponent, he, if_true, hc, Bool.false_eq_true, if_false]

theorem exponent_cons_sign {e : Char} (he : (e == 'e' || e == 'E') = true) {c : Char}
    (hc : (c == '+' || c == '-') = true) :
    exponent (e :: c :: cs) =
      if run Char.isDigit cs = 0 then 0 else 2 + run Char.isDigit cs := by
  simp only [exponent, he, if_true, hc]

theorem exponent_cons_of_ne {e : Char} (he : (e == 'e' || e == 'E') = false) :
    exponent (e :: cs) = 0 := by
  simp only [exponent, he, Bool.false_eq_true, if_false]

theorem exponent_singleton (e : Char) : exponent [e] = 0 := by
  simp [exponent]

theorem exponent_le_length (cs : List Char) : exponent cs ≤ cs.length := by
  cases cs with
  | nil => simp [exponent]
  | cons e cs =>
    cases he : (e == 'e' || e == 'E') with
    | false => simp [exponent_cons_of_ne he]
    | true =>
      cases cs with
      | nil => simp [exponent_singleton]
      | cons c cs =>
        cases hc : (c == '+' || c == '-') with
        | false =>
          have := run_le_length (p := Char.isDigit) (c :: cs)
          simp only [List.length_cons] at this ⊢
          rw [exponent_cons he hc]
          split <;> omega
        | true =>
          have := run_le_length (p := Char.isDigit) cs
          simp only [List.length_cons] at this ⊢
          rw [exponent_cons_sign he hc]
          split <;> omega

theorem exponent_take (h : exponent cs ≤ count) : exponent (cs.take count) = exponent cs := by
  cases cs with
  | nil => simp
  | cons e cs =>
    cases count with
    | zero => simp_all [exponent]
    | succ count =>
      rw [List.take_succ_cons]
      cases he : (e == 'e' || e == 'E') with
      | false => rw [exponent_cons_of_ne he, exponent_cons_of_ne he]
      | true =>
        cases cs with
        | nil => simp
        | cons c cs =>
          cases hc : (c == '+' || c == '-') with
          | false =>
            rw [exponent_cons he hc] at h ⊢
            cases count with
            | zero =>
              rw [List.take_zero, exponent_singleton]
              split at h <;> [rw [if_pos (by assumption)]; omega]
            | succ count =>
              have hrun := run_take (p := Char.isDigit) (c :: cs) (count + 1)
              rw [List.take_succ_cons] at hrun ⊢
              rw [exponent_cons he hc, hrun]
              split at h
              · rename_i hzero
                simp [hzero]
              · have hmin : min (count + 1) (run Char.isDigit (c :: cs)) =
                    run Char.isDigit (c :: cs) := by
                  omega
                rw [hmin]
          | true =>
            rw [exponent_cons_sign he hc] at h ⊢
            cases count with
            | zero =>
              rw [List.take_zero, exponent_singleton]
              split at h <;> [rw [if_pos (by assumption)]; omega]
            | succ count =>
              rw [List.take_succ_cons, exponent_cons_sign he hc, run_take]
              split at h
              · rename_i hzero
                simp [hzero]
              · have hmin : min count (run Char.isDigit cs) = run Char.isDigit cs := by omega
                rw [hmin]

theorem decimal_eq (cs : List Char) :
    decimal cs =
      if run Char.isDigit cs = 0 then 0
      else run Char.isDigit cs + fraction (cs.drop (run Char.isDigit cs))
        + exponent (cs.drop (run Char.isDigit cs + fraction (cs.drop (run Char.isDigit cs)))) :=
  rfl

theorem pointFirst_eq (cs : List Char) :
    pointFirst cs =
      if fraction cs < 2 then 0 else fraction cs + exponent (cs.drop (fraction cs)) :=
  rfl

theorem decimal_take (h : decimal cs ≤ count) : decimal (cs.take count) = decimal cs := by
  rw [decimal_eq] at h ⊢
  rw [decimal_eq cs, run_take]
  split at h
  · rename_i hzero
    simp [hzero]
  · rename_i hzero
    have hwhole : min count (run Char.isDigit cs) = run Char.isDigit cs := by omega
    rw [hwhole, if_neg hzero, if_neg hzero, List.drop_take, fraction_take]
    have hfraction : min (count - run Char.isDigit cs) (fraction (cs.drop (run Char.isDigit cs))) =
        fraction (cs.drop (run Char.isDigit cs)) := by
      omega
    rw [hfraction, List.drop_take, exponent_take (by omega)]

theorem pointFirst_take (h : pointFirst cs ≤ count) : pointFirst (cs.take count) = pointFirst cs := by
  rw [pointFirst_eq] at h ⊢
  rw [pointFirst_eq cs, fraction_take]
  split at h
  · rw [if_pos (by omega), if_pos (by omega)]
  · have hfraction : min count (fraction cs) = fraction cs := by omega
    rw [hfraction, List.drop_take, exponent_take (by omega)]

theorem hexadecimal_zero_cons (c : Char) (cs : List Char) :
    hexadecimal ('0' :: c :: cs) =
      if (c == 'x' || c == 'X') && run isHexDigit cs ≠ 0 then 2 + run isHexDigit cs else 0 :=
  rfl

theorem hexadecimal_cons_of_ne {c : Char} (hc : c ≠ '0') : hexadecimal (c :: cs) = 0 := by
  unfold hexadecimal
  split
  · rename_i heq
    exact absurd (List.cons.inj heq).1 hc
  · rfl

theorem hexadecimal_take (h : hexadecimal cs ≤ count) :
    hexadecimal (cs.take count) = hexadecimal cs := by
  match cs, count with
  | [], _ => simp
  | [c], count => cases count <;> simp_all [hexadecimal]
  | a :: c :: cs, 0 => simp_all [hexadecimal]
  | a :: c :: cs, 1 =>
    by_cases ha : a = '0'
    · subst ha
      rw [hexadecimal_zero_cons] at h ⊢
      split at h
      · omega
      · rename_i hnone
        rw [if_neg hnone]
        rfl
    · rw [List.take_succ_cons, hexadecimal_cons_of_ne ha, hexadecimal_cons_of_ne ha]
  | a :: c :: cs, count + 2 =>
    rw [List.take_succ_cons, List.take_succ_cons]
    by_cases ha : a = '0'
    · subst ha
      rw [hexadecimal_zero_cons] at h
      rw [hexadecimal_zero_cons, hexadecimal_zero_cons, run_take]
      split at h
      · have hrun : min count (run isHexDigit cs) = run isHexDigit cs := by omega
        rw [hrun]
      · rename_i hnone
        rw [if_neg hnone, if_neg]
        simp only [Bool.and_eq_true, decide_eq_true_eq] at hnone ⊢
        exact fun hsome => hnone ⟨hsome.1, by omega⟩
    · rw [hexadecimal_cons_of_ne ha, hexadecimal_cons_of_ne ha]

theorem number_le_length (cs : List Char) : number cs ≤ cs.length := by
  have hwhole := run_le_length (p := Char.isDigit) cs
  have hdecimal : decimal cs ≤ cs.length := by
    rw [decimal_eq]
    have hfraction := fraction_le_length (cs.drop (run Char.isDigit cs))
    have hexponent := exponent_le_length
      (cs.drop (run Char.isDigit cs + fraction (cs.drop (run Char.isDigit cs))))
    simp only [List.length_drop] at hfraction hexponent
    split <;> omega
  have hpointFirst : pointFirst cs ≤ cs.length := by
    rw [pointFirst_eq]
    have hfraction := fraction_le_length cs
    have hexponent := exponent_le_length (cs.drop (fraction cs))
    simp only [List.length_drop] at hexponent
    split <;> omega
  have hhexadecimal : hexadecimal cs ≤ cs.length := by
    match cs with
    | [] => simp [hexadecimal]
    | [c] => simp [hexadecimal]
    | a :: c :: cs =>
      by_cases ha : a = '0'
      · subst ha
        have hrun := run_le_length (p := isHexDigit) cs
        rw [hexadecimal_zero_cons]
        split <;> simp only [List.length_cons] <;> omega
      · rw [hexadecimal_cons_of_ne ha]
        omega
  simp only [number]
  omega

theorem number_take (h : number cs ≤ count) : number (cs.take count) = number cs := by
  simp only [number] at h ⊢
  rw [decimal_take (by omega), pointFirst_take (by omega), hexadecimal_take (by omega)]

end Cuts

section Extensions

variable {p : Char → Bool} {cs rest text : List Char}

/-- No number goes on with such a character. -/
def endsNumber (c : Char) : Bool :=
  !isWordRest c && c != '.' && c != '+' && c != '-'

theorem run_append_of_head? (h : ∀ c ∈ rest.head?, p c = false) : run p (cs ++ rest) = run p cs := by
  induction cs with
  | nil => exact run_eq_zero h
  | cons c cs ih =>
    simp only [run] at ih
    by_cases hc : p c <;> simp [run, hc, ih]

theorem isWordRest_of_isDigit {c : Char} (h : c.isDigit) : isWordRest c := by
  simp [isWordRest, Char.isAlphanum, h]

theorem isWordRest_of_isHexDigit {c : Char} (h : isHexDigit c) : isWordRest c := by
  simp only [isHexDigit, Bool.or_eq_true, Bool.and_eq_true, decide_eq_true_eq] at h
  delta isWordRest Char.isAlphanum Char.isAlpha Char.isUpper Char.isLower
  simp only [Bool.or_eq_true, Bool.and_eq_true, decide_eq_true_eq, ge_iff_le]
  rcases h with (hdigit | ⟨hlow, hhigh⟩) | ⟨hlow, hhigh⟩
  · exact .inl (.inr hdigit)
  · have hlast : 'f' ≤ 'z' := by decide
    exact .inl (.inl (.inr ⟨hlow, UInt32.le_trans hhigh hlast⟩))
  · have hlast : 'F' ≤ 'Z' := by decide
    exact .inl (.inl (.inl ⟨hlow, UInt32.le_trans hhigh hlast⟩))

theorem endsNumber_isDigit {c : Char} (h : endsNumber c) : c.isDigit = false := by
  by_contra hdigit
  simp [endsNumber, isWordRest_of_isDigit (by simpa using hdigit)] at h

theorem fraction_append (h : ∀ c ∈ rest.head?, endsNumber c) : fraction (cs ++ rest) = fraction cs := by
  cases cs with
  | nil =>
    cases rest with
    | nil => rfl
    | cons c rest =>
      have hc := h c rfl
      rw [List.nil_append, fraction_cons_of_ne]
      · rfl
      · rintro rfl
        exact absurd hc (by decide)
  | cons c cs =>
    by_cases hc : c = '.'
    · subst hc
      rw [List.cons_append, fraction, fraction,
        run_append_of_head? fun d hd => endsNumber_isDigit (h d hd)]
    · rw [List.cons_append, fraction_cons_of_ne hc, fraction_cons_of_ne hc]

/-- Nothing of an exponent. -/
def endsExponent (c : Char) : Bool :=
  !c.isDigit && !(c == 'e' || c == 'E') && !(c == '+' || c == '-')

theorem isDigit_of_isWordRest {c : Char} (h : isWordRest c = false) : c.isDigit = false := by
  by_contra hdigit
  rw [isWordRest_of_isDigit (by simpa using hdigit)] at h
  cases h

theorem endsExponent_of_isWordRest {c : Char} (hword : isWordRest c = false) (hplus : c ≠ '+')
    (hminus : c ≠ '-') : endsExponent c := by
  have hdigit := isDigit_of_isWordRest hword
  have hletter : (c == 'e' || c == 'E') = false := by
    by_contra hletter
    simp only [Bool.not_eq_false, Bool.or_eq_true, beq_iff_eq] at hletter
    rcases hletter with rfl | rfl <;> exact absurd hword (by decide)
  simp [endsExponent, hdigit, hletter, hplus, hminus]

theorem endsExponent_of_endsNumber {c : Char} (h : endsNumber c) : endsExponent c := by
  simp only [endsNumber, Bool.and_eq_true, Bool.not_eq_true', bne_iff_ne] at h
  exact endsExponent_of_isWordRest h.1.1.1 h.1.2 h.2

theorem exponent_append (h : ∀ c ∈ rest.head?, endsExponent c) :
    exponent (cs ++ rest) = exponent cs := by
  have hends : ∀ c ∈ rest.head?, c.isDigit = false ∧ (c == 'e' || c == 'E') = false ∧
      (c == '+' || c == '-') = false := by
    intro c hc
    have hc := h c hc
    simp only [endsExponent, Bool.and_eq_true, Bool.not_eq_true'] at hc
    exact ⟨hc.1.1, hc.1.2, hc.2⟩
  have hdigits : ∀ c ∈ rest.head?, c.isDigit = false := fun c hc => (hends c hc).1
  match cs with
  | [] =>
    cases rest with
    | nil => rfl
    | cons c rest =>
      rw [List.nil_append, exponent_cons_of_ne (hends c rfl).2.1]
      rfl
  | [e] =>
    rw [List.singleton_append, exponent_singleton]
    cases he : (e == 'e' || e == 'E') with
    | false => exact exponent_cons_of_ne he
    | true =>
      cases rest with
      | nil => exact exponent_singleton e
      | cons c rest =>
        rw [exponent_cons he (hends c rfl).2.2, run_eq_zero hdigits]
        rfl
  | e :: c :: cs =>
    rw [List.cons_append, List.cons_append]
    cases he : (e == 'e' || e == 'E') with
    | false => rw [exponent_cons_of_ne he, exponent_cons_of_ne he]
    | true =>
      cases hc : (c == '+' || c == '-') with
      | false =>
        rw [exponent_cons he hc, exponent_cons he hc, ← List.cons_append,
          run_append_of_head? hdigits]
      | true =>
        rw [exponent_cons_sign he hc, exponent_cons_sign he hc, run_append_of_head? hdigits]

theorem hexadecimal_append (htext : text ≠ []) (h : ∀ c ∈ rest.head?, isWordRest c = false) :
    hexadecimal (text ++ rest) = hexadecimal text := by
  have hdigits : ∀ c ∈ rest.head?, isHexDigit c = false := by
    intro c hc
    by_contra hdigit
    have hword := isWordRest_of_isHexDigit (by simpa using hdigit)
    rw [h c hc] at hword
    cases hword
  match text with
  | [] => exact absurd rfl htext
  | [a] =>
    by_cases ha : a = '0'
    · subst ha
      cases rest with
      | nil => rfl
      | cons c rest =>
        rw [List.singleton_append, hexadecimal_zero_cons, if_neg]
        · rfl
        · intro hx
          simp only [Bool.and_eq_true, Bool.or_eq_true, beq_iff_eq] at hx
          rcases hx.1 with rfl | rfl <;> exact absurd (h _ rfl) (by decide)
    · rw [List.singleton_append, hexadecimal_cons_of_ne ha, hexadecimal_cons_of_ne ha]
  | a :: c :: cs =>
    rw [List.cons_append, List.cons_append]
    by_cases ha : a = '0'
    · subst ha
      rw [hexadecimal_zero_cons, hexadecimal_zero_cons, run_append_of_head? hdigits]
    · rw [hexadecimal_cons_of_ne ha, hexadecimal_cons_of_ne ha]

/-- What follows a number does not matter when neither a fraction nor an exponent goes on with it. -/
theorem number_append_of_fraction (htext : text ≠ [])
    (h : ∀ c ∈ rest.head?, isWordRest c = false ∧ endsExponent c)
    (hpoint : fraction (text ++ rest) = fraction text)
    (hfraction : run Char.isDigit text ≠ 0 → fraction (text.drop (run Char.isDigit text) ++ rest) =
      fraction (text.drop (run Char.isDigit text))) :
    number (text ++ rest) = number text := by
  have hexponent {cs : List Char} : exponent (cs ++ rest) = exponent cs :=
    exponent_append fun c hc => (h c hc).2
  have hrun : run Char.isDigit (text ++ rest) = run Char.isDigit text :=
    run_append_of_head? fun c hc => isDigit_of_isWordRest (h c hc).1
  have hdecimal : decimal (text ++ rest) = decimal text := by
    rw [decimal_eq, decimal_eq text, hrun]
    by_cases hzero : run Char.isDigit text = 0
    · rw [if_pos hzero, if_pos hzero]
    · have hwhole := run_le_length (p := Char.isDigit) text
      have hlength := fraction_le_length (text.drop (run Char.isDigit text))
      rw [List.length_drop] at hlength
      rw [if_neg hzero, if_neg hzero, List.drop_append_of_le_length hwhole, hfraction hzero,
        List.drop_append_of_le_length (by omega), hexponent]
  have hpointFirst : pointFirst (text ++ rest) = pointFirst text := by
    rw [pointFirst_eq, pointFirst_eq text, hpoint,
      List.drop_append_of_le_length (fraction_le_length text), hexponent]
  rw [number, number, hdecimal, hpointFirst, hexadecimal_append htext fun c hc => (h c hc).1]

theorem number_append (htext : text ≠ []) (h : ∀ c ∈ rest.head?, endsNumber c) :
    number (text ++ rest) = number text := by
  refine number_append_of_fraction htext (fun c hc => ⟨?_, endsExponent_of_endsNumber (h c hc)⟩)
    (fraction_append h) fun _ => fraction_append h
  have hends := h c hc
  simp only [endsNumber, Bool.and_eq_true, Bool.not_eq_true'] at hends
  exact hends.1.1.1

/-- A point after a number that does not consist of digits alone. -/
theorem number_append_point (htext : ∃ c ∈ text, c.isDigit = false) :
    number (text ++ '.' :: rest) = number text := by
  obtain ⟨c, hmem, hdigit⟩ := htext
  have hne : text ≠ [] := List.ne_nil_of_mem hmem
  have hfraction {cs : List Char} (hne : cs ≠ []) :
      fraction (cs ++ '.' :: rest) = fraction cs := by
    cases cs with
    | nil => exact absurd rfl hne
    | cons d cs =>
      by_cases hd : d = '.'
      · subst hd
        have hpoint : ∀ c ∈ ('.' :: rest).head?, c.isDigit = false := by
          intro c hc
          cases hc
          decide
        rw [List.cons_append, fraction, fraction, run_append_of_head? hpoint]
      · rw [List.cons_append, fraction_cons_of_ne hd, fraction_cons_of_ne hd]
  refine number_append_of_fraction hne ?_ (hfraction hne) fun _ => hfraction ?_
  · intro c hc
    cases hc
    decide
  · intro hnil
    have hall : text = text.takeWhile Char.isDigit := calc
      text = text.take (run Char.isDigit text) ++ text.drop (run Char.isDigit text) :=
        (List.take_append_drop _ _).symm
      _ = text.takeWhile Char.isDigit := by rw [hnil, List.append_nil, take_run]
    rw [hall] at hmem
    rw [List.mem_takeWhile_imp hmem] at hdigit
    cases hdigit

/-- A point after digits belongs to the number, and so does an exponent after it. -/
theorem number_digits_point {digits : List Char} (hdigits : ∀ c ∈ digits, c.isDigit)
    (hne : digits ≠ []) (hrest : ∀ c ∈ rest.head?, c.isDigit = false) :
    number (digits ++ '.' :: rest) = digits.length + 1 + exponent rest := by
  have hpoint : ∀ c ∈ ('.' :: rest).head?, c.isDigit = false := by
    intro c hc
    cases hc
    decide
  have hrun := run_append_eq hdigits hpoint
  have hfraction : fraction ('.' :: rest) = 1 := by rw [fraction, run_eq_zero hrest]
  have hdecimal : decimal (digits ++ '.' :: rest) = digits.length + 1 + exponent rest := by
    rw [decimal_eq, hrun, if_neg (by simpa using hne), List.drop_left, hfraction]
    have hdrop : (digits ++ '.' :: rest).drop (digits.length + 1) = rest := by
      simp [List.drop_append]
    rw [hdrop]
  obtain ⟨d, ds, rfl⟩ := List.exists_cons_of_ne_nil hne
  have hd : d ≠ '.' := by
    rintro rfl
    exact absurd (hdigits '.' (by simp)) (by decide)
  have hpointFirst : pointFirst (d :: ds ++ '.' :: rest) = 0 := by
    rw [pointFirst_eq, List.cons_append, fraction_cons_of_ne hd]
    rfl
  have hhexadecimal : hexadecimal (d :: ds ++ '.' :: rest) = 0 := by
    by_cases hzero : d = '0'
    · subst hzero
      have hletter (c : Char) (hc : c.isDigit ∨ c = '.') : (c == 'x' || c == 'X') = false := by
        by_contra hx
        simp only [Bool.not_eq_false, Bool.or_eq_true, beq_iff_eq] at hx
        rcases hx with rfl | rfl <;> exact absurd hc (by decide)
      cases ds with
      | nil => rw [List.singleton_append, hexadecimal_zero_cons, hletter '.' (.inr rfl)]; rfl
      | cons c ds =>
        rw [List.cons_append, List.cons_append, hexadecimal_zero_cons,
          hletter c (.inl (hdigits c (by simp)))]
        rfl
    · exact hexadecimal_cons_of_ne hzero
  rw [number, hdecimal, hpointFirst, hhexadecimal]
  omega

/-- Digits with a point, an exponent or letters of a hexadecimal number among them or not. -/
def IsNumber (text : List Char) : Prop :=
  number text = text.length ∧ text ≠ []

theorem two_le_number_of_point (h : number ('.' :: cs) ≠ 0) : 2 ≤ number ('.' :: cs) := by
  have hdecimal : decimal ('.' :: cs) = 0 := rfl
  have hhexadecimal : hexadecimal ('.' :: cs) = 0 := hexadecimal_cons_of_ne (by decide)
  simp only [number, hdecimal, hhexadecimal, pointFirst_eq] at h ⊢
  split at h
  · omega
  · rename_i hlong
    rw [if_neg hlong]
    omega

theorem next_number_of_eq {count : Nat} (h : number cs = count) (hne : count ≠ 0) :
    next cs = ⟨.number, count⟩ := by
  subst h
  cases cs with
  | nil => exact absurd rfl hne
  | cons c cs =>
    apply next_eq
    · rw [mem_candidates]
      exact .inr (.inr (.inr (.inl ⟨hne, rfl⟩)))
    · intro other hother
      rcases number_ne_zero hne with hdigit | rfl
      · rcases openings_of_not_mem_marks (not_mem_marks_of_isDigit hdigit) hother with
          ⟨hword, -⟩ | ⟨hletter, -⟩ | ⟨-, rfl⟩
        · rw [not_isDigit_of_isWordStart hword] at hdigit
          cases hdigit
        · rw [not_isDigit_of_isWordStart (isWordStart_of_isPrefixLetter hletter)] at hdigit
          cases hdigit
        · exact .inl rfl
      · rcases openings hother with
          ⟨hc, -⟩ | ⟨hc, -⟩ | ⟨hc, -⟩ | ⟨-, rfl⟩ | ⟨hc, -⟩ | ⟨hc, -⟩ | ⟨hc, -⟩ |
            ⟨-, symbol, hmem, hleading, rfl⟩
        · exact absurd hc (by decide)
        · exact absurd hc (by decide)
        · exact absurd hc (by decide)
        · exact .inl rfl
        · exact absurd hc (by decide)
        · exact absurd hc (by decide)
        · exact absurd hc (by decide)
        · -- The point alone is shorter than a number that starts with it.
          right
          have hpoint : ∀ symbol ∈ Kind.symbols, symbol.2.toList.head? = some '.' →
              symbol.2.length = 1 := by
            decide
          have hlength : symbol.2.length = 1 := by
            apply hpoint symbol hmem
            obtain ⟨tail, htail⟩ := hleading
            cases htext : symbol.2.toList with
            | nil => exact absurd htext (symbol_ne_nil symbol hmem)
            | cons d ds =>
              rw [htext, List.cons_append] at htail
              rw [(List.cons.inj htail).1]
              rfl
          have htwo := two_le_number_of_point hne
          dsimp only
          omega

theorem next_number (htext : IsNumber text) (h : ∀ c ∈ rest.head?, endsNumber c) :
    next (text ++ rest) = ⟨.number, text.length⟩ :=
  next_number_of_eq ((number_append htext.2 h).trans htext.1)
    (List.length_pos_of_ne_nil htext.2).ne'

theorem isNumber_of_next {length : Nat} (h : next cs = ⟨.number, length⟩) :
    IsNumber (cs.take length) := by
  rcases next_cases h (by decide) with ⟨hk, -⟩ | ⟨hk, -⟩ | ⟨hk, -⟩ | ⟨-, hnumber, hne⟩ | ⟨hk, -⟩ |
    ⟨hk, -⟩ | ⟨hk, -⟩ | ⟨hk, -⟩
  · cases hk
  · cases hk
  · cases hk
  · have hle := number_le_length cs
    rw [hnumber] at hle
    have hlength : (cs.take length).length = length := by rw [List.length_take, Nat.min_eq_left hle]
    refine ⟨?_, fun hnil => ?_⟩
    · rw [number_take hnumber.le, hnumber, hlength]
    · rw [hnil] at hlength
      exact hne hlength.symm
  all_goals cases hk

end Extensions

end SqlLayout.Token.Scan
