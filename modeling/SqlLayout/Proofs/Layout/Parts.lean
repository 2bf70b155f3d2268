import SqlLayout.Proofs.Layout.Words

/-!
# Phrases of Parts

The parts that syntax is spelled with are phrases when what they are put together from is: clauses,
calls, aggregates, windows and subscripts. Digits before the name of a field take in the point, and an
exponent that the name starts with; what is left of the name is a name again.
-/

namespace SqlLayout

open Token Token.Scan Spelling

section Digits

variable {name : List Char}

/-- What an exponent leaves of a word is a word. -/
theorem isWord_drop_exponent (h : IsWord name) (hne : name.drop (exponent name) ≠ []) :
    IsWord (name.drop (exponent name)) := by
  have hkeep (hzero : exponent name = 0) : IsWord (name.drop (exponent name)) := by
    rw [hzero, List.drop_zero]
    exact h
  obtain ⟨first, rest, rfl, hfirst, hrest⟩ := h
  cases he : (first == 'e' || first == 'E') with
  | false => exact hkeep (exponent_cons_of_ne he)
  | true =>
    cases rest with
    | nil => exact hkeep (exponent_singleton first)
    | cons c cs =>
      have hsign : (c == '+' || c == '-') = false := by
        have hc := hrest c (by simp)
        by_contra hsign
        simp only [Bool.not_eq_false, Bool.or_eq_true, beq_iff_eq] at hsign
        rcases hsign with rfl | rfl <;> exact absurd hc (by decide)
      rw [exponent_cons he hsign] at hkeep hne ⊢
      split at hne
      · rename_i hzero
        rw [if_pos hzero] at hkeep ⊢
        exact hkeep rfl
      · rename_i hpos
        rw [if_neg hpos, Nat.add_comm, List.drop_succ_cons] at ⊢
        rw [Nat.add_comm, List.drop_succ_cons] at hne
        obtain ⟨d, ds, hdrop⟩ := List.exists_cons_of_ne_nil hne
        have hmem : ∀ e ∈ d :: ds, isWordRest e := by
          intro e hmem
          rw [← hdrop] at hmem
          exact hrest e (List.mem_of_mem_drop hmem)
        have hdigit : d.isDigit = false := by
          have hhead : d ∈ ((c :: cs).drop (run Char.isDigit (c :: cs))).head? := by
            rw [hdrop]
            rfl
          exact head?_drop_run hhead
        refine ⟨d, ds, hdrop, ?_, fun e he => hmem e (by simp [he])⟩
        have hd := hmem d (by simp)
        simpa [isWordRest, isWordStart, Char.isAlphanum, hdigit] using hd

/-- What an exponent leaves of a name is a name of the same kind. -/
theorem segment_drop_exponent {name rest : Identifier} (h : name.IsSegment)
    (hrest : rest.raw.toList = name.raw.toList.drop (exponent name.raw.toList))
    (hne : rest.raw.toList ≠ []) :
    (IsWord name.raw.toList ∧ IsWord rest.raw.toList) ∨
      (IsQuotedName name.raw.toList ∧ IsQuotedName rest.raw.toList) := by
  rw [hrest] at hne ⊢
  rcases h with h | ⟨body, htext, hbody⟩
  · exact .inl ⟨h, isWord_drop_exponent h hne⟩
  · have hzero : exponent name.raw.toList = 0 := by
      rw [htext]
      rfl
    rw [hzero, List.drop_zero]
    exact .inr ⟨⟨body, htext, hbody⟩, ⟨body, htext, hbody⟩⟩

/-- A field right after digits; what it spells ends before a point. -/
theorem isPhrase_digitField {digits : String} {name : Identifier} (hsome : digits.toList ≠ [])
    (hdigits : ∀ c ∈ digits.toList, c.isDigit) (hname : name.IsSegment) :
    (digitField digits name.raw).IsPhrase ∧ EndsBefore (digitField digits name.raw) '.' ∧
      first? (digitField digits name.raw) = digits.toList.head? := by
  have hexponent : exponent (name.raw.toList.take (exponent name.raw.toList)) =
      exponent name.raw.toList := exponent_take (Nat.le_refl _)
  have hstart : ∀ c ∈ (name.raw.toList.take (exponent name.raw.toList)).head?, c.isDigit = false := by
    intro c hc
    rw [List.head?_take] at hc
    have hfirst : c ∈ first? name.spelling := by
      split at hc
      · cases hc
      · exact hc
    exact name.isDigit_of_first hname hfirst
  have hpoint : ".".toList = ['.'] := by decide
  generalize hnumber : digits ++ "." ++ String.ofList (name.raw.toList.take (exponent name.raw.toList)) =
    number
  have htext : number.toList = digits.toList ++ '.' :: name.raw.toList.take (exponent name.raw.toList) := by
    simp [← hnumber, hpoint]
  have hgenuine : IsNumber number.toList := by
    refine ⟨?_, by simp [htext]⟩
    rw [htext, number_digits_point hdigits hsome hstart, hexponent, List.length_append, List.length_cons,
      List.length_take, Nat.min_eq_left (exponent_le_length _)]
    omega
  have hphrase : IsPhrase [.glyph { kind := .number, text := number }] := .single hgenuine rfl rfl
  have hhead : number.toList.head? = digits.toList.head? := by
    rw [htext, List.head?_append_of_ne_nil _ hsome]
  unfold digitField
  dsimp only
  rw [hnumber]
  generalize hrest : String.ofList (name.raw.toList.drop (exponent name.raw.toList)) = rest
  split
  · refine ⟨hphrase, endsBefore_singleton ?_, hhead⟩
    have hmem : '.' ∈ number.toList := by simp [htext]
    have hall : number.toList.all Char.isDigit = false := by
      rw [List.all_eq_false]
      exact ⟨'.', hmem, by decide⟩
    simp [Glyph.endsBefore, hall]
  · rename_i hempty
    have hrest : rest.toList = name.raw.toList.drop (exponent name.raw.toList) := by simp [← hrest]
    have hne : rest.toList ≠ [] := by
      intro hnil
      rw [String.toList_eq_nil_iff.mp hnil] at hempty
      exact hempty rfl
    have hkinds := @segment_drop_exponent name ⟨rest⟩ hname hrest hne
    have hsegment : Identifier.IsSegment ⟨rest⟩ := hkinds.imp And.right And.right
    have hphrase' : IsPhrase (Identifier.spelling ⟨rest⟩) := Identifier.isPhrase hsegment
    have hends : EndsBefore
        ([Atom.glyph { kind := .number, text := number }] ++ Identifier.spelling ⟨rest⟩) '.' :=
      (Identifier.endsBefore_dot hsegment).append hphrase'.ne_nil
    refine ⟨hphrase.join hphrase' ?_, hends, hhead⟩
    intro last next hlast hnext
    cases hlast
    cases hnext
    refine ⟨(Identifier.isGenuine_glyph hsegment).2, .inr ⟨rfl, digits.toList, name.raw.toList,
      hsome, hdigits, htext, hrest, ?_⟩⟩
    exact hkinds.imp (fun h => ⟨h.1, Identifier.kind_of_isWord h.2⟩)
      fun h => ⟨h.1, Identifier.kind_of_isQuotedName h.2⟩

end Digits

section Parts

variable {spelling body : Spelling} {spellings : List Spelling}

theorem isPhrase_optional {α : Type} {respell : α → Spelling} {o : Option α}
    (h : ∀ a ∈ o, (respell a).IsPhrase) : ∀ spelling ∈ (o.map respell).toList, spelling.IsPhrase := by
  intro spelling hmem
  cases o with
  | none => cases hmem
  | some a =>
    cases List.mem_singleton.mp hmem
    exact h a rfl

theorem isPhrase_map {α : Type} {respell : α → Spelling} {items : List α}
    (h : ∀ item ∈ items, (respell item).IsPhrase) :
    ∀ spelling ∈ items.map respell, spelling.IsPhrase := by
  intro spelling hmem
  obtain ⟨item, hitem, rfl⟩ := List.mem_map.mp hmem
  exact h item hitem

theorem isPhrase_names {names : List Identifier} (h : ∀ name ∈ names, name.IsSound) :
    ∀ spelling ∈ names.map Identifier.spelling, spelling.IsPhrase :=
  isPhrase_map fun name hmem => name.isPhrase (h name hmem).isSegment

theorem isPhrase_aliased (h : spelling.IsPhrase) {aliasName : Option Identifier}
    (hname : ∀ name ∈ aliasName, name.IsSound) : (spelling ++ aliasSpelling aliasName).IsPhrase := by
  cases aliasName with
  | none =>
    rw [aliasSpelling, List.append_nil]
    exact h
  | some name =>
    have has : IsPhrase [Atom.word "AS"] := isPhrase_keyword (by decide)
    have hphrase := (h.gap has).gap (name.isPhrase (hname name rfl).isSegment)
    rw [List.append_assoc] at hphrase
    exact hphrase

theorem isPhrase_modified (h : spelling.IsPhrase) {suffix : Option Spelling}
    (hsuffix : ∀ inner ∈ suffix, inner.IsPhrase) : (spelling ++ modifier suffix).IsPhrase := by
  cases suffix with
  | none =>
    rw [modifier, List.append_nil]
    exact h
  | some suffix => exact h.gap (hsuffix suffix rfl)

theorem isPhrase_clause {keyword : List String} (hne : keyword ≠ [])
    (hkeyword : ∀ text ∈ keyword, isKeyword text) (h : body.IsPhrase) :
    (clauseSpelling keyword body).IsPhrase :=
  (isPhrase_words hne hkeyword).gap h

theorem isPhrase_listClauses {keyword : List String} (hne : keyword ≠ [])
    (hkeyword : ∀ text ∈ keyword, isKeyword text) (h : ∀ spelling ∈ spellings, spelling.IsPhrase) :
    ∀ spelling ∈ listClauses keyword spellings, spelling.IsPhrase := by
  intro spelling hmem
  cases spellings with
  | nil => cases hmem
  | cons first rest =>
    cases List.mem_singleton.mp hmem
    exact isPhrase_clause hne hkeyword (isPhrase_commas (by simp) h)

theorem isPhrase_modifyFirst {change : Spelling → Spelling} (h : ∀ spelling ∈ spellings, spelling.IsPhrase)
    (hchange : ∀ spelling, spelling.IsPhrase → (change spelling).IsPhrase) :
    ∀ spelling ∈ modifyFirst change spellings, spelling.IsPhrase := by
  intro spelling hmem
  cases spellings with
  | nil => cases hmem
  | cons first rest =>
    rcases List.mem_cons.mp hmem with rfl | hmem
    · exact hchange first (h first (by simp))
    · exact h spelling (List.mem_cons_of_mem _ hmem)

theorem isPhrase_modifyLast {change : Spelling → Spelling} (h : ∀ spelling ∈ spellings, spelling.IsPhrase)
    (hchange : ∀ spelling, spelling.IsPhrase → (change spelling).IsPhrase) :
    ∀ spelling ∈ modifyLast change spellings, spelling.IsPhrase := by
  induction spellings with
  | nil =>
    intro spelling hmem
    cases hmem
  | cons first rest ih =>
    intro spelling hmem
    cases rest with
    | nil =>
      cases List.mem_singleton.mp hmem
      exact hchange first (h first (by simp))
    | cons next rest =>
      rcases List.mem_cons.mp hmem with rfl | hmem
      · exact h spelling (by simp)
      · exact ih (fun other hother => h other (List.mem_cons_of_mem _ hother)) spelling hmem

theorem isPhrase_distinct (isDistinct : Bool) (h : spelling.IsPhrase) :
    (distinctSpelling isDistinct spelling).IsPhrase := by
  have hdistinct : IsPhrase [Atom.word "DISTINCT"] := isPhrase_keyword (by decide)
  unfold distinctSpelling
  split
  · exact hdistinct.gap h
  · exact h

theorem isPhrase_call {head : Spelling} (hhead : head.IsPhrase)
    (h : ∀ spelling ∈ spellings, spelling.IsPhrase) : (callSpelling head spellings).IsPhrase := by
  have hcall := hhead.appendParen (isPhrase_list h)
  simpa [callSpelling] using hcall

theorem isPhrase_headed {head : Spelling} (hhead : head.IsPhrase) (h : body.IsPhrase) :
    (head ++ enclosed body).IsPhrase :=
  hhead.appendParen h.enclosed

theorem isPhrase_aggregate {head : Spelling} (hhead : head.IsPhrase) (hne : spellings ≠ [])
    (h : ∀ spelling ∈ spellings, spelling.IsPhrase) : (aggregateSpelling head spellings).IsPhrase :=
  isPhrase_headed hhead (isPhrase_spaced hne h)

theorem isPhrase_window (h : ∀ spelling ∈ spellings, spelling.IsPhrase) :
    (windowSpelling spellings).IsPhrase := by
  have hover : IsPhrase [Atom.word "OVER"] := isPhrase_keyword (by decide)
  cases spellings with
  | nil =>
    have hparens : IsPhrase (Atom.parenOpen :: commas [] ++ [Atom.parenClose]) := isPhrase_list h
    exact hover.gap hparens
  | cons first rest => exact hover.gap (isPhrase_spaced (by simp) h).enclosed

/-- A subscript, with a word around its position or without. -/
theorem isPhrase_subscript {base : Spelling} (hbase : base.IsPhrase) (h : spelling.IsPhrase)
    (kind : Option IndexKind) : (base ++ subscriptSpelling kind spelling).IsPhrase := by
  cases kind with
  | none => exact hbase.appendBracket h.inBrackets
  | some kind =>
    have hinner := (kind.isPhrase.appendParen h.inParens).inBrackets
    have hbracketed := hbase.appendBracket hinner
    simpa [subscriptSpelling] using hbracketed

theorem isPhrase_accessor {base : Spelling} (hbase : base.IsPhrase) (h : spelling.IsPhrase)
    {name : Option Identifier} (hname : ∀ inner ∈ name, inner.IsSegment) :
    (base ++ accessorSpelling name spelling).IsPhrase := by
  cases name with
  | none => exact hbase.appendBracket h.inBrackets
  | some name =>
    have hinner := ((name.isPhrase (hname name rfl)).appendParen h.inParens).inBrackets
    have hbracketed := hbase.appendBracket hinner
    simpa [accessorSpelling] using hbracketed

theorem isPhrase_suffix {keyword : String} (hkeyword : isKeyword keyword) (h : spelling.IsPhrase)
    (hitems : ∀ item ∈ spellings, item.IsPhrase) :
    (spelling ++ suffixSpelling keyword spellings).IsPhrase := by
  unfold suffixSpelling
  split
  · rw [List.append_nil]
    exact h
  · have hphrase := (h.gap (isPhrase_keyword hkeyword)).gap (isPhrase_list hitems)
    simpa using hphrase

theorem isPhrase_combine (op : SetOperator) (quantifier : Option SetQuantifier) :
    (combineSpelling op quantifier).IsPhrase := by
  have hop : IsPhrase [Atom.word op.text] := by
    cases op <;> exact isPhrase_keyword (by decide)
  refine isPhrase_modified hop ?_
  intro inner hinner
  obtain ⟨quantifier, -, rfl⟩ := Option.map_eq_some_iff.mp hinner
  cases quantifier <;> exact isPhrase_keyword (by decide)

theorem isPhrase_selectHead (distinct : Bool) (shape : Option SelectAs) :
    (selectHeadSpelling distinct shape).IsPhrase := by
  have hselect : (words (if distinct then ["SELECT", "DISTINCT"] else ["SELECT"])).IsPhrase := by
    cases distinct <;> exact isPhrase_words (by decide) (by decide)
  refine isPhrase_modified hselect ?_
  intro inner hinner
  obtain ⟨shape, -, rfl⟩ := Option.map_eq_some_iff.mp hinner
  exact shape.isPhrase

theorem isPhrase_join {left right : Spelling} (hleft : left.IsPhrase) (kind : JoinKind)
    (hright : right.IsPhrase) {condition : Option Spelling}
    (hcondition : ∀ inner ∈ condition, inner.IsPhrase) :
    (joinSpelling left kind right (modifier condition)).IsPhrase := by
  unfold joinSpelling
  split
  · have hphrase := (hleft.appendNeutral isPhrase_comma (by decide)).gap hright
    simpa using hphrase
  · have hphrase := isPhrase_modified ((hleft.gap kind.isPhrase).gap hright) hcondition
    simpa using hphrase

theorem first?_call {head : Spelling} (hhead : head ≠ []) :
    first? (callSpelling head spellings) = first? head := by
  rw [callSpelling, List.append_assoc, first?_append hhead]

theorem endsBefore_parenClose {spelling : Spelling} :
    EndsBefore (spelling ++ [Atom.parenClose]) '.' := by
  have hclose : EndsBefore [Atom.parenClose] '.' := endsBefore_symbol rfl (by decide)
  exact hclose.append (by simp)

theorem endsBefore_bracketClose {spelling : Spelling} :
    EndsBefore (spelling ++ [Atom.bracketClose]) '.' := by
  have hclose : EndsBefore [Atom.bracketClose] '.' := endsBefore_symbol rfl (by decide)
  exact hclose.append (by simp)

theorem endsBefore_call {head : Spelling} : (callSpelling head spellings).EndsBefore '.' :=
  endsBefore_parenClose

theorem endsBefore_enclosed {head : Spelling} : EndsBefore (head ++ enclosed body) '.' := by
  have hends := @endsBefore_parenClose
    (head ++ Atom.parenOpen :: .soft .opening :: body ++ [Atom.soft .closing])
  simpa [enclosed] using hends

theorem endsBefore_subscript {base : Spelling} (kind : Option IndexKind) :
    EndsBefore (base ++ subscriptSpelling kind spelling) '.' := by
  cases kind with
  | none =>
    have hends := @endsBefore_bracketClose (base ++ Atom.bracketOpen :: spelling)
    simpa [subscriptSpelling] using hends
  | some kind =>
    have hends := @endsBefore_bracketClose
      (base ++ Atom.bracketOpen :: kind.spelling ++ Atom.parenOpen :: spelling ++ [Atom.parenClose])
    simpa [subscriptSpelling] using hends

theorem endsBefore_accessor {base : Spelling} (name : Option Identifier) :
    EndsBefore (base ++ accessorSpelling name spelling) '.' := by
  cases name with
  | none =>
    have hends := @endsBefore_bracketClose (base ++ Atom.bracketOpen :: spelling)
    simpa [accessorSpelling] using hends
  | some name =>
    have hends := @endsBefore_bracketClose
      (base ++ Atom.bracketOpen :: name.spelling ++ Atom.parenOpen :: spelling ++ [Atom.parenClose])
    simpa [accessorSpelling] using hends

theorem endsBefore_window {head : Spelling} : EndsBefore (head ++ windowSpelling spellings) '.' := by
  cases spellings with
  | nil =>
    have hends := @endsBefore_parenClose (head ++ [Atom.word "OVER", .gap, Atom.parenOpen])
    simpa [windowSpelling] using hends
  | cons first rest =>
    have hends := @endsBefore_enclosed (spaced (first :: rest)) (head ++ [Atom.word "OVER", .gap])
    simpa [windowSpelling] using hends

theorem first?_spaced (h : spelling ≠ []) : first? (spaced (spelling :: spellings)) = first? spelling := by
  cases spellings with
  | nil => simp [spaced]
  | cons next rest => rw [spaced, List.intercalate_cons_cons, List.append_assoc, first?_append h]

theorem EndsBefore.spaced {c : Char} (h : spelling.EndsBefore c) (hne : spelling ≠ []) :
    EndsBefore (spaced (spellings ++ [spelling])) c := by
  induction spellings with
  | nil => simpa [Spelling.spaced] using h
  | cons first rest ih =>
    cases rest with
    | nil =>
      rw [List.singleton_append, Spelling.spaced, List.intercalate_cons_cons, List.intercalate_singleton]
      exact h.append hne
    | cons next rest =>
      have hrest : Spelling.spaced (next :: rest ++ [spelling]) ≠ [] := by
        rw [List.cons_append, Spelling.spaced]
        cases rest <;> simp
      rw [List.cons_append, List.cons_append, Spelling.spaced, List.intercalate_cons_cons]
      exact ih.append hrest

end Parts

end SqlLayout
