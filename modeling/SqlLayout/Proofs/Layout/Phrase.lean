import SqlLayout.Proofs.Layout.Form
import SqlLayout.Proofs.Token.Lexing

/-!
# Phrases

A row is a legible spelling that starts and ends with a token, and a phrase is a row without comments
that does not ask for a line of its own.
Phrases can be put together with blanks, commas and brackets between them; without anything in between
only where the first one ends before the character that the second one starts with.
-/

namespace SqlLayout

open Token Token.Scan

namespace Spelling

/-- The character of a spelling that starts with a token. -/
def first? : Spelling → Option Char
  | .glyph glyph :: _ => glyph.text.toList.head?
  | _ => none

/-- The token at the end of a spelling ends before a character. -/
def EndsBefore (spelling : Spelling) (c : Char) : Prop :=
  ∀ glyph, spelling.getLast? = some (.glyph glyph) → glyph.endsBefore c

structure IsRow (spelling : Spelling) : Prop where
  legible : spelling.IsLegible
  head : ∃ glyph, spelling.head? = some (.glyph glyph)
  last : ∃ glyph, spelling.getLast? = some (.glyph glyph) ∧ glyph.tied = false

structure IsPhrase (spelling : Spelling) : Prop extends IsRow spelling where
  plain : ∀ glyph, .glyph glyph ∈ spelling → glyph.kind.isComment = false
  flat : Atom.line ∉ spelling

variable {spelling other body : Spelling} {spellings : List Spelling} {glyph : Glyph} {c : Char}

theorem first?_append (h : spelling ≠ []) : first? (spelling ++ other) = first? spelling := by
  cases spelling with
  | nil => exact absurd rfl h
  | cons atom spelling => cases atom <;> rfl

theorem EndsBefore.append (h : other.EndsBefore c) (hne : other ≠ []) :
    EndsBefore (spelling ++ other) c := by
  intro glyph hlast
  rw [List.getLast?_append_of_ne_nil _ hne] at hlast
  exact h glyph hlast

theorem endsBefore_singleton (h : glyph.endsBefore c) : EndsBefore [.glyph glyph] c := by
  intro last hlast
  cases hlast
  exact h

theorem isLegible_append (h : spelling.IsLegible) (h' : other.IsLegible)
    (hjoins : ∀ last ∈ spelling.getLast?, ∀ next ∈ other.head?, Atom.Joins last next) :
    (spelling ++ other).IsLegible := by
  refine ⟨?_, List.isChain_append.mpr ⟨h.joins, h'.joins, hjoins⟩⟩
  intro glyph hmem
  exact (List.mem_append.mp hmem).elim (h.genuine glyph) (h'.genuine glyph)

theorem isLegible_blank {atom : Atom} (hatom : ∀ glyph, atom ≠ .glyph glyph) : IsLegible [atom] := by
  refine ⟨?_, List.isChain_singleton _⟩
  intro glyph hmem
  exact absurd (List.mem_singleton.mp hmem).symm (hatom glyph)

namespace IsRow

theorem ne_nil (h : spelling.IsRow) : spelling ≠ [] := by
  rintro rfl
  obtain ⟨glyph, hhead⟩ := h.head
  cases hhead

theorem single (h : glyph.IsGenuine) (htied : glyph.tied = false) : IsRow [.glyph glyph] where
  legible := by
    refine ⟨?_, List.isChain_singleton _⟩
    intro other hmem
    cases List.mem_singleton.mp hmem
    exact h
  head := ⟨glyph, rfl⟩
  last := ⟨glyph, rfl, htied⟩

/-- What the last token and the first one make of two rows next to each other. -/
theorem appendWith {between : Spelling} (h : spelling.IsRow) (h' : other.IsRow)
    (hlegible : (spelling ++ between ++ other).IsLegible) : (spelling ++ between ++ other).IsRow where
  legible := hlegible
  head := by
    rw [List.append_assoc, List.head?_append_of_ne_nil _ h.ne_nil]
    exact h.head
  last := by
    rw [List.getLast?_append_of_ne_nil _ h'.ne_nil]
    exact h'.last

theorem line (h : spelling.IsRow) (h' : other.IsRow) : IsRow (spelling ++ .line :: other) := by
  obtain ⟨last, hlast, htied⟩ := h.last
  obtain ⟨first, hfirst⟩ := h'.head
  have hblank : IsLegible [.line] := isLegible_blank (by simp)
  have hleft : IsLegible (spelling ++ [Atom.line]) := by
    apply isLegible_append h.legible hblank
    intro atom hatom next hnext
    rw [hlast] at hatom
    cases hatom
    cases hnext
    exact htied
  have hlegible : IsLegible (spelling ++ [Atom.line] ++ other) := by
    apply isLegible_append hleft h'.legible
    intro atom hatom next hnext
    rw [hfirst] at hnext
    cases hnext
    rw [List.getLast?_append_of_ne_nil _ (by simp)] at hatom
    cases hatom
    trivial
  have hrow := h.appendWith h' hlegible
  rwa [List.append_assoc] at hrow

end IsRow

namespace IsPhrase

theorem ne_nil (h : spelling.IsPhrase) : spelling ≠ [] :=
  h.toIsRow.ne_nil

theorem single (h : glyph.IsGenuine) (htied : glyph.tied = false)
    (hkind : glyph.kind.isComment = false) : IsPhrase [.glyph glyph] where
  toIsRow := .single h htied
  plain := by
    intro other hmem
    cases List.mem_singleton.mp hmem
    exact hkind
  flat := by simp

theorem exists_last (h : spelling.IsPhrase) :
    ∃ last, spelling.getLast? = some (.glyph last) ∧ last.IsGenuine ∧ last.tied = false ∧
      last.kind ≠ .lineComment := by
  obtain ⟨last, hlast, htied⟩ := h.last
  have hmem := List.mem_of_getLast? hlast
  refine ⟨last, hlast, h.legible.genuine last hmem, htied, ?_⟩
  intro hkind
  have hplain := h.plain last hmem
  rw [hkind] at hplain
  cases hplain

theorem exists_head (h : spelling.IsPhrase) :
    ∃ first, spelling.head? = some (.glyph first) ∧ first.kind.isComment = false ∧
      first? spelling = first.text.toList.head? := by
  obtain ⟨first, hfirst⟩ := h.head
  refine ⟨first, hfirst, h.plain first (List.mem_of_mem_head? hfirst), ?_⟩
  cases spelling with
  | nil => cases hfirst
  | cons atom spelling =>
    cases hfirst
    rfl

/-- A phrase ends where a blank, a comma, a semicolon or a bracket comes. -/
theorem endsBefore (h : spelling.IsPhrase) (hc : c ∈ Glyph.neutral) : spelling.EndsBefore c := by
  obtain ⟨last, hlast, hgenuine, -, hkind⟩ := h.exists_last
  intro glyph hglyph
  rw [hlast] at hglyph
  cases hglyph
  exact last.endsBefore_of_mem_neutral hgenuine hkind hc

theorem appendWith {between : Spelling} (h : spelling.IsPhrase) (h' : other.IsPhrase)
    (hbetween : ∀ glyph, .glyph glyph ∉ between) (hflat : Atom.line ∉ between)
    (hlegible : (spelling ++ between ++ other).IsLegible) :
    (spelling ++ between ++ other).IsPhrase where
  toIsRow := h.toIsRow.appendWith h'.toIsRow hlegible
  plain := by
    intro glyph hmem
    rcases List.mem_append.mp hmem with hmem | hmem
    · exact (List.mem_append.mp hmem).elim (h.plain glyph) fun hmem => absurd hmem (hbetween glyph)
    · exact h'.plain glyph hmem
  flat := by
    simp only [List.mem_append, not_or]
    exact ⟨⟨h.flat, hflat⟩, h'.flat⟩

/-- Two phrases whose tokens at the join may stand next to each other. -/
theorem join (h : spelling.IsPhrase) (h' : other.IsPhrase)
    (hjoins : ∀ last first, spelling.getLast? = some (.glyph last) → other.head? = some (.glyph first) →
      Atom.Joins (.glyph last) (.glyph first)) : (spelling ++ other).IsPhrase := by
  obtain ⟨last, hlast, -⟩ := h.exists_last
  obtain ⟨first, hfirst, -⟩ := h'.exists_head
  have hlegible : (spelling ++ other).IsLegible := by
    apply isLegible_append h.legible h'.legible
    intro atom hatom next hnext
    rw [hlast] at hatom
    rw [hfirst] at hnext
    cases hatom
    cases hnext
    exact hjoins last first hlast hfirst
  have hnone : (spelling ++ [] ++ other).IsLegible := by rwa [List.append_nil]
  have happended := h.appendWith h' (by simp) (by simp) hnone
  rwa [List.append_nil] at happended

/-- Two phrases without anything in between. -/
theorem append (h : spelling.IsPhrase) (h' : other.IsPhrase)
    (hends : ∀ c ∈ first? other, spelling.EndsBefore c) : (spelling ++ other).IsPhrase := by
  obtain ⟨first, hfirst, hkind, hchar⟩ := h'.exists_head
  apply h.join h'
  intro last next hlast hnext
  rw [hfirst] at hnext
  cases hnext
  refine ⟨hkind, .inl ?_⟩
  intro c hc
  exact hends c (hchar ▸ hc) last hlast

/-- A phrase and a phrase that starts with a comma, a semicolon or a bracket. -/
theorem appendNeutral (h : spelling.IsPhrase) (h' : other.IsPhrase)
    (hfirst : ∀ c ∈ first? other, c ∈ Glyph.neutral) : (spelling ++ other).IsPhrase :=
  h.append h' fun c hc => h.endsBefore (hfirst c hc)

/-- A phrase and one that starts with a parenthesis. -/
theorem appendParen (h : spelling.IsPhrase) (h' : IsPhrase (Atom.parenOpen :: other)) :
    IsPhrase (spelling ++ Atom.parenOpen :: other) := by
  refine h.appendNeutral h' ?_
  intro c hc
  cases hc
  decide

/-- A phrase and one that starts with a bracket. -/
theorem appendBracket (h : spelling.IsPhrase) (h' : IsPhrase (Atom.bracketOpen :: other)) :
    IsPhrase (spelling ++ Atom.bracketOpen :: other) := by
  refine h.appendNeutral h' ?_
  intro c hc
  cases hc
  decide

/-- Two phrases with blanks between them. -/
theorem gap (h : spelling.IsPhrase) (h' : other.IsPhrase) : IsPhrase (spelling ++ .gap :: other) := by
  obtain ⟨last, hlast, -, htied, hkind⟩ := h.exists_last
  obtain ⟨first, hfirst, -⟩ := h'.exists_head
  have hblank : IsLegible [.gap] := isLegible_blank (by simp)
  have hleft : IsLegible (spelling ++ [Atom.gap]) := by
    apply isLegible_append h.legible hblank
    intro atom hatom next hnext
    rw [hlast] at hatom
    cases hatom
    cases hnext
    exact ⟨htied, hkind⟩
  have hlegible : IsLegible (spelling ++ [Atom.gap] ++ other) := by
    apply isLegible_append hleft h'.legible
    intro atom hatom next hnext
    rw [hfirst] at hnext
    cases hnext
    rw [List.getLast?_append_of_ne_nil _ (by simp)] at hatom
    cases hatom
    trivial
  have happended := h.appendWith h' (by simp) (by simp) hlegible
  rwa [List.append_assoc] at happended

end IsPhrase

section Tokens

/-- Words that are written as keywords are. -/
def isKeyword (text : String) : Bool :=
  match text.toList with
  | [] => false
  | c :: cs => isWordStart c && cs.all isWordRest

theorem isWord_of_isKeyword {text : String} (h : isKeyword text) : IsWord text.toList := by
  unfold isKeyword at h
  split at h
  · cases h
  · rename_i c cs htext
    simp only [Bool.and_eq_true, List.all_eq_true] at h
    exact ⟨c, cs, htext, h.1, h.2⟩

theorem isPhrase_word {text : String} (h : IsWord text.toList) : IsPhrase [Atom.word text] :=
  .single (by simpa [Glyph.IsGenuine] using h) rfl rfl

theorem isPhrase_keyword {text : String} (h : isKeyword text) : IsPhrase [Atom.word text] :=
  isPhrase_word (isWord_of_isKeyword h)

theorem isPhrase_symbol {kind : Kind} {text : String} (h : (kind, text) ∈ Kind.symbols) :
    IsPhrase [Atom.symbol kind text] := by
  have hsymbol : kind.isSymbol := (Kind.mem_symbols_iff kind).mp (List.mem_map_of_mem (f := Prod.fst) h)
  refine .single ?_ rfl ?_
  · unfold Glyph.IsGenuine
    dsimp only
    split <;> simp_all [Kind.isSymbol]
  · show kind.isComment = false
    cases kind <;> first | rfl | cases hsymbol

/-- A symbol that no other symbol starts with ends before everything. -/
theorem extendsSymbol_alone {mark : Char}
    (halone : ∀ symbol ∈ Kind.symbols, symbol.2.toList.head? = some mark → symbol.2.toList = [mark])
    (hmark : mark ∉ ['.', '-', '/']) (c : Char) : extendsSymbol [mark] c = false := by
  have hany : Kind.symbols.any (fun symbol => [mark, c].isPrefixOf symbol.2.toList) = false := by
    rw [List.any_eq_false]
    intro symbol hsymbol hleading
    obtain ⟨tail, htail⟩ := List.isPrefixOf_iff_prefix.mp hleading
    have htext := halone symbol hsymbol (by simp [← htail])
    simp [← htail] at htext
  simp only [List.mem_cons, List.not_mem_nil, or_false, not_or] at hmark
  simp [extendsSymbol, hany, hmark]

theorem endsBefore_symbol {kind : Kind} {text : String} (hsymbol : kind.isSymbol)
    (h : extendsSymbol text.toList c = false) : EndsBefore [Atom.symbol kind text] c := by
  apply endsBefore_singleton
  unfold Glyph.endsBefore
  dsimp only
  split <;> simp_all [Kind.isSymbol]

theorem endsBefore_parenOpen (c : Char) : EndsBefore [Atom.parenOpen] c :=
  endsBefore_symbol rfl (extendsSymbol_alone (by decide) (by decide) c)

theorem endsBefore_bracketOpen (c : Char) : EndsBefore [Atom.bracketOpen] c :=
  endsBefore_symbol rfl (extendsSymbol_alone (by decide) (by decide) c)

end Tokens

section Lists

theorem isPhrase_spaced (hne : spellings ≠ []) (h : ∀ spelling ∈ spellings, spelling.IsPhrase) :
    (spaced spellings).IsPhrase := by
  induction spellings with
  | nil => exact absurd rfl hne
  | cons spelling spellings ih =>
    have hfirst := h spelling (by simp)
    cases spellings with
    | nil => simpa [spaced] using hfirst
    | cons next spellings =>
      have hrest := ih (by simp) fun other hmem => h other (List.mem_cons_of_mem _ hmem)
      have hgap := hfirst.gap hrest
      simp only [spaced, List.intercalate_cons_cons, List.append_assoc] at hgap ⊢
      exact hgap

theorem isPhrase_comma : IsPhrase [Atom.comma] :=
  isPhrase_symbol (by decide)

theorem isPhrase_commas (hne : spellings ≠ []) (h : ∀ spelling ∈ spellings, spelling.IsPhrase) :
    (commas spellings).IsPhrase := by
  induction spellings with
  | nil => exact absurd rfl hne
  | cons spelling spellings ih =>
    have hfirst := h spelling (by simp)
    cases spellings with
    | nil => simpa [commas] using hfirst
    | cons next spellings =>
      have hrest := ih (by simp) fun other hmem => h other (List.mem_cons_of_mem _ hmem)
      have hcomma := (hfirst.appendNeutral isPhrase_comma (by decide)).gap hrest
      simp only [commas, List.intercalate_cons_cons, List.append_assoc] at hcomma ⊢
      exact hcomma

theorem isPhrase_words {texts : List String} (hne : texts ≠ []) (h : ∀ text ∈ texts, isKeyword text) :
    (words texts).IsPhrase := by
  induction texts with
  | nil => exact absurd rfl hne
  | cons text texts ih =>
    have hfirst := isPhrase_keyword (h text (by simp))
    cases texts with
    | nil => exact hfirst
    | cons next texts =>
      have hrest := ih (by simp) fun other hmem => h other (List.mem_cons_of_mem _ hmem)
      exact hfirst.gap hrest

end Lists

section Brackets

theorem isPhrase_parenClose : IsPhrase [Atom.parenClose] :=
  isPhrase_symbol (by decide)

theorem isPhrase_bracketClose : IsPhrase [Atom.bracketClose] :=
  isPhrase_symbol (by decide)

theorem IsPhrase.inParens (h : body.IsPhrase) : IsPhrase (Atom.parenOpen :: body ++ [Atom.parenClose]) := by
  have hopen : IsPhrase [Atom.parenOpen] := isPhrase_symbol (by decide)
  exact (hopen.append h fun c _ => endsBefore_parenOpen c).appendNeutral isPhrase_parenClose (by decide)

theorem IsPhrase.inBrackets (h : body.IsPhrase) :
    IsPhrase (Atom.bracketOpen :: body ++ [Atom.bracketClose]) := by
  have hopen : IsPhrase [Atom.bracketOpen] := isPhrase_symbol (by decide)
  exact (hopen.append h fun c _ => endsBefore_bracketOpen c).appendNeutral isPhrase_bracketClose
    (by decide)

/-- Parentheses around a list that may be empty. -/
theorem isPhrase_list (h : ∀ spelling ∈ spellings, spelling.IsPhrase) :
    IsPhrase (Atom.parenOpen :: commas spellings ++ [Atom.parenClose]) := by
  cases spellings with
  | nil =>
    have hopen : IsPhrase [Atom.parenOpen] := isPhrase_symbol (by decide)
    exact hopen.append isPhrase_parenClose fun c _ => endsBefore_parenOpen c
  | cons spelling spellings => exact (isPhrase_commas (by simp) h).inParens

/-- Brackets around a list that may be empty. -/
theorem isPhrase_bracketList (h : ∀ spelling ∈ spellings, spelling.IsPhrase) :
    IsPhrase (Atom.bracketOpen :: commas spellings ++ [Atom.bracketClose]) := by
  cases spellings with
  | nil =>
    have hopen : IsPhrase [Atom.bracketOpen] := isPhrase_symbol (by decide)
    exact hopen.append isPhrase_bracketClose fun c _ => endsBefore_bracketOpen c
  | cons spelling spellings => exact (isPhrase_commas (by simp) h).inBrackets

/-- Parentheses on lines of their own. -/
theorem IsPhrase.enclosed (h : body.IsPhrase) : (enclosed body).IsPhrase := by
  obtain ⟨last, hlast, -, htied, hkind⟩ := h.exists_last
  obtain ⟨first, hfirst, -⟩ := h.exists_head
  have hopen : IsPhrase [Atom.parenOpen] := isPhrase_symbol (by decide)
  have hopened : IsLegible (Atom.parenOpen :: .soft .opening :: body) := by
    have hblank : IsLegible [.soft .opening] := isLegible_blank (by simp)
    have hleft : IsLegible ([Atom.parenOpen] ++ [.soft .opening]) := by
      apply isLegible_append hopen.legible hblank
      intro atom hatom next hnext
      cases hatom
      cases hnext
      exact ⟨rfl, rfl⟩
    refine isLegible_append hleft h.legible ?_
    intro atom hatom next hnext
    rw [hfirst] at hnext
    cases hatom
    cases hnext
    trivial
  have hclosed : IsLegible [.soft .closing, Atom.parenClose] := by
    have hblank : IsLegible [.soft .closing] := isLegible_blank (by simp)
    apply isLegible_append hblank isPhrase_parenClose.legible
    intro atom hatom next hnext
    cases hatom
    cases hnext
    rfl
  have hlegible : (Spelling.enclosed body).IsLegible := by
    apply isLegible_append hopened hclosed
    intro atom hatom next hnext
    have hopened : Atom.parenOpen :: .soft .opening :: body = [Atom.parenOpen, .soft .opening] ++ body := rfl
    rw [hopened, List.getLast?_append_of_ne_nil _ h.ne_nil, hlast] at hatom
    cases hatom
    cases hnext
    exact ⟨htied, hkind⟩
  refine ⟨⟨hlegible, ⟨_, rfl⟩, ?_⟩, ?_, ?_⟩
  · unfold Spelling.enclosed
    rw [List.getLast?_append_of_ne_nil _ (by simp)]
    exact ⟨_, rfl, rfl⟩
  · intro glyph hmem
    simp only [Spelling.enclosed, Atom.parenOpen, Atom.parenClose, Atom.symbol, List.cons_append,
      List.mem_cons, List.mem_append, List.not_mem_nil, or_false, Atom.glyph.injEq, reduceCtorEq,
      false_or] at hmem
    rcases hmem with rfl | hmem | rfl
    · rfl
    · exact h.plain glyph hmem
    · rfl
  · simp [Spelling.enclosed, Atom.parenOpen, Atom.parenClose, Atom.symbol, h.flat]

end Brackets

end Spelling

end SqlLayout
