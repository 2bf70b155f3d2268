import SqlLayout.Proofs.Layout.Phrase
import SqlLayout.Proofs.Syntax.Sound

/-!
# Phrases of Names, Constants and Types

What a sound name, constant or type spells is a phrase. No name goes on with a point after it, and no
type with a closing angle bracket.
-/

namespace SqlLayout

open Token Token.Scan Spelling

section Names

namespace Identifier

variable {name : Identifier} {c : Char}

theorem kind_of_isWord (h : IsWord name.raw.toList) : name.glyph.kind = .word := by
  obtain ⟨first, rest, htext, hfirst, -⟩ := h
  have hne : first ≠ Scan.backquote := by
    rintro rfl
    exact absurd hfirst (by decide)
  simp [glyph, htext, hne]

theorem kind_of_isQuotedName (h : IsQuotedName name.raw.toList) : name.glyph.kind = .quotedIdent := by
  obtain ⟨body, htext, -⟩ := h
  simp [glyph, htext]

theorem isGenuine_glyph (h : name.IsSegment) : name.glyph.IsGenuine ∧ name.glyph.kind.isComment = false := by
  unfold Glyph.IsGenuine
  rcases h with h | h
  · rw [kind_of_isWord h]
    exact ⟨h, rfl⟩
  · rw [kind_of_isQuotedName h]
    exact ⟨h, rfl⟩

theorem isPhrase (h : name.IsSegment) : name.spelling.IsPhrase := by
  obtain ⟨hgenuine, hkind⟩ := isGenuine_glyph h
  exact .single hgenuine rfl hkind

/-- A name starts with a letter, an underscore or a quote. -/
theorem first_of_isSegment (h : name.IsSegment) (hc : c ∈ first? name.spelling) :
    isWordStart c ∨ c = Scan.backquote := by
  rcases h with ⟨first, rest, htext, hfirst, -⟩ | ⟨body, htext, -⟩
  · have hc : c ∈ name.raw.toList.head? := hc
    rw [htext] at hc
    cases hc
    exact .inl hfirst
  · have hc : c ∈ name.raw.toList.head? := hc
    rw [htext] at hc
    cases hc
    exact .inr rfl

theorem endsBefore_of_isWord (h : IsWord name.raw.toList)
    (hc : (!isWordRest c && !isQuote c && c != '+' && c != '-') = true) : name.spelling.EndsBefore c := by
  apply endsBefore_singleton
  unfold Glyph.endsBefore
  rw [kind_of_isWord h]
  exact hc

theorem endsBefore_dot (h : name.IsSegment) : name.spelling.EndsBefore '.' := by
  rcases h with h | h
  · exact endsBefore_of_isWord h (by decide)
  · apply endsBefore_singleton
    unfold Glyph.endsBefore
    rw [kind_of_isQuotedName h]

end Identifier

/-- After a point there are no digits in a name. -/
theorem endsBefore_ofDot {c : Char} (hc : c.isDigit = false) : EndsBefore [Atom.dot] c := by
  apply endsBefore_symbol rfl
  have hany : Kind.symbols.any (fun symbol => ['.', c].isPrefixOf symbol.2.toList) = false := by
    rw [List.any_eq_false]
    intro symbol hsymbol hleading
    obtain ⟨tail, htail⟩ := List.isPrefixOf_iff_prefix.mp hleading
    have htext := symbol_of_head symbol hsymbol '.' (by decide) (by simp [← htail])
    simp [← htail] at htext
  simp [extendsSymbol, hany, hc]

theorem Identifier.isDigit_of_first {name : Identifier} (h : name.IsSegment) {c : Char}
    (hc : c ∈ first? name.spelling) : c.isDigit = false := by
  rcases first_of_isSegment h hc with hstart | rfl
  · exact not_isDigit_of_isWordStart hstart
  · decide

theorem Identifier.isPhrase_dot {name : Identifier} (h : name.IsSegment) :
    IsPhrase (Atom.dot :: name.spelling) := by
  have hdot : IsPhrase [Atom.dot] := isPhrase_symbol (by decide)
  exact hdot.append (name.isPhrase h) fun c hc => endsBefore_ofDot (name.isDigit_of_first h hc)

/-- Names with points between them; what they spell ends before a point. -/
theorem isPhrase_dotted (name : Identifier) {names : List Identifier}
    (h : ∀ segment ∈ name :: names, segment.IsSegment) :
    IsPhrase (List.intercalate [Atom.dot] ((name :: names).map Identifier.spelling)) ∧
      EndsBefore (List.intercalate [Atom.dot] ((name :: names).map Identifier.spelling)) '.' ∧
      first? (List.intercalate [Atom.dot] ((name :: names).map Identifier.spelling)) =
        first? name.spelling := by
  induction names generalizing name with
  | nil =>
    have hname := h name (by simp)
    simpa using ⟨name.isPhrase hname, name.endsBefore_dot hname⟩
  | cons next names ih =>
    obtain ⟨hrest, hends, hfirst⟩ := ih next fun other hmem => h other (List.mem_cons_of_mem _ hmem)
    have hname := h name (by simp)
    have hnext := h next (by simp)
    have hdot : IsPhrase [Atom.dot] := isPhrase_symbol (by decide)
    rw [List.map_cons, List.map_cons, List.intercalate_cons_cons, ← List.map_cons]
    have hhead : IsPhrase (name.spelling ++ [Atom.dot]) := by
      refine (name.isPhrase hname).append hdot ?_
      intro c hc
      cases hc
      exact name.endsBefore_dot hname
    refine ⟨hhead.append hrest ?_, hends.append hrest.ne_nil, ?_⟩
    · intro c hc
      rw [hfirst] at hc
      exact (endsBefore_ofDot (next.isDigit_of_first hnext hc)).append (by simp)
    · rw [List.append_assoc, first?_append (name.isPhrase hname).ne_nil]

namespace QualifiedName

variable {name : QualifiedName}

theorem isSegment_of_isSound (h : name.IsSound) : ∀ segment ∈ name.segments, segment.IsSegment := by
  intro segment hmem
  rcases List.mem_cons.mp hmem with rfl | hmem
  · exact h.first.isSegment
  · exact h.rest segment hmem

theorem isSegment_of_isFunction (h : name.IsFunction) :
    ∀ segment ∈ name.segments, segment.IsSegment := by
  cases h with
  | name h => exact isSegment_of_isSound h
  | callable hword hcallable hsingle =>
    intro segment hmem
    rw [segments, hsingle, List.mem_singleton] at hmem
    rw [hmem]
    exact .inl hword

theorem isPhrase (h : ∀ segment ∈ name.segments, segment.IsSegment) : name.spelling.IsPhrase :=
  (isPhrase_dotted name.first h).1

theorem endsBefore_dot (h : ∀ segment ∈ name.segments, segment.IsSegment) :
    name.spelling.EndsBefore '.' :=
  (isPhrase_dotted name.first h).2.1

theorem first_of_isSegment (h : ∀ segment ∈ name.segments, segment.IsSegment) {c : Char}
    (hc : c ∈ first? name.spelling) : isWordStart c ∨ c = Scan.backquote := by
  have hfirst : first? name.spelling = first? name.first.spelling := (isPhrase_dotted name.first h).2.2
  rw [hfirst] at hc
  exact name.first.first_of_isSegment (h name.first (by simp [segments])) hc

end QualifiedName

namespace Constant

variable {constant : Constant} {c : Char}

theorem isGenuine_glyph (h : constant.IsSound) :
    constant.glyph.IsGenuine ∧ constant.glyph.kind.isComment = false := by
  obtain ⟨kind, text⟩ := constant
  unfold Glyph.IsGenuine
  cases kind with
  | string => exact ⟨h.1, rfl⟩
  | bytes => exact ⟨h.1, rfl⟩
  | number => exact ⟨h, rfl⟩
  | boolean =>
    have htext : text = "TRUE" ∨ text = "FALSE" := h
    rcases htext with rfl | rfl
    · exact ⟨isWord_of_isKeyword (by decide), rfl⟩
    · exact ⟨isWord_of_isKeyword (by decide), rfl⟩
  | null =>
    have htext : text = "NULL" := h
    subst htext
    exact ⟨isWord_of_isKeyword (by decide), rfl⟩

theorem isPhrase (h : constant.IsSound) : constant.spelling.IsPhrase := by
  obtain ⟨hgenuine, hkind⟩ := isGenuine_glyph h
  exact .single hgenuine rfl hkind

/-- No constant starts with a sign. -/
theorem first_ne_minus (h : constant.IsSound) (hc : c ∈ first? constant.spelling) : c ≠ '-' := by
  have hhead : c ∈ constant.text.toList.head? := hc
  rintro rfl
  have hword (hword : IsWord constant.text.toList) : False := by
    obtain ⟨first, cs, htext, hfirst, -⟩ := hword
    rw [htext] at hhead
    cases hhead
    exact absurd hfirst (by decide)
  have hliteral (hliteral : IsLiteral constant.text.toList) : False := by
    obtain ⟨first, cs, htext, hfirst⟩ := Glyph.exists_cons_of_isLiteral hliteral
    rw [htext] at hhead
    cases hhead
    exact absurd hfirst (by decide)
  have hgenuine := (isGenuine_glyph h).1
  obtain ⟨kind, text⟩ := constant
  cases kind with
  | string => exact hliteral hgenuine
  | bytes => exact hliteral hgenuine
  | number =>
    obtain ⟨first, cs, htext, hfirst⟩ := Glyph.exists_cons_of_isNumber hgenuine
    have hhead : '-' ∈ text.toList.head? := hhead
    rw [show text.toList = first :: cs from htext] at hhead
    cases hhead
    exact absurd hfirst (by decide)
  | boolean => exact hword hgenuine
  | null => exact hword hgenuine

/-- Digits alone are the only constant that goes on with a point. -/
theorem endsBefore_dot (h : constant.IsSound)
    (hdigits : constant.kind = .number → constant.text.toList.all Char.isDigit = false) :
    constant.spelling.EndsBefore '.' := by
  obtain ⟨kind, text⟩ := constant
  apply endsBefore_singleton
  unfold Glyph.endsBefore
  cases kind with
  | number => simp [glyph, ConstantKind.tokenKind, hdigits rfl]
  | _ => rfl

end Constant

theorem FrameBound.isPhrase {bound : FrameBound} (h : bound.IsSound) : bound.spelling.IsPhrase := by
  have hafter {count : Constant} {word : String} (hcount : count.IsSound) (hword : isKeyword word) :
      IsPhrase (count.spelling ++ [.gap, Atom.word word]) :=
    (Constant.isPhrase hcount).gap (isPhrase_keyword hword)
  cases bound with
  | preceding count => exact hafter h.1 (by decide)
  | following count => exact hafter h.1 (by decide)
  | _ => exact isPhrase_words (by decide) (by decide)

theorem Frame.isPhrase {frame : Frame} (h : frame.IsSound) : frame.spelling.IsPhrase := by
  have hunit : IsPhrase [Atom.word frame.unit.text] := by
    cases frame.unit <;> exact isPhrase_keyword (by decide)
  obtain ⟨unit, bound | ⟨start, stop⟩⟩ := frame
  · exact hunit.gap (FrameBound.isPhrase h)
  · have hbetween := hunit.gap (isPhrase_keyword (show isKeyword "BETWEEN" by decide))
    have hstart := hbetween.gap (FrameBound.isPhrase h.1)
    have hand := hstart.gap (isPhrase_keyword (show isKeyword "AND" by decide))
    have hstop := hand.gap (FrameBound.isPhrase h.2)
    simpa [spelling] using hstop

end Names

section Choices

/-- Two angle brackets that have to touch. -/
theorem isPhrase_shiftRight : (BinaryOp.spelling .shiftRight).IsPhrase := by
  have hangle : IsPhrase [Atom.symbol .gt ">"] := isPhrase_symbol (by decide)
  have hgenuine : Glyph.IsGenuine { kind := .gt, text := ">" } :=
    hangle.legible.genuine _ (List.mem_singleton_self _)
  have htied : IsLegible [.glyph { kind := .gt, text := ">", tied := true }] := by
    refine ⟨?_, List.isChain_singleton _⟩
    intro glyph hmem
    cases List.mem_singleton.mp hmem
    exact hgenuine
  refine ⟨⟨isLegible_append htied hangle.legible ?_, ⟨_, rfl⟩, ⟨_, rfl, rfl⟩⟩, ?_, by decide⟩
  · intro atom hatom next hnext
    cases hatom
    cases hnext
    exact ⟨rfl, .inl (by decide)⟩
  · intro glyph hmem
    rcases List.mem_pair.mp hmem with hglyph | hglyph <;> cases hglyph <;> rfl

theorem BinaryOp.isPhrase (op : BinaryOp) : op.spelling.IsPhrase := by
  cases op with
  | or | and | like | notLike => exact isPhrase_words (by decide) (by decide)
  | shiftRight => exact isPhrase_shiftRight
  | _ => exact isPhrase_symbol (by decide)

theorem UnaryOp.isPhrase (op : UnaryOp) : op.spelling.IsPhrase := by
  cases op with
  | not => exact isPhrase_words (by decide) (by decide)
  | _ => exact isPhrase_symbol (by decide)

/-- A sign ends before everything but a second minus. -/
theorem UnaryOp.endsBefore {op : UnaryOp} (hop : op ≠ .not) {c : Char} (hc : c ≠ '-') :
    op.spelling.EndsBefore c := by
  cases op with
  | not => exact absurd rfl hop
  | minus =>
    apply endsBefore_symbol rfl
    have hany : Kind.symbols.any (fun symbol => ['-', c].isPrefixOf symbol.2.toList) = false := by
      rw [List.any_eq_false]
      intro symbol hsymbol hleading
      obtain ⟨tail, htail⟩ := List.isPrefixOf_iff_prefix.mp hleading
      have htext := symbol_of_head symbol hsymbol '-' (by decide) (by simp [← htail])
      simp [← htail] at htext
    simp [extendsSymbol, hany, hc]
  | plus => exact endsBefore_symbol rfl (extendsSymbol_alone (by decide) (by decide) c)
  | bitNot => exact endsBefore_symbol rfl (extendsSymbol_alone (by decide) (by decide) c)

theorem NullHandling.isPhrase (nulls : NullHandling) : nulls.spelling.IsPhrase := by
  cases nulls <;> exact isPhrase_words (by decide) (by decide)

theorem Direction.isPhrase (direction : Direction) : direction.spelling.IsPhrase := by
  cases direction <;> exact isPhrase_keyword (by decide)

theorem NullsOrder.isPhrase (nulls : NullsOrder) : nulls.spelling.IsPhrase := by
  cases nulls <;> exact isPhrase_words (by decide) (by decide)

theorem IsValue.isPhrase (value : IsValue) : value.spelling.IsPhrase := by
  cases value <;> exact isPhrase_keyword (by decide)

theorem SelectAs.isPhrase (shape : SelectAs) : shape.spelling.IsPhrase := by
  cases shape <;> exact isPhrase_words (by decide) (by decide)

theorem JoinKind.isPhrase (kind : JoinKind) : kind.spelling.IsPhrase := by
  cases kind with
  | comma => exact isPhrase_comma
  | _ => exact isPhrase_words (by decide) (by decide)

theorem StringFunction.isPhrase (function : StringFunction) : function.spelling.IsPhrase := by
  cases function <;> exact isPhrase_keyword (by decide)

theorem IndexKind.isPhrase (kind : IndexKind) : kind.spelling.IsPhrase := by
  cases kind <;> exact isPhrase_keyword (by decide)

end Choices

section Types

variable {spellings : List Spelling} {c : Char}

/-- What can stand between angle brackets. -/
structure IsTypePhrase (spelling : Spelling) : Prop extends IsPhrase spelling where
  starts : ∀ c ∈ first? spelling, isWordStart c ∨ c = Scan.backquote
  ends : spelling.EndsBefore '>'

/-- An opening angle bracket ends before a name. -/
theorem endsBefore_lt (hc : isWordStart c ∨ c = Scan.backquote) : EndsBefore [Atom.symbol .lt "<"] c := by
  apply endsBefore_symbol rfl
  have hpairs : ∀ symbol ∈ Kind.symbols, symbol.2.toList.head? = some '<' →
      ∀ d ∈ symbol.2.toList.tail, isWordStart d = false ∧ d ≠ Scan.backquote := by
    decide
  have hany : Kind.symbols.any (fun symbol => ['<', c].isPrefixOf symbol.2.toList) = false := by
    rw [List.any_eq_false]
    intro symbol hsymbol hleading
    obtain ⟨tail, htail⟩ := List.isPrefixOf_iff_prefix.mp hleading
    obtain ⟨hword, hquote⟩ := hpairs symbol hsymbol (by simp [← htail]) c (by simp [← htail])
    rcases hc with hc | hc
    · rw [hword] at hc
      cases hc
    · exact hquote hc
  simp [extendsSymbol, hany]

theorem isTypePhrase_commas (hne : spellings ≠ []) (h : ∀ spelling ∈ spellings, IsTypePhrase spelling) :
    IsTypePhrase (commas spellings) := by
  refine ⟨isPhrase_commas hne fun spelling hmem => (h spelling hmem).toIsPhrase, ?_, ?_⟩
  · intro c hc
    obtain ⟨spelling, spellings, rfl⟩ := List.exists_cons_of_ne_nil hne
    have hfirst := h spelling (by simp)
    cases spellings with
    | nil => exact hfirst.starts c (by simpa [commas] using hc)
    | cons next spellings =>
      rw [commas, List.intercalate_cons_cons, List.append_assoc, first?_append hfirst.ne_nil] at hc
      exact hfirst.starts c hc
  · induction spellings with
    | nil => exact absurd rfl hne
    | cons spelling spellings ih =>
      cases spellings with
      | nil => simpa [commas] using (h spelling (by simp)).ends
      | cons next spellings =>
        have hrest (other : Spelling) (hmem : other ∈ next :: spellings) : IsTypePhrase other :=
          h other (List.mem_cons_of_mem _ hmem)
        have hphrase := isPhrase_commas (by simp) fun other hmem => (hrest other hmem).toIsPhrase
        rw [commas, List.intercalate_cons_cons]
        exact (ih (by simp) hrest).append hphrase.ne_nil

/-- A type or some fields between angle brackets. -/
theorem IsTypePhrase.inAngles {spelling : Spelling} (h : IsTypePhrase spelling) :
    IsPhrase (Atom.symbol .lt "<" :: spelling ++ [Atom.symbol .gt ">"]) := by
  have hopen : IsPhrase [Atom.symbol .lt "<"] := isPhrase_symbol (by decide)
  have hclose : IsPhrase [Atom.symbol .gt ">"] := isPhrase_symbol (by decide)
  refine (hopen.append h.toIsPhrase fun c hc => endsBefore_lt (h.starts c hc)).append hclose ?_
  intro c hc
  cases hc
  exact h.ends.append h.ne_nil

theorem isPhrase_angled (h : ∀ spelling ∈ spellings, IsTypePhrase spelling) :
    (angled spellings).IsPhrase ∧ first? (angled spellings) = some '<' ∧
      (angled spellings).EndsBefore '>' := by
  have hclose : EndsBefore [Atom.symbol .gt ">"] '>' := endsBefore_symbol rfl (by decide)
  cases spellings with
  | nil => exact ⟨isPhrase_symbol (by decide), by decide, endsBefore_symbol rfl (by decide)⟩
  | cons spelling spellings =>
    exact ⟨(isTypePhrase_commas (by simp) h).inAngles, rfl, hclose.append (by simp)⟩

/-- A word ends before an angle bracket. -/
theorem endsBefore_keyword {text : String}
    (hc : (!isWordRest c && !isQuote c && c != '+' && c != '-') = true) :
    EndsBefore [Atom.word text] c := by
  apply endsBefore_singleton
  exact hc

mutual

theorem SqlType.isTypePhrase : (type : SqlType) → type.IsSound → IsTypePhrase type.spelling
  | .named name params, h => by
    rw [SqlType.IsSound] at h
    rw [SqlType.spelling]
    obtain ⟨hword, hparams, -⟩ := h
    have hname := name.isPhrase (.inl hword)
    have hstarts : ∀ c ∈ first? name.spelling, isWordStart c ∨ c = Scan.backquote := fun c hc =>
      name.first_of_isSegment (.inl hword) hc
    split
    · rw [List.append_nil]
      exact ⟨hname, hstarts, name.endsBefore_of_isWord hword (by decide)⟩
    · have hlist : IsPhrase (Atom.parenOpen :: commas (params.map Constant.spelling)
          ++ [Atom.parenClose]) := by
        apply isPhrase_list
        intro spelling hmem
        obtain ⟨param, hparam, rfl⟩ := List.mem_map.mp hmem
        exact param.isPhrase (hparams param hparam)
      refine ⟨hname.appendParen hlist, ?_, ?_⟩
      · intro c hc
        rw [first?_append hname.ne_nil] at hc
        exact hstarts c hc
      · have hclose : EndsBefore [Atom.parenClose] '>' := endsBefore_symbol rfl (by decide)
        exact (hclose.append (by simp)).append hlist.ne_nil
  | .array element, h => by
    rw [SqlType.IsSound] at h
    rw [SqlType.spelling]
    have harray : isKeyword "ARRAY" := by decide
    have hangles := (SqlType.isTypePhrase element h).inAngles
    have hclose : EndsBefore [Atom.symbol .gt ">"] '>' := endsBefore_symbol rfl (by decide)
    refine ⟨(isPhrase_keyword harray).append hangles ?_, ?_, hclose.append (by simp)⟩
    · intro c hc
      cases hc
      exact endsBefore_keyword (by decide)
    · intro c hc
      cases hc
      exact .inl (by decide)
  | .struct fields, h => by
    rw [SqlType.IsSound] at h
    rw [SqlType.spelling]
    have hstruct : isKeyword "STRUCT" := by decide
    obtain ⟨hangled, hfirst, hends⟩ := isPhrase_angled (isTypePhrase_fields fields h)
    have hclose : EndsBefore ([Atom.word "STRUCT"] ++ angled (fieldSpellings fields)) '>' :=
      hends.append hangled.ne_nil
    have hopen : ∀ c ∈ first? (angled (fieldSpellings fields)), EndsBefore [Atom.word "STRUCT"] c := by
      intro c hc
      rw [hfirst] at hc
      cases hc
      exact endsBefore_keyword (by decide)
    refine ⟨(isPhrase_keyword hstruct).append hangled hopen, ?_, hclose⟩
    · intro c hc
      cases hc
      exact .inl (by decide)
  | .any, _ => by
    rw [SqlType.spelling]
    refine ⟨isPhrase_words (by decide) (by decide), ?_, ?_⟩
    · intro c hc
      cases hc
      exact .inl (by decide)
    · have htype : EndsBefore [Atom.word "TYPE"] '>' := endsBefore_keyword (by decide)
      have hany : EndsBefore ([Atom.word "ANY", .gap] ++ [Atom.word "TYPE"]) '>' :=
        htype.append (by simp)
      exact hany

theorem isTypePhrase_fields : (fields : List Field) → fieldsAreSound fields →
    ∀ spelling ∈ fieldSpellings fields, IsTypePhrase spelling
  | [], _ => by
    intro spelling hmem
    rw [fieldSpellings] at hmem
    cases hmem
  | ⟨none, type⟩ :: fields, h => by
    rw [fieldsAreSound] at h
    intro spelling hmem
    rw [fieldSpellings] at hmem
    rcases List.mem_cons.mp hmem with rfl | hmem
    · exact SqlType.isTypePhrase type h.2.2.1
    · exact isTypePhrase_fields fields h.2.2.2 spelling hmem
  | ⟨some name, type⟩ :: fields, h => by
    rw [fieldsAreSound] at h
    intro spelling hmem
    rw [fieldSpellings] at hmem
    rcases List.mem_cons.mp hmem with rfl | hmem
    · have hname : name.IsSegment := h.1 name rfl
      have htype := SqlType.isTypePhrase type h.2.2.1
      refine ⟨(name.isPhrase hname).gap htype.toIsPhrase, ?_, ?_⟩
      · intro c hc
        rw [first?_append (name.isPhrase hname).ne_nil] at hc
        exact name.first_of_isSegment hname hc
      · rw [← List.singleton_append (l := type.spelling), ← List.append_assoc]
        exact htype.ends.append htype.ne_nil
    · exact isTypePhrase_fields fields h.2.2.2 spelling hmem

end

theorem Declaration.isPhrase {declaration : Declaration} (h : declaration.IsSound) :
    declaration.spelling.IsPhrase :=
  (Identifier.isPhrase h.name.isSegment).gap (SqlType.isTypePhrase _ h.type).toIsPhrase

end Types

end SqlLayout
