import SqlLayout.Proofs.Outline.Label
import SqlLayout.Proofs.Outline.Quoted
import SqlLayout.Proofs.Reading.Type

/-!
# The Words of a Label

Names, constants, types and frames are known from their texts. A name goes on as long as a point comes, so
it is also known where something else comes after it.
-/

namespace SqlLayout

open Token Spelling

section Inline

theorem inline_intercalate {sep : Spelling} (hsep : sep.all Atom.isInline = true)
    {spellings : List Spelling} (h : ∀ spelling ∈ spellings, spelling.all Atom.isInline = true) :
    (List.intercalate sep spellings).all Atom.isInline = true := by
  induction spellings with
  | nil => rfl
  | cons spelling spellings ih =>
    rw [List.forall_mem_cons] at h
    cases spellings with
    | nil => simpa using h.1
    | cons next spellings =>
      rw [List.intercalate_cons_cons, List.all_append, List.all_append, hsep, h.1, ih h.2]
      rfl

theorem inline_commas {spellings : List Spelling}
    (h : ∀ spelling ∈ spellings, spelling.all Atom.isInline = true) :
    (commas spellings).all Atom.isInline = true :=
  inline_intercalate rfl h

theorem inline_angled {spellings : List Spelling}
    (h : ∀ spelling ∈ spellings, spelling.all Atom.isInline = true) :
    (angled spellings).all Atom.isInline = true := by
  unfold angled
  split
  · rfl
  · simp [inline_commas h, Atom.symbol, Atom.isInline]

mutual

theorem SqlType.inline_spelling : (type : SqlType) → type.spelling.all Atom.isInline = true
  | .named name params => by
    have hparams : (commas (params.map Constant.spelling)).all Atom.isInline = true := by
      apply inline_commas
      simp [Constant.spelling, Atom.isInline]
    rw [SqlType.spelling, List.all_append]
    split
    · rfl
    · simp [hparams, Identifier.spelling, Atom.parenOpen, Atom.parenClose, Atom.symbol, Atom.isInline]
  | .array element => by
    rw [SqlType.spelling, List.all_append, List.all_append, SqlType.inline_spelling element]
    rfl
  | .struct fields => by
    rw [SqlType.spelling, List.all_cons, inline_angled (inline_fieldSpellings fields)]
    rfl
  | .any => by
    rw [SqlType.spelling]
    rfl

theorem inline_fieldSpellings : (fields : List Field) →
    ∀ spelling ∈ fieldSpellings fields, spelling.all Atom.isInline = true
  | [] => by simp [fieldSpellings]
  | ⟨none, type⟩ :: fields => by
    rw [fieldSpellings, List.forall_mem_cons]
    exact ⟨SqlType.inline_spelling type, inline_fieldSpellings fields⟩
  | ⟨some name, type⟩ :: fields => by
    rw [fieldSpellings, List.forall_mem_cons, List.all_append, List.all_cons,
      SqlType.inline_spelling type]
    exact ⟨rfl, inline_fieldSpellings fields⟩

end

end Inline

section Names

theorem Identifier.writes {name : Identifier} (h : name.IsSegment) : name.spelling.Writes name.raw where
  phrase := name.isPhrase h
  inline := rfl
  toList_eq := name.toList_raw

theorem QualifiedName.writes {name : QualifiedName} (h : ∀ segment ∈ name.segments, segment.IsSegment) :
    name.spelling.Writes name.dotted where
  phrase := name.isPhrase h
  inline := by
    apply inline_intercalate rfl
    simp [Identifier.spelling, Atom.isInline]
  toList_eq := name.toList_dotted

theorem writes_identifierList {names : List Identifier} (hne : names ≠ [])
    (h : ∀ name ∈ names, name.IsSound) :
    (commas (names.map Identifier.spelling)).Writes (identifierList names) where
  phrase := isPhrase_commas (by simpa using hne) (isPhrase_names h)
  inline := by
    apply inline_commas
    simp [Identifier.spelling, Atom.isInline]
  toList_eq := by
    apply intercalate_commas
    simp [Identifier.toList_raw]

/-- What a name is in a label: its kind and how it is written. -/
def Identifier.piece (name : Identifier) : Kind × String :=
  (name.glyph.kind, name.raw)

theorem Identifier.pieces_spelling (name : Identifier) : name.spelling.pieces = [name.piece] :=
  rfl

theorem Identifier.piece_inj {name other : Identifier} (h : name.piece = other.piece) : name = other := by
  have hraw := congrArg Prod.snd h
  cases name
  cases other
  cases hraw
  rfl

/-- The tokens of the segments after the first. -/
def dottedPieces (segments : List Identifier) : List (Kind × String) :=
  segments.flatMap fun segment => [(.dot, "."), segment.piece]

theorem QualifiedName.pieces_spelling (name : QualifiedName) :
    name.spelling.pieces = name.first.piece :: dottedPieces name.rest := by
  have hsegments (first : Identifier) (rest : List Identifier) :
      pieces (List.intercalate [Atom.dot] ((first :: rest).map Identifier.spelling)) =
        first.piece :: dottedPieces rest := by
    induction rest generalizing first with
    | nil => rfl
    | cons next rest ih =>
      rw [List.map_cons, List.map_cons, List.intercalate_cons_cons, ← List.map_cons, pieces_append,
        pieces_append, ih]
      rfl
  exact hsegments name.first name.rest

/-- Segments are known from where no point comes after them. -/
theorem dottedPieces_inj {segments others : List Identifier} {rest rest' : List (Kind × String)}
    (hrest : ∀ piece ∈ rest.head?, piece.1 ≠ .dot) (hrest' : ∀ piece ∈ rest'.head?, piece.1 ≠ .dot)
    (h : dottedPieces segments ++ rest = dottedPieces others ++ rest') :
    segments = others ∧ rest = rest' := by
  induction segments generalizing others with
  | nil =>
    cases others with
    | nil => exact ⟨rfl, h⟩
    | cons other others =>
      have hdot : rest = (.dot, ".") :: other.piece :: (dottedPieces others ++ rest') := h
      exact absurd rfl (hrest (.dot, ".") (by rw [hdot]; rfl))
  | cons segment segments ih =>
    cases others with
    | nil =>
      have hdot : (.dot, ".") :: segment.piece :: (dottedPieces segments ++ rest) = rest' := h
      exact absurd rfl (hrest' (.dot, ".") (by rw [← hdot]; rfl))
    | cons other others =>
      have hcons : (.dot, ".") :: segment.piece :: (dottedPieces segments ++ rest) =
          (.dot, ".") :: other.piece :: (dottedPieces others ++ rest') := h
      obtain ⟨-, hcons⟩ := List.cons.inj hcons
      obtain ⟨hpiece, hcons⟩ := List.cons.inj hcons
      obtain ⟨rfl, hrests⟩ := ih hcons
      exact ⟨by rw [Identifier.piece_inj hpiece], hrests⟩

theorem QualifiedName.eq_of_pieces {name other : QualifiedName} {rest rest' : List (Kind × String)}
    (hrest : ∀ piece ∈ rest.head?, piece.1 ≠ .dot) (hrest' : ∀ piece ∈ rest'.head?, piece.1 ≠ .dot)
    (h : name.spelling.pieces ++ rest = other.spelling.pieces ++ rest') : name = other ∧ rest = rest' := by
  obtain ⟨first, segments⟩ := name
  obtain ⟨other, others⟩ := other
  rw [QualifiedName.pieces_spelling, QualifiedName.pieces_spelling, List.cons_append, List.cons_append] at h
  obtain ⟨hpiece, hcons⟩ := List.cons.inj h
  obtain ⟨rfl, hrests⟩ := dottedPieces_inj hrest hrest' hcons
  obtain rfl : first = other := Identifier.piece_inj hpiece
  exact ⟨rfl, hrests⟩

theorem QualifiedName.eq_of_dotted {name other : QualifiedName}
    (h : ∀ segment ∈ name.segments, segment.IsSegment)
    (hother : ∀ segment ∈ other.segments, segment.IsSegment) (htext : name.dotted = other.dotted) :
    name = other := by
  have hpieces := (writes h).pieces_eq (htext ▸ writes hother)
  exact (@eq_of_pieces name other [] [] (by simp) (by simp) (by rw [hpieces])).1

theorem filter_pieces_commas (names : List Identifier) :
    ((commas (names.map Identifier.spelling)).pieces.filter fun piece => piece.1 ≠ .comma) =
      names.map Identifier.piece := by
  have hname (name : Identifier) : name.piece.1 ≠ .comma := by
    rw [Identifier.piece, Identifier.glyph]
    split <;> exact Kind.noConfusion
  induction names with
  | nil => rfl
  | cons name names ih =>
    cases names with
    | nil => simp [commas, Identifier.pieces_spelling, hname]
    | cons next names =>
      have hcommas : commas ((name :: next :: names).map Identifier.spelling) =
          name.spelling ++ (Atom.comma :: .gap :: commas ((next :: names).map Identifier.spelling)) := by
        simp [commas]
      have hcomma (spelling : Spelling) : pieces (Atom.comma :: .gap :: spelling) =
          (.comma, ",") :: spelling.pieces := rfl
      rw [hcommas, pieces_append, List.filter_append, hcomma, List.filter_cons_of_neg (by simp), ih]
      simp [Identifier.pieces_spelling, hname]

theorem eq_of_commas {names others : List Identifier}
    (h : (commas (names.map Identifier.spelling)).pieces = (commas (others.map Identifier.spelling)).pieces) :
    names = others := by
  have hpieces := congrArg (List.filter fun piece => piece.1 ≠ .comma) h
  rw [filter_pieces_commas, filter_pieces_commas] at hpieces
  exact List.map_injective_iff.mpr (fun _ _ => Identifier.piece_inj) hpieces

theorem eq_of_identifierList {names others : List Identifier} (h : ∀ name ∈ names, name.IsSound)
    (hother : ∀ name ∈ others, name.IsSound) (htext : identifierList names = identifierList others) :
    names = others := by
  have hempty {names : List Identifier} (hsound : ∀ name ∈ names, name.IsSound)
      (hnone : identifierList names = identifierList []) : names = [] := by
    by_contra hne
    exact (writes_identifierList hne hsound).ne_empty hnone
  by_cases hne : names = []
  · subst hne
    exact (hempty hother htext.symm).symm
  by_cases hneOther : others = []
  · subst hneOther
    exact absurd (hempty h htext) hne
  have hwrites := writes_identifierList hneOther hother
  rw [← htext] at hwrites
  exact eq_of_commas ((writes_identifierList hne h).pieces_eq hwrites)

end Names

section Constants

theorem Constant.writes {constant : Constant} (h : constant.IsSound) :
    constant.spelling.Writes constant.text where
  phrase := constant.isPhrase h
  inline := rfl
  toList_eq := constant.toList_text

/-- What kind of constant a text is shows in the token it makes. -/
theorem Constant.eq_of_text {constant other : Constant} (h : constant.IsSound) (hother : other.IsSound)
    (htext : constant.text = other.text) : constant = other := by
  have hpieces := (writes h).pieces_eq (htext ▸ writes hother)
  obtain ⟨kind, text⟩ := constant
  obtain ⟨kind', text'⟩ := other
  obtain rfl : text = text' := htext
  have hkind : kind.tokenKind = kind'.tokenKind := congrArg Prod.fst (List.singleton_inj.mp hpieces)
  have hliteral {kind : ConstantKind} (hsound : Constant.IsSound ⟨kind, text⟩)
      (hstring : kind.tokenKind = .string) : (⟨kind, text⟩ : Constant) = ofLiteral text := by
    cases kind with
    | string => exact hsound.2
    | bytes => exact hsound.2
    | _ => cases hstring
  have hnull (hsound : Constant.IsSound ⟨.boolean, text⟩) : text ≠ "NULL" := by
    rcases hsound with rfl | rfl <;> decide
  cases kind with
  | string => exact (hliteral h rfl).trans (hliteral hother hkind.symm).symm
  | bytes => exact (hliteral h rfl).trans (hliteral hother hkind.symm).symm
  | number =>
    cases kind' with
    | number => rfl
    | _ => cases hkind
  | boolean =>
    cases kind' with
    | boolean => rfl
    | null => exact absurd hother (hnull h)
    | _ => cases hkind
  | null =>
    cases kind' with
    | boolean => exact absurd h (hnull hother)
    | null => rfl
    | _ => cases hkind

theorem writes_quoted (text : String) : Writes [.glyph { kind := .string, text := Text.quoted text }]
    (Text.quoted text) where
  phrase := .single (Text.isLiteral_quoted text) rfl rfl
  inline := rfl
  toList_eq := by simp

end Constants

section Types

theorem SqlType.writes {type : SqlType} (h : type.IsSound) : type.spelling.Writes type.text where
  phrase := (SqlType.isTypePhrase type h).toIsPhrase
  inline := type.inline_spelling
  toList_eq := type.toList_text

theorem Declaration.writes {declaration : Declaration} (h : declaration.IsSound) :
    declaration.spelling.Writes declaration.text :=
  (Identifier.writes h.name.isSegment).gap (SqlType.writes h.type)

theorem Declaration.eq_of_text {declaration other : Declaration} (h : declaration.IsSound)
    (hother : other.IsSound) (htext : declaration.text = other.text) : declaration = other := by
  have hpieces := (writes h).pieces_eq (htext ▸ writes hother)
  obtain ⟨name, type⟩ := declaration
  obtain ⟨name', type'⟩ := other
  obtain rfl : name = name' := Identifier.piece_inj (List.cons.inj hpieces).1
  have htypes : type.text = type'.text := by simpa [Declaration.text] using htext
  obtain rfl : type = type' := SqlType.eq_of_text h.type hother.type htypes
  rfl

end Types

section Frames

theorem Frame.writes {frame : Frame} (h : frame.IsSound) : frame.spelling.Writes frame.text where
  phrase := frame.isPhrase h
  inline := by
    have hbound (bound : FrameBound) : bound.spelling.all Atom.isInline = true := by cases bound <;> rfl
    obtain ⟨unit, bound | ⟨start, stop⟩⟩ := frame <;>
      simp [Frame.spelling, hbound, Atom.word, Atom.isInline]
  toList_eq := frame.toList_text

/-- The constant of a bound is a number, so it is none of the words that a bound can start with. -/
theorem FrameBound.eq_of_pieces {bound other : FrameBound} (h : bound.IsSound) (hother : other.IsSound)
    {rest rest' : List (Kind × String)}
    (hpieces : bound.spelling.pieces ++ rest = other.spelling.pieces ++ rest') :
    bound = other ∧ rest = rest' := by
  have hnumber {count : Constant} (hcount : count.kind = .number) :
      count.spelling.pieces = [(.number, count.text)] := by
    rw [Constant.spelling, Constant.glyph, hcount]
    rfl
  have hcount {count other : Constant} (hkind : count.kind = .number) (hother : other.kind = .number)
      (htext : count.text = other.text) : count = other := by
    cases count
    cases other
    cases hkind
    cases hother
    cases htext
    rfl
  cases bound with
  | preceding count =>
    cases other with
    | preceding other =>
      simp [spelling, hnumber h.2, hnumber hother.2, Atom.word] at hpieces
      exact ⟨by rw [hcount h.2 hother.2 hpieces.1], hpieces.2⟩
    | following other => simp [spelling, hnumber h.2, hnumber hother.2, Atom.word] at hpieces
    | _ => simp [spelling, hnumber h.2, words, Atom.word] at hpieces
  | following count =>
    cases other with
    | following other =>
      simp [spelling, hnumber h.2, hnumber hother.2, Atom.word] at hpieces
      exact ⟨by rw [hcount h.2 hother.2 hpieces.1], hpieces.2⟩
    | preceding other => simp [spelling, hnumber h.2, hnumber hother.2, Atom.word] at hpieces
    | _ => simp [spelling, hnumber h.2, words, Atom.word] at hpieces
  | _ =>
    cases other with
    | preceding other => simp [spelling, hnumber hother.2, words, Atom.word] at hpieces
    | following other => simp [spelling, hnumber hother.2, words, Atom.word] at hpieces
    | _ => simp_all [spelling, words, Atom.word]

theorem Frame.eq_of_text {frame other : Frame} (h : frame.IsSound) (hother : other.IsSound)
    (htext : frame.text = other.text) : frame = other := by
  have hpieces := (writes h).pieces_eq (htext ▸ writes hother)
  have hunit : ∀ unit other : FrameUnit, unit.text = other.text → unit = other := by
    rintro (_ | _) (_ | _) <;> decide
  -- A bound does not start with the word that two bounds start with.
  have hbetween {bound : FrameBound} (hbound : bound.IsSound) (rest : List (Kind × String)) :
      bound.spelling.pieces ≠ (.word, "BETWEEN") :: rest := by
    cases bound with
    | preceding count => simp [FrameBound.spelling, Constant.spelling, Constant.glyph, hbound.2,
        ConstantKind.tokenKind]
    | following count => simp [FrameBound.spelling, Constant.spelling, Constant.glyph, hbound.2,
        ConstantKind.tokenKind]
    | _ => simp [FrameBound.spelling, words, Atom.word]
  obtain ⟨unit, bound | ⟨start, stop⟩⟩ := frame
  · obtain ⟨unit', bound' | ⟨start', stop'⟩⟩ := other
    · obtain ⟨hunits, hbounds⟩ : unit.text = unit'.text ∧ bound.spelling.pieces = bound'.spelling.pieces := by
        simpa [spelling, Atom.word] using hpieces
      have hbound := @FrameBound.eq_of_pieces bound bound' h hother [] [] (by rw [hbounds])
      rw [hunit unit unit' hunits, hbound.1]
    · have hsecond : bound.spelling.pieces = (.word, "BETWEEN") ::
          (start'.spelling.pieces ++ (.word, "AND") :: stop'.spelling.pieces) := by
        simpa [spelling, Atom.word] using congrArg List.tail hpieces
      exact absurd hsecond (hbetween h _)
  · obtain ⟨unit', bound' | ⟨start', stop'⟩⟩ := other
    · have hsecond : bound'.spelling.pieces = (.word, "BETWEEN") ::
          (start.spelling.pieces ++ (.word, "AND") :: stop.spelling.pieces) := by
        simpa [spelling, Atom.word] using congrArg List.tail hpieces.symm
      exact absurd hsecond (hbetween hother _)
    · obtain ⟨hunits, hbounds⟩ : unit.text = unit'.text ∧
          start.spelling.pieces ++ (.word, "AND") :: stop.spelling.pieces =
            start'.spelling.pieces ++ (.word, "AND") :: stop'.spelling.pieces := by
        simpa [spelling, Atom.word] using hpieces
      obtain ⟨rfl, hstops⟩ := FrameBound.eq_of_pieces h.1 hother.1 hbounds
      have hstop := @FrameBound.eq_of_pieces stop stop' h.2 hother.2 [] []
        (by rw [(List.cons.inj hstops).2])
      rw [hunit unit unit' hunits, hstop.1]

end Frames

end SqlLayout
