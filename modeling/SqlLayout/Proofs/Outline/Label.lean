import SqlLayout.Outline.Query
import SqlLayout.Proofs.Layout.Words

/-!
# Labels

A label is spelled on one line, with tokens and single blanks. It may hold a token with newlines in it, so
it does not end at the first newline; but it does where a newline follows its last token, and there are no
two labels that could end differently in one text.
-/

namespace SqlLayout

open Token Token.Scan

section Flags

variable {label text : String} {flags : List (Option String)}

@[simp]
theorem flagged_nil : flagged label [] = label := by
  simp [flagged]

@[simp]
theorem flagged_none : flagged label (none :: flags) = flagged label flags := by
  simp [flagged]

/-- A flag that is set is a part of the label that the next flags are added to. -/
@[simp]
theorem flagged_some : flagged label (some text :: flags) = flagged (label ++ " " ++ text) flags := by
  apply String.toList_injective
  have hflags : (some text :: flags).filterMap id = text :: flags.filterMap id := rfl
  rw [flagged, flagged, hflags]
  cases flags.filterMap id with
  | nil => simp
  | cons next rest => simp [String.toList_intercalate]

end Flags

/-- What stands within a line: tokens and blanks that have to be there. -/
def Atom.isInline : Atom → Bool
  | .glyph _ | .gap => true
  | .soft _ | .line => false

namespace Spelling

/-- The tokens of a spelling, without the blanks. -/
def pieces : Spelling → List (Kind × String)
  | [] => []
  | .glyph glyph :: spelling => (glyph.kind, glyph.text) :: pieces spelling
  | _ :: spelling => pieces spelling

structure IsLabel (spelling : Spelling) : Prop where
  legible : spelling.IsLegible
  head : ∃ glyph, spelling.head? = some (.glyph glyph)
  inline : spelling.all Atom.isInline = true

variable {spelling other : Spelling} {glyph : Glyph} {rest rest' : List Char}

@[simp]
theorem pieces_nil : pieces [] = [] :=
  rfl

@[simp]
theorem pieces_glyph : pieces (.glyph glyph :: spelling) = (glyph.kind, glyph.text) :: pieces spelling :=
  rfl

@[simp]
theorem pieces_gap : pieces (.gap :: spelling) = pieces spelling :=
  rfl

@[simp]
theorem pieces_append : pieces (spelling ++ other) = pieces spelling ++ pieces other := by
  induction spelling with
  | nil => rfl
  | cons atom spelling ih => cases atom <;> simp [pieces, ih]

/-- No token starts with a blank. -/
theorem plain_glyph_ne (h : IsLegible (.glyph glyph :: spelling)) {c : Char} (hc : isGap c = true)
    {cs : List Char} : plain (.glyph glyph :: spelling) ++ rest ≠ c :: cs := by
  obtain ⟨first, tail, htext, hfirst⟩ := Glyph.exists_cons_of_isGenuine (h.genuine glyph List.mem_cons_self)
  intro heq
  rw [plain, htext, List.cons_append, List.cons_append, List.cons.injEq] at heq
  rw [heq.1, hc] at hfirst
  cases hfirst

theorem next_of_isLegible (h : IsLegible (.glyph glyph :: spelling)) (rest : List Char) :
    Scan.next (glyph.text.toList ++ (spelling.plain ++ '\n' :: rest)) =
      ⟨glyph.kind, glyph.text.toList.length⟩ := by
  apply next_append h spelling.expands_plain
  intro c hc last hgenuine
  cases hc
  exact Glyph.endsBefore_newline hgenuine

/-- Where two tokens start the same text, they are the same token. -/
theorem glyph_eq (h : IsLegible (.glyph glyph :: spelling)) {next : Glyph}
    (hother : IsLegible (.glyph next :: other))
    (htext : plain (.glyph glyph :: spelling) ++ '\n' :: rest =
      plain (.glyph next :: other) ++ '\n' :: rest') :
    glyph.kind = next.kind ∧ glyph.text = next.text ∧
      spelling.plain ++ '\n' :: rest = other.plain ++ '\n' :: rest' := by
  rw [plain, plain, List.append_assoc, List.append_assoc] at htext
  have hfirst := next_of_isLegible h rest
  rw [htext, next_of_isLegible hother rest'] at hfirst
  obtain ⟨hkind, hlength⟩ := Lexeme.mk.inj hfirst
  obtain ⟨hglyph, htail⟩ := List.append_inj htext hlength.symm
  exact ⟨hkind.symm, String.toList_injective hglyph, htail⟩

/-- A text is spelled in at most one way up to a newline. -/
theorem pieces_of_plain (h : spelling.IsLegible) (hinline : spelling.all Atom.isInline = true)
    (hother : other.IsLegible) (hotherInline : other.all Atom.isInline = true)
    (htext : spelling.plain ++ '\n' :: rest = other.plain ++ '\n' :: rest') :
    spelling.pieces = other.pieces ∧ rest = rest' := by
  induction spelling generalizing other with
  | nil =>
    cases other with
    | nil => exact ⟨rfl, (List.cons.inj htext).2⟩
    | cons next other =>
      cases next with
      | glyph next => exact absurd htext.symm (plain_glyph_ne hother (by decide))
      | gap => simp [plain] at htext
      | soft => cases hotherInline
      | line => cases hotherInline
  | cons atom spelling ih =>
    cases atom with
    | glyph glyph =>
      cases other with
      | nil => exact absurd htext (plain_glyph_ne h (by decide))
      | cons next other =>
        cases next with
        | glyph next =>
          obtain ⟨hkind, hglyph, htail⟩ := glyph_eq h hother htext
          obtain ⟨hpieces, hrest⟩ := ih h.tail hinline hother.tail hotherInline htail
          exact ⟨by rw [pieces_glyph, pieces_glyph, hkind, hglyph, hpieces], hrest⟩
        | gap => exact absurd htext (plain_glyph_ne h (by decide))
        | soft => cases hotherInline
        | line => cases hotherInline
    | gap =>
      cases other with
      | nil => simp [plain] at htext
      | cons next other =>
        cases next with
        | glyph next => exact absurd htext.symm (plain_glyph_ne hother (by decide))
        | gap =>
          rw [pieces_gap, pieces_gap]
          exact ih h.tail hinline hother.tail hotherInline (List.cons.inj htext).2
        | soft => cases hotherInline
        | line => cases hotherInline
    | soft => cases hinline
    | line => cases hinline

/-- A text is spelled as a phrase within a line. -/
structure Writes (spelling : Spelling) (text : String) : Prop where
  phrase : spelling.IsPhrase
  inline : spelling.all Atom.isInline = true
  toList_eq : text.toList = spelling.plain

namespace Writes

variable {text tail label : String}

theorem isLabel (h : spelling.Writes text) : spelling.IsLabel :=
  ⟨h.phrase.legible, h.phrase.head, h.inline⟩

/-- A text tells its tokens. -/
theorem pieces_eq (h : spelling.Writes text) (h' : other.Writes text) : spelling.pieces = other.pieces := by
  have htext : spelling.plain ++ '\n' :: [] = other.plain ++ '\n' :: [] := by
    rw [← h.toList_eq, ← h'.toList_eq]
  exact (pieces_of_plain h.phrase.legible h.inline h'.phrase.legible h'.inline htext).1

theorem ne_empty (h : spelling.Writes text) : text ≠ "" := by
  rintro rfl
  obtain ⟨glyph, hhead⟩ := h.phrase.head
  obtain ⟨tail, rfl⟩ : ∃ tail, spelling = .glyph glyph :: tail := List.head?_eq_some_iff.mp hhead
  obtain ⟨c, cs, hglyph, -⟩ :=
    Glyph.exists_cons_of_isGenuine (h.phrase.legible.genuine glyph List.mem_cons_self)
  have htext := h.toList_eq
  rw [plain, hglyph] at htext
  cases htext

theorem gap (h : spelling.Writes text) (h' : other.Writes tail) :
    (spelling ++ .gap :: other).Writes (text ++ " " ++ tail) where
  phrase := h.phrase.gap h'.phrase
  inline := by simp [h.inline, h'.inline, Atom.isInline]
  toList_eq := by simp [h.toList_eq, h'.toList_eq]

theorem keyword (h : isKeyword text = true) : Writes [Atom.word text] text where
  phrase := isPhrase_keyword h
  inline := rfl
  toList_eq := by simp

/-- A text after a word and a blank. -/
theorem after (word : String) {head : String} (hhead : head = word ++ " ") (hword : isKeyword word = true)
    (h : spelling.Writes text) : Writes (Atom.word word :: .gap :: spelling) (head ++ text) := by
  rw [hhead]
  exact (keyword hword).gap h

theorem flagged {flags : List (Option String)} {spellings : List (Option Spelling)}
    (h : spelling.Writes label) (hflags : List.Forall₂ (Option.Rel Writes) spellings flags) :
    (spelling ++ spellings.flatMap modifier).Writes (flagged label flags) := by
  induction hflags generalizing spelling label with
  | nil => simpa using h
  | cons hflag hflags ih =>
    cases hflag with
    | none => simpa [modifier] using ih h
    | some hflag => simpa [modifier] using ih (h.gap hflag)

end Writes

end Spelling

/-- Some phrase spells a label, perhaps with a blank after it. -/
def IsLabelText (label : String) : Prop :=
  ∃ spelling : Spelling, spelling.IsLabel ∧ label.toList = spelling.plain

theorem Spelling.Writes.isLabelText {spelling : Spelling} {text : String}
    (h : spelling.Writes text) : IsLabelText text :=
  ⟨spelling, h.isLabel, h.toList_eq⟩

end SqlLayout
