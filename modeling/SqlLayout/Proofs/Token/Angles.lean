import SqlLayout.Proofs.Token.Lexing

/-!
# Angle Brackets that Touch

Two closing angle brackets in a row are a shift when they touch, so whether they do is part of what a
text says. A spelling decides it: blanks that may be left out never stand between two of them.
-/

namespace SqlLayout

open Token Token.Scan

/-- For every two closing angle brackets in a row, whether they touch. -/
def anglesTouch : List Token → List Bool
  | first :: next :: tokens =>
    if first.kind = .gt && next.kind = .gt then
      (first.stop == next.start) :: anglesTouch (next :: tokens)
    else anglesTouch (next :: tokens)
  | _ => []

/-- The same for a spelling, given whether the token before it is a closing angle bracket and whether
nothing stands in between. -/
def Spelling.angles (isAngle isNext : Bool) : Spelling → List Bool
  | [] => []
  | .glyph glyph :: spelling =>
    if glyph.kind.isComment then angles isAngle false spelling
    else
      (if isAngle && glyph.kind = .gt then [isNext] else [])
        ++ angles (glyph.kind = .gt) true spelling
  | .soft _ :: spelling => angles isAngle isNext spelling
  | _ :: spelling => angles isAngle false spelling

variable {spelling : Spelling} {tokens : List Token}

theorem angles_of_not (isNext other : Bool) :
    spelling.angles false isNext = spelling.angles false other := by
  induction spelling generalizing isNext other with
  | nil => rfl
  | cons atom spelling ih =>
    cases atom with
    | glyph glyph => simp [Spelling.angles]
    | soft side => exact ih isNext other
    | _ => rfl

/-- The blanks before a closing parenthesis do not matter. -/
theorem angles_of_closing (h : Spelling.IsLegible (.soft .closing :: spelling))
    (isAngle isNext other : Bool) : spelling.angles isAngle isNext = spelling.angles isAngle other := by
  cases spelling with
  | nil => rfl
  | cons atom spelling =>
    have hjoins := (List.isChain_cons_cons.mp h.joins).1
    cases atom with
    | glyph glyph =>
      have hkind : glyph.kind = .parenClose := hjoins
      simp [Spelling.angles, hkind, Kind.isComment]
    | _ => exact absurd hjoins id

theorem utf8ByteSize_pos {text : String} (h : text.toList ≠ []) : 0 < text.utf8ByteSize := by
  rw [Nat.pos_iff_ne_zero, Ne, String.utf8ByteSize_eq_zero_iff]
  rintro rfl
  exact h rfl

theorem anglesTouch_cons {first next : Token} :
    anglesTouch (first :: next :: tokens) =
      (if first.kind = .gt && next.kind = .gt then [first.stop == next.start] else [])
        ++ anglesTouch (next :: tokens) := by
  rw [anglesTouch]
  split <;> rfl

/-- After a token that ends no later than the others begin, whether angle brackets touch is what the
spelling says. -/
theorem anglesTouch_sort {start : Nat} (h : Realizes start spelling tokens)
    (hlegible : spelling.IsLegible) (count : Nat) {first : Token} (hstop : first.stop ≤ start)
    (hopening : spelling.head? = some (.soft .opening) → first.kind ≠ .gt) :
    anglesTouch (first :: (TokenStream.sort count tokens).tokens) =
      spelling.angles (first.kind = .gt) (first.stop == start) := by
  induction h generalizing count first with
  | nil => rfl
  | @glyph start glyph spelling tokens h ih =>
    have hgenuine := hlegible.genuine glyph (by simp)
    have hblank := (Glyph.kind_of_isGenuine hgenuine).2
    have hnext : spelling.head? = some (.soft .opening) → glyph.kind = .parenOpen := by
      intro hhead
      cases spelling with
      | nil => cases hhead
      | cons atom spelling =>
        cases hhead
        exact (List.isChain_cons_cons.mp hlegible.joins).1.2
    cases hcomment : glyph.kind.isComment with
    | true =>
      rw [sort_comment hcomment, Spelling.angles, if_pos hcomment]
      obtain ⟨c, cs, htext, -⟩ := Glyph.exists_cons_of_isGenuine hgenuine
      have hsize : 0 < glyph.text.utf8ByteSize := utf8ByteSize_pos (by simp [htext])
      have hapart : (first.stop == start + glyph.text.utf8ByteSize) = false := by
        rw [beq_eq_false_iff_ne]
        omega
      rw [ih hlegible.tail count (by omega) ?_, hapart]
      intro hhead
      rw [hnext hhead] at hcomment
      cases hcomment
    | false =>
      rw [sort_glyph hcomment hblank, Spelling.angles, if_neg (by simp [hcomment]), anglesTouch_cons]
      rw [@ih hlegible.tail (count + 1) ⟨glyph.kind, glyph.text, start⟩ (Nat.le_refl _)
        fun hhead => by simp [hnext hhead]]
      simp [Token.stop]
  | @blank start atom hatom text htext htidy spelling tokens h ih =>
    have hsize := utf8ByteSize_pos htext
    have hapart : (first.stop == start + text.utf8ByteSize) = false := by
      rw [beq_eq_false_iff_ne]
      omega
    have hnext : spelling.head? ≠ some (.soft .opening) := by
      intro hhead
      cases spelling with
      | nil => cases hhead
      | cons next spelling =>
        cases hhead
        have hjoins := (List.isChain_cons_cons.mp hlegible.joins).1
        cases atom with
        | glyph glyph => exact hatom glyph rfl
        | soft side => cases side <;> exact hjoins
        | _ => exact hjoins
    rw [sort_blank, ih hlegible.tail count (by omega) fun hhead => absurd hhead hnext, hapart]
    cases atom with
    | glyph glyph => exact absurd rfl (hatom glyph)
    | soft side =>
      cases side with
      | opening =>
        have hkind := hopening rfl
        simp only [Spelling.angles, hkind, decide_false]
        exact angles_of_not _ _
      | closing => exact angles_of_closing hlegible _ _ _
    | _ => rfl
  | @soft start side spelling tokens h ih =>
    have hnext : spelling.head? ≠ some (.soft .opening) := by
      intro hhead
      cases spelling with
      | nil => cases hhead
      | cons next spelling =>
        cases hhead
        have hjoins := (List.isChain_cons_cons.mp hlegible.joins).1
        cases side <;> exact hjoins
    rw [ih hlegible.tail count hstop fun hhead => absurd hhead hnext]
    rfl

/-- Whether angle brackets touch does not depend on the blanks that were chosen. -/
theorem anglesTouch_eq (h : Realizes 0 spelling tokens) (hlegible : spelling.IsLegible) :
    anglesTouch (TokenStream.sort 0 tokens).tokens = spelling.angles false true := by
  have hfirst : anglesTouch (⟨.word, "", 0⟩ :: (TokenStream.sort 0 tokens).tokens) =
      spelling.angles false true := anglesTouch_sort h hlegible 0 (Nat.le_refl _) (by simp)
  rw [← hfirst]
  cases (TokenStream.sort 0 tokens).tokens with
  | nil => rfl
  | cons next rest => rfl

end SqlLayout
