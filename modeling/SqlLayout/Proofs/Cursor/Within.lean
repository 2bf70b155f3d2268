import SqlLayout.Proofs.Cursor.Built
import SqlLayout.Proofs.Token.Tiling

/-!
# Looking within a Statement

A cursor that stops within another one has the same tokens left, and after them the other one has a
semicolon or nothing. A question that gets the same answer from both looks at no more than the tokens up to
a semicolon: it tells neither a semicolon from the end of the tokens nor one text after it from another.
-/

namespace SqlLayout

namespace Cursor

/-- What a semicolon looks like. -/
def semicolon : Token.Kind × String :=
  (.semicolon, ";")

/-- The patterns of which it matters what comes after them: `;` ends a statement, and a `/` opens a comment
where a star touches it. -/
def breaks : List String :=
  [";", "/"]

/-- The tokens left are the same but for their offsets, then the other cursor has a semicolon or no more
tokens, and neither keeps anything. -/
structure StopsWithin (cursor other : Cursor) : Prop where
  tokens : ∃ bytes, ∀ ahead < cursor.remaining,
    other.token? ahead = (cursor.token? ahead).map (Token.moved · bytes)
  stop : other.look? cursor.remaining = none ∨ other.look? cursor.remaining = some semicolon
  depth_eq : cursor.depth = other.depth
  plain : cursor.forgetful = cursor
  plain' : other.forgetful = other

/-- A question whose answer does not depend on what comes after a semicolon. -/
def IsWithin {α : Type} (question : Cursor → α) : Prop :=
  ∀ cursor other : Cursor, cursor.StopsWithin other → question cursor = question other

section Tokens

variable {cursor other : Cursor} {ahead count : Nat}

theorem token?_eq_none_iff : cursor.token? ahead = none ↔ cursor.remaining ≤ ahead := by
  rw [token?, Array.getElem?_eq_none_iff, remaining]
  omega

theorem remaining_advance (cursor : Cursor) (count : Nat) :
    (cursor.advance count).remaining = cursor.remaining - count := by
  simp only [remaining, advance]
  omega

theorem token?_advance (cursor : Cursor) (count ahead : Nat) :
    (cursor.advance count).token? ahead = cursor.token? (count + ahead) := by
  simp only [token?, advance, Nat.add_assoc]

theorem look?_advance (cursor : Cursor) (count ahead : Nat) :
    (cursor.advance count).look? ahead = cursor.look? (count + ahead) := by
  rw [look?, token?_advance, look?]

theorem advance_advance (cursor : Cursor) (count further : Nat) :
    (cursor.advance count).advance further = cursor.advance (count + further) := by
  simp only [advance, Nat.add_assoc]

theorem advance_zero (cursor : Cursor) : cursor.advance 0 = cursor :=
  rfl

theorem look?_eq_none_iff : cursor.look? ahead = none ↔ cursor.remaining ≤ ahead := by
  rw [look?, Option.map_eq_none_iff, token?_eq_none_iff]

theorem atEnd_eq_look? (cursor : Cursor) : cursor.atEnd = (cursor.look? 0).isNone := by
  rw [Bool.eq_iff_iff, Option.isNone_iff_eq_none, look?_eq_none_iff, remaining, atEnd, decide_eq_true_eq]
  omega

theorem token?_eq_drop (cursor : Cursor) (ahead : Nat) :
    cursor.token? ahead = (cursor.tokens.toList.drop cursor.pos)[ahead]? := by
  rw [List.getElem?_drop, Array.getElem?_toList, token?]

theorem remaining_eq_length (cursor : Cursor) :
    cursor.remaining = (cursor.tokens.toList.drop cursor.pos).length := by
  rw [List.length_drop, Array.length_toList, remaining]

namespace StopsWithin

/-- The tokens left are the same but for their offsets, and the ones after them start with a semicolon. -/
theorem of_drop {bytes : Nat} {rest : List Token}
    (h : other.tokens.toList.drop other.pos =
      (cursor.tokens.toList.drop cursor.pos).map (Token.moved · bytes) ++ rest)
    (hrest : ∀ token ∈ rest.head?, (token.kind, token.text) = semicolon) (hdepth : cursor.depth = other.depth)
    (hplain : cursor.forgetful = cursor) (hplain' : other.forgetful = other) : cursor.StopsWithin other where
  tokens := by
    refine ⟨bytes, fun ahead hahead => ?_⟩
    rw [remaining_eq_length] at hahead
    rw [token?_eq_drop, h, List.getElem?_append_left (by simpa using hahead), List.getElem?_map,
      token?_eq_drop]
  stop := by
    have hlength := remaining_eq_length cursor
    rw [look?, token?_eq_drop, h, List.getElem?_append_right (by rw [List.length_map, hlength]),
      List.length_map, hlength, Nat.sub_self, ← List.head?_eq_getElem?]
    cases hhead : rest.head? with
    | none => exact .inl rfl
    | some token => exact .inr (congrArg some (hrest token hhead))
  depth_eq := hdepth
  plain := hplain
  plain' := hplain'

theorem refl (h : cursor.forgetful = cursor) : cursor.StopsWithin cursor where
  tokens := ⟨0, fun ahead _ => by cases cursor.token? ahead <;> rfl⟩
  stop := .inl (look?_eq_none_iff.mpr (Nat.le_refl _))
  depth_eq := rfl
  plain := h
  plain' := h

theorem look?_eq (h : cursor.StopsWithin other) (hahead : ahead < cursor.remaining) :
    other.look? ahead = cursor.look? ahead := by
  obtain ⟨bytes, htokens⟩ := h.tokens
  rw [look?, htokens ahead hahead, Option.map_map, look?]
  rfl

/-- Before the end both cursors see the same; at the end the other one may see a semicolon. -/
theorem look?_cases (h : cursor.StopsWithin other) (hahead : ahead ≤ cursor.remaining) :
    (∃ look, cursor.look? ahead = some look ∧ other.look? ahead = some look) ∨
      (cursor.look? ahead = none ∧ (other.look? ahead = none ∨ other.look? ahead = some semicolon)) := by
  rcases Nat.lt_or_eq_of_le hahead with hlt | rfl
  · rw [h.look?_eq hlt]
    cases hlook : cursor.look? ahead with
    | none => exact absurd (look?_eq_none_iff.mp hlook) (by omega)
    | some look => exact .inl ⟨look, rfl, rfl⟩
  · exact .inr ⟨look?_eq_none_iff.mpr (Nat.le_refl _), h.stop⟩

theorem advance (h : cursor.StopsWithin other) (hcount : count ≤ cursor.remaining) :
    (cursor.advance count).StopsWithin (other.advance count) where
  tokens := by
    obtain ⟨bytes, htokens⟩ := h.tokens
    refine ⟨bytes, fun ahead hahead => ?_⟩
    rw [remaining_advance] at hahead
    rw [token?_advance, token?_advance, htokens (count + ahead) (by omega)]
  stop := by
    have hstop := h.stop
    rw [remaining_advance, look?_advance, Nat.add_sub_cancel' hcount]
    exact hstop
  depth_eq := h.depth_eq
  plain := congrArg (Cursor.advance · count) h.plain
  plain' := congrArg (Cursor.advance · count) h.plain'

theorem deeper (h : cursor.StopsWithin other) :
    StopsWithin { cursor with depth := cursor.depth + 1 } { other with depth := other.depth + 1 } where
  tokens := h.tokens
  stop := h.stop
  depth_eq := congrArg (· + 1) h.depth_eq
  plain := congrArg (fun cursor : Cursor => { cursor with depth := cursor.depth + 1 }) h.plain
  plain' := congrArg (fun cursor : Cursor => { cursor with depth := cursor.depth + 1 }) h.plain'

theorem remaining_le (h : cursor.StopsWithin other) : cursor.remaining ≤ other.remaining := by
  by_contra hlt
  have hlook : other.look? other.remaining = cursor.look? other.remaining := h.look?_eq (by omega)
  have hnone := look?_eq_none_iff.mpr (Nat.le_refl other.remaining)
  rw [hnone] at hlook
  have := look?_eq_none_iff.mp hlook.symm
  omega

end StopsWithin

end Tokens

section Questions

variable {cursor other : Cursor} {ahead : Nat} {pattern : String}

theorem ne_of_not_mem_breaks (h : pattern ∉ breaks) : pattern ≠ ";" ∧ pattern ≠ "/" :=
  ⟨fun heq => h (heq ▸ by decide), fun heq => h (heq ▸ by decide)⟩

theorem fits_semicolon (h : pattern ≠ ";") : fits pattern ⟨semicolon.1, semicolon.2, 0⟩ = false := by
  unfold fits semicolon
  split
  · rfl
  · simp [h.symm]

/-- Two looks that are the same, or the end and a semicolon. -/
def SameWithin (look other : Option (Token.Kind × String)) : Prop :=
  other = look ∨ (look = none ∧ other = some semicolon)

theorem StopsWithin.sameWithin (h : cursor.StopsWithin other) (hahead : ahead ≤ cursor.remaining) :
    SameWithin (cursor.look? ahead) (other.look? ahead) := by
  rcases h.look?_cases hahead with ⟨look, hlook, hother⟩ | ⟨hlook, hother | hother⟩
  · exact .inl (hother.trans hlook.symm)
  · exact .inl (hother.trans hlook.symm)
  · exact .inr ⟨hlook, hother⟩

/-- What is asked of the next token and, only if it is there and no semicolon, of the one after it. -/
theorem isWithin_of_looks {α : Type} {question : Cursor → α}
    (answer : Option (Token.Kind × String) → Option (Token.Kind × String) → α)
    (h : ∀ cursor, question cursor = answer (cursor.look? 0) (cursor.look? 1))
    (hstop : ∀ next, answer (some semicolon) next = answer none none)
    (hnext : ∀ look, answer (some look) (some semicolon) = answer (some look) none) : IsWithin question := by
  intro cursor other hstops
  rw [h, h]
  rcases hstops.look?_cases (Nat.zero_le _) with ⟨look, hlook, hother⟩ | ⟨hlook, hother⟩
  · have hremaining : 1 ≤ cursor.remaining := by
      by_contra hle
      exact absurd (look?_eq_none_iff.mpr (by omega : cursor.remaining ≤ 0)) (by simp [hlook])
    rw [hlook, hother]
    rcases hstops.sameWithin hremaining with heq | ⟨hnone, hsemicolon⟩
    · rw [heq]
    · rw [hnone, hsemicolon, hnext]
  · have hend := look?_eq_none_iff.mp hlook
    have hnone := look?_eq_none_iff.mpr (by omega : cursor.remaining ≤ 1)
    rw [hlook, hnone]
    rcases hother with hother | hother
    · have hother' := look?_eq_none_iff.mpr (Nat.le_trans (look?_eq_none_iff.mp hother) (Nat.zero_le 1))
      rw [hother, hother']
    · rw [hother, hstop]

theorem isLook_of_looks {α : Type} {question : Cursor → α}
    (answer : Option (Token.Kind × String) → Option (Token.Kind × String) → α)
    (h : ∀ cursor, question cursor = answer (cursor.look? 0) (cursor.look? 1)) : IsLook question := by
  intro cursor other halike
  rw [h, h, halike.look?_eq, halike.look?_eq]

/-- Whether a token that looks like this matches a pattern. -/
def fitsLook (pattern : String) (look : Option (Token.Kind × String)) : Bool :=
  look.any fun look => fits pattern ⟨look.1, look.2, 0⟩

theorem seesAt_eq_fitsLook (cursor : Cursor) (ahead : Nat) (pattern : String) :
    cursor.seesAt ahead pattern = fitsLook pattern (cursor.look? ahead) :=
  cursor.seesAt_eq_look? ahead pattern

theorem seesAnyAt_eq_fitsLook (cursor : Cursor) (ahead : Nat) (patterns : List String) :
    cursor.seesAnyAt ahead patterns = patterns.any (fitsLook · (cursor.look? ahead)) :=
  congrArg patterns.any (funext fun pattern => cursor.seesAt_eq_fitsLook ahead pattern)

theorem StopsWithin.seesAt_eq (h : cursor.StopsWithin other) (hahead : ahead ≤ cursor.remaining)
    (hpattern : pattern ≠ ";") : other.seesAt ahead pattern = cursor.seesAt ahead pattern := by
  rw [seesAt_eq_fitsLook, seesAt_eq_fitsLook]
  rcases h.sameWithin hahead with heq | ⟨hnone, hsemicolon⟩
  · rw [heq]
  · rw [hnone, hsemicolon]
    exact fits_semicolon hpattern

theorem isWithin_sees (h : pattern ≠ ";") : IsWithin (·.sees pattern) :=
  fun _ _ hstops => (hstops.seesAt_eq (Nat.zero_le _) h).symm

end Questions

end Cursor

end SqlLayout
