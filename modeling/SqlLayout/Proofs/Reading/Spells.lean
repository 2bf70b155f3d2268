import SqlLayout.Proofs.Sound.Statement

/-!
# What Stands ahead of a Cursor

The tokens from one cursor to another spell something when they are its tokens, whatever blanks stand
between them. What a cursor sees of a token is then what can be said of the glyph.
-/

namespace SqlLayout

namespace Cursor

/-- The next token is a glyph. The token after a tied one touches it. -/
def HasNext (cursor : Cursor) (glyph : Glyph) : Prop :=
  ∃ token, cursor.token? 0 = some token ∧ token.kind = glyph.kind ∧ token.text = glyph.text ∧
    (glyph.tied → ∀ next, cursor.token? 1 = some next → token.stop = next.start)

def Spells : Cursor → Spelling → Cursor → Prop
  | cursor, [], after => after = cursor
  | cursor, .glyph glyph :: spelling, after =>
    cursor.HasNext glyph ∧ (cursor.advance 1).Spells spelling after
  | cursor, _ :: spelling, after => cursor.Spells spelling after

variable {cursor after : Cursor} {glyph : Glyph} {spelling other : Spelling}

@[simp]
theorem spells_nil : cursor.Spells [] after ↔ after = cursor :=
  Iff.rfl

@[simp]
theorem spells_glyph :
    cursor.Spells (.glyph glyph :: spelling) after ↔
      cursor.HasNext glyph ∧ (cursor.advance 1).Spells spelling after :=
  Iff.rfl

@[simp]
theorem spells_gap : cursor.Spells (.gap :: spelling) after ↔ cursor.Spells spelling after :=
  Iff.rfl

@[simp]
theorem spells_soft (side : Side) :
    cursor.Spells (.soft side :: spelling) after ↔ cursor.Spells spelling after :=
  Iff.rfl

theorem spells_append :
    cursor.Spells (spelling ++ other) after ↔
      ∃ middle, cursor.Spells spelling middle ∧ middle.Spells other after := by
  induction spelling generalizing cursor with
  | nil => simp
  | cons atom spelling ih =>
    cases atom with
    | glyph glyph =>
      rw [List.cons_append, spells_glyph, ih]
      simp only [spells_glyph, and_assoc, exists_and_left]
    | _ => exact ih

/-- Three spellings with blanks between them. -/
theorem spells_infix {left right : Spelling} :
    cursor.Spells (left ++ .gap :: other ++ .gap :: right) after ↔
      ∃ first second, cursor.Spells left first ∧ first.Spells other second ∧
        second.Spells right after := by
  simp only [spells_append, spells_gap]
  constructor
  · rintro ⟨second, ⟨first, hleft, hother⟩, hright⟩
    exact ⟨first, second, hleft, hother, hright⟩
  · rintro ⟨first, second, hleft, hother, hright⟩
    exact ⟨second, ⟨first, hleft, hother⟩, hright⟩

theorem Spells.exists_advance (h : cursor.Spells spelling after) :
    ∃ count, after = cursor.advance count := by
  induction spelling generalizing cursor with
  | nil => exact ⟨0, h⟩
  | cons atom spelling ih =>
    cases atom with
    | glyph glyph =>
      obtain ⟨count, rfl⟩ := ih h.2
      exact ⟨1 + count, by simp [advance, Nat.add_assoc]⟩
    | _ => exact ih h

theorem Spells.passes (h : cursor.Spells spelling after) : after.Passes cursor := by
  obtain ⟨count, rfl⟩ := h.exists_advance
  exact cursor.passes_advance count

theorem Spells.depth_eq (h : cursor.Spells spelling after) : after.depth = cursor.depth := by
  obtain ⟨count, rfl⟩ := h.exists_advance
  rfl

theorem Spells.remaining_le (h : cursor.Spells spelling after) : after.remaining ≤ cursor.remaining := by
  obtain ⟨count, rfl⟩ := h.exists_advance
  unfold remaining advance
  dsimp only
  omega

/-- How deep a cursor stands plays no part in what is ahead of it. -/
theorem Spells.deeper (h : cursor.Spells spelling after) :
    Spells { cursor with depth := cursor.depth + 1 } spelling
      { after with depth := after.depth + 1 } := by
  induction spelling generalizing cursor with
  | nil =>
    cases h
    rfl
  | cons atom spelling ih =>
    cases atom with
    | glyph glyph => exact ⟨h.1, ih h.2⟩
    | _ => exact ih h

namespace HasNext

theorem token? (h : cursor.HasNext glyph) :
    ∃ token, cursor.token? 0 = some token ∧ token.kind = glyph.kind ∧ token.text = glyph.text := by
  obtain ⟨token, htoken, hkind, htext, -⟩ := h
  exact ⟨token, htoken, hkind, htext⟩

theorem sees (h : cursor.HasNext glyph) (pattern : String) :
    cursor.sees pattern = fits pattern { kind := glyph.kind, text := glyph.text, start := 0 } := by
  obtain ⟨token, htoken, hkind, htext⟩ := h.token?
  simp only [Cursor.sees, seesAt, htoken, fits, hkind, htext]

theorem kind? (h : cursor.HasNext glyph) : cursor.kind? 0 = some glyph.kind := by
  obtain ⟨token, htoken, hkind, -⟩ := h.token?
  rw [Cursor.kind?, htoken, Option.map_some, hkind]

theorem text? (h : cursor.HasNext glyph) : cursor.text? = some glyph.text := by
  obtain ⟨token, htoken, -, htext⟩ := h.token?
  rw [Cursor.text?, htoken, Option.map_some, htext]

theorem remaining_lt (h : cursor.HasNext glyph) : (cursor.advance 1).remaining < cursor.remaining := by
  obtain ⟨token, htoken, -⟩ := h.token?
  obtain ⟨hpos, -⟩ := Array.getElem?_eq_some_iff.mp htoken
  unfold remaining advance
  dsimp only
  omega

end HasNext

/-- What stands ahead starts with a token. -/
theorem Spells.remaining_lt (h : cursor.Spells (.glyph glyph :: spelling) after) :
    after.remaining < cursor.remaining :=
  Nat.lt_of_le_of_lt h.2.remaining_le h.1.remaining_lt

/-- A cursor that keeps nothing and has some levels left. -/
structure IsReady (cursor : Cursor) (levels : Nat) : Prop where
  clean : cursor.IsClean
  depth_le : cursor.depth + levels ≤ maxDepth

namespace IsReady

variable {levels : Nat}

theorem later (h : cursor.IsReady levels) (hspells : cursor.Spells spelling after) :
    after.IsReady levels where
  clean := h.clean.of_passes hspells.passes
  depth_le := by
    rw [hspells.depth_eq]
    exact h.depth_le

theorem advance (h : cursor.IsReady levels) (count : Nat) : (cursor.advance count).IsReady levels where
  clean := h.clean.of_passes (cursor.passes_advance count)
  depth_le := h.depth_le

theorem deeper (h : cursor.IsReady (levels + 1)) :
    IsReady { cursor with depth := cursor.depth + 1 } levels where
  clean := h.clean.descend
  depth_le := by
    have hdepth := h.depth_le
    dsimp only
    omega

end IsReady

end Cursor

section Streams

variable {cursor : Cursor} {tokens : List Token} {spelling : Spelling}

/-- Where the tokens of a spelling without comments are ahead, the spelling is. -/
theorem Cursor.spells_of_shows (hplain : ∀ glyph, .glyph glyph ∈ spelling → glyph.kind.isComment = false)
    (h : Shows tokens spelling.glyphs) (htokens : cursor.tokens.toList.drop cursor.pos = tokens) :
    cursor.Spells spelling (cursor.advance tokens.length) := by
  induction spelling generalizing cursor tokens with
  | nil =>
    cases h
    rfl
  | cons atom spelling ih =>
    have hrest : ∀ glyph, .glyph glyph ∈ spelling → glyph.kind.isComment = false := fun glyph hmem =>
      hplain glyph (List.mem_cons_of_mem atom hmem)
    cases atom with
    | glyph glyph =>
      rw [Spelling.glyphs, if_neg (by simp [hplain glyph List.mem_cons_self])] at h
      cases h with
      | @cons token _ tokens _ hkind htext htied hshows =>
        have hnext : cursor.token? 0 = some token := by
          have hhead := congrArg (fun tokens => tokens[0]?) htokens
          simpa [Cursor.token?] using hhead
        have hdrop : (cursor.advance 1).tokens.toList.drop (cursor.advance 1).pos = tokens := by
          have htail := congrArg List.tail htokens
          simpa [Cursor.advance] using htail
        refine ⟨⟨token, hnext, hkind, htext, ?_⟩, ?_⟩
        · intro htie next hafter
          apply htied htie next
          rw [← hdrop]
          simpa [Cursor.token?, Cursor.advance] using hafter
        · have hspells := ih hrest hshows hdrop
          have hadvance : (cursor.advance 1).advance tokens.length =
              cursor.advance (token :: tokens).length := by
            simp [Cursor.advance, Nat.add_assoc, Nat.add_comm 1]
          rwa [hadvance] at hspells
    | _ => exact ih hrest h htokens

end Streams

end SqlLayout
