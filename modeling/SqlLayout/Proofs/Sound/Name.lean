import SqlLayout.Grammar.Type
import SqlLayout.Proofs.Cursor.Ensures
import SqlLayout.Proofs.Grammar.Agreement
import SqlLayout.Proofs.Syntax.Sound

/-!
# Names, Constants and Types Are Sound

What the rules for names, constants and types give is made of genuine tokens. A name also takes every
segment that could belong to it, and a field without a name is not of a type that reads as one.
-/

namespace SqlLayout

open Rule Token Token.Scan

section Tokens

theorem Identifier.isQuotedToken_of_isQuotedName {name : Identifier}
    (h : IsQuotedName name.raw.toList) : name.isQuotedToken = true := by
  obtain ⟨body, htext, -⟩ := h
  simp [isQuotedToken, htext]

variable {cursor : Cursor} {token : Token}

theorem Cursor.kind?_of_token? {ahead : Nat} (h : cursor.token? ahead = some token) :
    cursor.kind? ahead = some token.kind := by
  rw [kind?, h]
  rfl

theorem Cursor.remaining_advance_lt {pattern : String} (h : cursor.sees pattern = true) {count : Nat}
    (hcount : 0 < count) : (cursor.advance count).remaining < cursor.remaining := by
  obtain ⟨token, htoken, -⟩ := Cursor.token_of_seesAt h
  obtain ⟨hpos, -⟩ := Array.getElem?_eq_some_iff.mp htoken
  unfold remaining advance
  dsimp only
  omega

theorem Token.isWord_of_isGenuine (h : token.glyph.IsGenuine) (hkind : token.kind = .word) :
    IsWord token.text.toList := by
  unfold Glyph.IsGenuine at h
  simp only [glyph, hkind] at h
  exact h

theorem Token.isQuotedName_of_isGenuine (h : token.glyph.IsGenuine)
    (hkind : token.kind = .quotedIdent) : IsQuotedName token.text.toList := by
  unfold Glyph.IsGenuine at h
  simp only [glyph, hkind] at h
  exact h

theorem Token.isLiteral_of_isGenuine (h : token.glyph.IsGenuine) (hkind : token.kind = .string) :
    IsLiteral token.text.toList := by
  unfold Glyph.IsGenuine at h
  simp only [glyph, hkind] at h
  exact h

theorem Token.isNumber_of_isGenuine (h : token.glyph.IsGenuine) (hkind : token.kind = .number) :
    IsNumber token.text.toList := by
  unfold Glyph.IsGenuine at h
  simp only [glyph, hkind] at h
  exact h

theorem Constant.isSound_ofLiteral {text : String} (h : IsLiteral text.toList) :
    (Constant.ofLiteral text).IsSound := by
  unfold Constant.ofLiteral
  split
  · rename_i hbytes
    exact ⟨h, by simp [Constant.ofLiteral, hbytes]⟩
  · rename_i hbytes
    exact ⟨h, by simp [Constant.ofLiteral, hbytes]⟩

theorem Constant.tokenKind_ofLiteral (text : String) :
    (Constant.ofLiteral text).kind.tokenKind = .string := by
  unfold Constant.ofLiteral
  split <;> rfl

/-- The next token is a word, perhaps with a parenthesis right after it. -/
def Cursor.StartsWith (cursor : Cursor) (word : String) (isCall : Bool) : Prop :=
  ∃ token, cursor.token? 0 = some token ∧ token.kind = .word ∧ token.text = word ∧
    (isCall → cursor.seesAt 1 "(" = true)

end Tokens

namespace Grammar

section Names

variable {cursor : Cursor}

theorem ensures_identifier? :
    identifier?.Ensures cursor fun value after =>
      ∀ name ∈ value, name.IsSound ∧ after = cursor.advance 1 ∧
        (name.isQuotedToken = false → cursor.StartsWith name.raw false) := by
  intro hclean value after hrun
  unfold identifier? at hrun
  cases htoken : cursor.token? 0 with
  | none =>
    simp only [htoken] at hrun
    cases hrun
    exact ⟨.refl cursor, by simp⟩
  | some token =>
    simp only [htoken] at hrun
    have hgenuine := hclean.isGenuine htoken
    split at hrun
    · rename_i hkind
      cases hrun
      refine ⟨cursor.passes_advance 1, ?_⟩
      rintro name ⟨⟩
      simp only [Bool.or_eq_true, decide_eq_true_eq, Bool.and_eq_true, Bool.not_eq_true'] at hkind
      rcases hkind with hquoted | ⟨hword, hfree⟩
      · have hname := Token.isQuotedName_of_isGenuine hgenuine hquoted
        refine ⟨.inr hname, rfl, fun hplain => ?_⟩
        rw [Identifier.isQuotedToken_of_isQuotedName hname] at hplain
        cases hplain
      · have hname := Token.isWord_of_isGenuine hgenuine hword
        exact ⟨.inl ⟨hname, hfree⟩, rfl, fun _ => ⟨token, htoken, hword, rfl, by simp⟩⟩
    · cases hrun
      exact ⟨.refl cursor, by simp⟩

theorem gives_identifier? : identifier?.Gives fun value => ∀ name ∈ value, name.IsSound :=
  fun _ => (ensures_identifier?).mono fun _ _ hvalue name hname => (hvalue name hname).1

theorem gives_identifier : identifier.Gives Identifier.IsSound :=
  (gives_identifier?).require _

/-- Whatever is next, a segment is only missing where no name is. -/
theorem ensures_segment? :
    segment?.Ensures cursor fun value after =>
      (∀ name ∈ value, name.IsSegment ∧ after = cursor.advance 1) ∧
        (value = none → after = cursor ∧ cursor.kind? 0 ≠ some .word ∧
          cursor.kind? 0 ≠ some .quotedIdent) := by
  intro hclean value after hrun
  unfold segment? at hrun
  cases htoken : cursor.token? 0 with
  | none =>
    simp only [htoken] at hrun
    cases hrun
    exact ⟨.refl cursor, by simp, fun _ => ⟨rfl, by simp [Cursor.kind?, htoken]⟩⟩
  | some token =>
    simp only [htoken] at hrun
    have hgenuine := hclean.isGenuine htoken
    rw [Cursor.kind?_of_token? htoken]
    split at hrun
    · rename_i hkind
      cases hrun
      refine ⟨cursor.passes_advance 1, ?_, by simp⟩
      rintro name ⟨⟩
      simp only [Bool.or_eq_true, decide_eq_true_eq] at hkind
      rcases hkind with hquoted | hword
      · exact ⟨.inr (Token.isQuotedName_of_isGenuine hgenuine hquoted), rfl⟩
      · exact ⟨.inl (Token.isWord_of_isGenuine hgenuine hword), rfl⟩
    · rename_i hkind
      cases hrun
      refine ⟨.refl cursor, by simp, fun _ => ⟨rfl, ?_⟩⟩
      simpa [and_comm] using hkind

theorem gives_segment? : segment?.Gives fun value => ∀ name ∈ value, name.IsSegment :=
  fun _ => (ensures_segment?).mono fun _ _ hvalue name hname => (hvalue.1 name hname).1

/-- A dot and a segment are taken together; where they are not next, nothing is taken. -/
theorem ensures_dotSegment? :
    dotSegment?.Ensures cursor fun value after =>
      (∀ name ∈ value, name.IsSegment ∧ after.remaining < cursor.remaining) ∧
        (value = none → after = cursor) := by
  have hsegment : (do if ← skip "." then segment? else return none).Ensures cursor
      fun value after => ∀ name ∈ value, name.IsSegment ∧ after.remaining < cursor.remaining := by
    apply Ensures.skip
    · intro hsees
      apply (ensures_segment?).mono
      intro value after hvalue name hname
      obtain ⟨hsegment, rfl⟩ := hvalue.1 name hname
      have hless : (cursor.advance 2).remaining < cursor.remaining :=
        Cursor.remaining_advance_lt hsees (by decide)
      exact ⟨hsegment, hless⟩
    · intro _
      exact .pure (by simp)
  apply hsegment.attempt
  · intro name after hname
    exact ⟨hname, by simp⟩
  · intro _ _
    simp

/-- A name takes every segment there is. -/
theorem ensures_segments :
    (many dotSegment?).Ensures cursor fun rest after =>
      (∀ segment ∈ rest, segment.IsSegment) ∧ dotSegment? after = .ok none after ∧
        (rest = [] → after = cursor) := by
  have hsegments : (many dotSegment?).Gives fun rest => ∀ segment ∈ rest, segment.IsSegment :=
    Gives.many fun _ => (ensures_dotSegment?).mono fun _ _ hvalue name hname => (hvalue.1 name hname).1
  have hstops : (many dotSegment?).Ensures cursor fun _ after => dotSegment? after = .ok none after := by
    apply Ensures.many_stops
    intro cursor
    apply (ensures_dotSegment?).mono
    intro value after hvalue
    refine ⟨fun hsome => ?_, hvalue.2⟩
    obtain ⟨name, hname⟩ := Option.isSome_iff_exists.mp hsome
    exact (hvalue.1 name hname).2
  have hempty : (many dotSegment?).Ensures cursor fun rest after =>
      rest.foldl (fun _ _ => false) true = true → after = cursor := by
    apply Ensures.many (fun isEmpty after => isEmpty = true → after = cursor) _ fun _ => rfl
    intro isEmpty after hafter
    apply (ensures_dotSegment?).mono
    intro value final hvalue
    cases value with
    | none =>
      intro hisEmpty
      rw [hvalue.2 rfl]
      exact hafter hisEmpty
    | some value => simp [Attached]
  apply ((hsegments cursor).and (hstops.and hempty)).mono
  intro rest after hrest
  refine ⟨hrest.1, hrest.2.1, ?_⟩
  rintro rfl
  exact hrest.2.2 rfl

theorem ensures_qualifiedName? :
    qualifiedName?.Ensures cursor fun value after =>
      ∀ name ∈ value, name.IsSound ∧ dotSegment? after = .ok none after ∧
        (name.rest = [] → after = cursor.advance 1) ∧
        (name.first.isQuotedToken = false → cursor.StartsWith name.first.raw false) := by
  apply (ensures_identifier?).bind
  intro first after hfirst
  cases first with
  | none => exact .pure (by simp)
  | some first =>
    obtain ⟨hsound, rfl, hstart⟩ := hfirst first rfl
    apply (ensures_segments).bind
    intro rest final hrest
    apply Ensures.pure
    rintro name ⟨⟩
    exact ⟨⟨hsound, hrest.1⟩, hrest.2.1, hrest.2.2, hstart⟩

theorem gives_qualifiedName? : qualifiedName?.Gives fun value => ∀ name ∈ value, name.IsSound :=
  fun _ => (ensures_qualifiedName?).mono fun _ _ hvalue name hname => (hvalue name hname).1

theorem gives_qualifiedName : qualifiedName.Gives QualifiedName.IsSound :=
  (gives_qualifiedName?).require _

theorem gives_aliasName? : aliasName?.Gives fun value => ∀ name ∈ value, name.IsSound := by
  apply (isQuiet_skip "AS").gives_bind
  intro _
  apply Gives.ite
  · intro _
    apply (gives_identifier).bind
    intro name hname
    exact .pure (by simpa using hname)
  · intro _
    exact gives_identifier?

theorem ensures_takeAny? (patterns : List String) :
    (takeAny? patterns).Ensures cursor fun value after =>
      (∀ text ∈ value, ∃ token, ∃ pattern ∈ patterns, Cursor.fits pattern token ∧ token.text = text) ∧
        (value = none → after = cursor) := by
  induction patterns with
  | nil => exact .pure (by simp)
  | cons pattern patterns ih =>
    have htake : (take? pattern).Ensures cursor fun value after =>
        (∀ text ∈ value, ∃ token, Cursor.fits pattern token ∧ token.text = text) ∧
          (value = none → after = cursor) := by
      intro _ value after hrun
      cases hsees : cursor.sees pattern with
      | false =>
        rw [take?_of_not hsees] at hrun
        cases hrun
        exact ⟨.refl cursor, by simp, fun _ => rfl⟩
      | true =>
        rw [take?_of_sees hsees] at hrun
        cases hrun
        obtain ⟨token, htoken, hfits⟩ := Cursor.token_of_seesAt hsees
        have htext : cursor.text? = some token.text := by rw [Cursor.text?, htoken]; rfl
        rw [htext]
        refine ⟨cursor.passes_advance 1, ?_, by simp⟩
        rintro text ⟨⟩
        exact ⟨token, hfits, rfl⟩
    apply htake.bind
    intro value after hvalue
    cases value with
    | some text =>
      refine .pure ⟨?_, by simp⟩
      rintro text ⟨⟩
      obtain ⟨token, hfits, htext⟩ := hvalue.1 _ rfl
      exact ⟨token, pattern, List.mem_cons_self, hfits, htext⟩
    | none =>
      obtain rfl := hvalue.2 rfl
      apply ih.mono
      intro value after hafter
      refine ⟨?_, hafter.2⟩
      intro text htext
      obtain ⟨token, pattern, hmem, hfits⟩ := hafter.1 text htext
      exact ⟨token, pattern, List.mem_cons_of_mem _ hmem, hfits⟩

theorem ensures_bump :
    bump.Ensures cursor fun value _ =>
      ∀ text ∈ value, ∃ token, cursor.token? 0 = some token ∧ token.glyph.IsGenuine ∧
        token.text = text := by
  intro hclean value after hrun
  unfold bump at hrun
  cases htoken : cursor.token? 0 with
  | none =>
    have htext : cursor.text? = none := by rw [Cursor.text?, htoken]; rfl
    rw [htext] at hrun
    cases hrun
    exact ⟨.refl cursor, by simp⟩
  | some token =>
    have htext : cursor.text? = some token.text := by rw [Cursor.text?, htoken]; rfl
    rw [htext] at hrun
    cases hrun
    refine ⟨cursor.passes_advance 1, ?_⟩
    rintro text ⟨⟩
    exact ⟨token, rfl, hclean.isGenuine htoken, rfl⟩

theorem ensures_takeWord? :
    (takeKind? .word).Ensures cursor fun value _ => ∀ text ∈ value, IsWord text.toList := by
  have hkind : kind?.Ensures cursor fun kind after => kind = cursor.kind? 0 ∧ after = cursor :=
    .ask ⟨rfl, rfl⟩
  apply hkind.bind
  rintro kind _ ⟨hkind, rfl⟩
  apply Ensures.ite
  · intro hword
    apply (ensures_bump).mono
    intro value _ hvalue text htext
    obtain ⟨token, htoken, hgenuine, rfl⟩ := hvalue text htext
    rw [hkind, Cursor.kind?_of_token? htoken, Option.some.injEq] at hword
    exact Token.isWord_of_isGenuine hgenuine hword
  · intro _
    exact .pure (by simp)

/-- A constant is a token of its kind. -/
theorem ensures_constant? :
    constant?.Ensures cursor fun value _ =>
      ∀ constant ∈ value, constant.IsSound ∧ cursor.kind? 0 = some constant.kind.tokenKind := by
  unfold constant?
  have hkind : kind?.Ensures cursor fun kind after => kind = cursor.kind? 0 ∧ after = cursor :=
    .ask ⟨rfl, rfl⟩
  apply hkind.bind
  rintro kind _ ⟨hkind, rfl⟩
  split
  · apply (ensures_bump).map
    intro text _ htext constant hconstant
    obtain ⟨text, rfl, rfl⟩ := Option.map_eq_some_iff.mp hconstant
    obtain ⟨token, htoken, hgenuine, rfl⟩ := htext text rfl
    rw [Cursor.kind?_of_token? htoken, Option.some.injEq] at hkind
    have hliteral := Token.isLiteral_of_isGenuine hgenuine hkind.symm
    refine ⟨Constant.isSound_ofLiteral hliteral, ?_⟩
    rw [Cursor.kind?_of_token? htoken, ← hkind, Constant.tokenKind_ofLiteral]
  · apply (ensures_bump).map
    intro text _ htext constant hconstant
    obtain ⟨text, rfl, rfl⟩ := Option.map_eq_some_iff.mp hconstant
    obtain ⟨token, htoken, hgenuine, rfl⟩ := htext text rfl
    rw [Cursor.kind?_of_token? htoken, Option.some.injEq] at hkind
    refine ⟨Token.isNumber_of_isGenuine hgenuine hkind.symm, ?_⟩
    rw [Cursor.kind?_of_token? htoken, ← hkind]
    rfl
  · apply (ensures_takeAny? _).bind
    intro text after htext
    cases text with
    | some text =>
      apply Ensures.pure
      rintro constant ⟨⟩
      obtain ⟨token, pattern, hmem, hfits, rfl⟩ := htext.1 text rfl
      have hpatterns : ∀ pattern ∈ ["TRUE", "FALSE"], Cursor.isWordPattern pattern ∧
          (Text.upper pattern = "TRUE" ∨ Text.upper pattern = "FALSE") := by
        decide
      obtain ⟨hword, hupper⟩ := hpatterns pattern hmem
      have hsame : Text.upper token.text = Text.upper pattern := by
        unfold Cursor.fits at hfits
        rw [if_pos hword, Bool.and_eq_true] at hfits
        exact (Text.sameWord_iff _ _).mp hfits.2
      refine ⟨?_, hkind.symm⟩
      rw [← hsame] at hupper
      exact hupper
    | none =>
      obtain rfl := htext.2 rfl
      apply Ensures.skip
      · intro _
        apply Ensures.pure
        rintro constant ⟨⟩
        exact ⟨rfl, hkind.symm⟩
      · intro _
        exact .pure (by simp)
  · exact .pure (by simp)

theorem gives_constant? : constant?.Gives fun value => ∀ constant ∈ value, constant.IsSound :=
  fun _ => (ensures_constant?).mono fun _ _ hvalue constant hconstant => (hvalue constant hconstant).1

theorem gives_constant : constant.Gives Constant.IsSound :=
  (gives_constant?).require _

theorem ensures_constant {kind : Token.Kind} (hkind : cursor.kind? 0 = some kind) :
    constant.Ensures cursor fun value _ => value.IsSound ∧ value.kind.tokenKind = kind := by
  apply (ensures_constant?).require
  intro value _ hvalue
  obtain ⟨hsound, hsame⟩ := hvalue value rfl
  rw [hkind] at hsame
  exact ⟨hsound, (Option.some.inj hsame).symm⟩

end Names

end Grammar

end SqlLayout
