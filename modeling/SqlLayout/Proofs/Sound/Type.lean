import SqlLayout.Grammar.Window
import SqlLayout.Proofs.Sound.Name

/-!
# Types and Frames Are Sound

A field without a name is not of a type that reads as a name and a type, because then it would have been
read as one. Modifiers that are missing leave the cursor where it was.
-/

namespace SqlLayout.Grammar

open Rule

section Types

variable {cursor : Cursor} {element : Rule SqlType} {fields : Rule (List Field)}
  {type? : Rule (Option SqlType)}

theorem ensures_number (h : cursor.kind? 0 = some .number) :
    constant.Ensures cursor fun value _ => value.IsSound ∧ value.kind = .number := by
  apply (ensures_constant h).mono
  rintro ⟨kind, text⟩ _ ⟨hsound, htoken⟩
  cases kind <;> first | exact ⟨hsound, rfl⟩ | cases htoken

theorem gives_typeParams :
    typeParams.Gives fun params =>
      (∀ param ∈ params, param.IsSound) ∧ ∀ param ∈ params.head?, param.kind = .number := by
  intro cursor
  apply (ensures_ask (·.sees "(")).bind
  rintro _ _ ⟨rfl, rfl⟩
  apply (ensures_ask (·.kind? 1)).bind
  rintro _ _ ⟨rfl, rfl⟩
  apply Ensures.ite
  · intro hnumber
    simp only [Bool.and_eq_true, decide_eq_true_eq] at hnumber
    apply Ensures.expect
    intro _
    have hfirst : (cursor.advance 1).kind? 0 = some .number := hnumber.2
    have hnumber := (ensures_number hfirst).mono fun _ _ hvalue => hvalue.2
    apply (Ensures.commaSeparated_first gives_constant hnumber).bind
    intro params after hparams
    apply Ensures.expect
    intro _
    exact .pure hparams
  · intro _
    exact .pure ⟨by simp, by simp⟩

/-- A type is sound if those inside it are; `ANY TYPE` is two words. -/
theorem ensures_typeWith? (helement : element.Gives SqlType.IsSound)
    (hfields : fields.Gives fieldsAreSound) :
    (typeWith? element fields).Ensures cursor fun value _ =>
      (∀ type ∈ value, type.IsSound) ∧
        (value = some .any → cursor.kind? 0 = some .word ∧ cursor.kind? 1 = some .word) := by
  have hgood {rule : Rule (Option SqlType)} {cursor : Cursor}
      (hrule : rule.Ensures cursor fun value _ => ∀ type ∈ value, type.IsSound ∧ type ≠ .any)
      (claim : Prop) :
      rule.Ensures cursor fun value _ => (∀ type ∈ value, type.IsSound) ∧ (value = some .any → claim) := by
    apply hrule.mono
    intro value _ hvalue
    exact ⟨fun type htype => (hvalue type htype).1, fun hany => absurd rfl (hvalue _ hany).2⟩
  apply Ensures.skipAll (by simp)
  · intro hsees
    simp only [Cursor.seesAll, Cursor.seesAllAt, Bool.and_true, Bool.and_eq_true] at hsees
    have hword {ahead : Nat} {pattern : String} (hpattern : Cursor.isWordPattern pattern = true)
        (h : cursor.seesAt ahead pattern = true) : cursor.kind? ahead = some .word := by
      obtain ⟨token, htoken, hfits⟩ := Cursor.token_of_seesAt h
      unfold Cursor.fits at hfits
      rw [if_pos hpattern, Bool.and_eq_true, decide_eq_true_eq] at hfits
      rw [Cursor.kind?_of_token? htoken, hfits.1]
    refine .pure ⟨by simp [SqlType.IsSound], fun _ => ?_⟩
    exact ⟨hword (by decide) hsees.1, hword (by decide) hsees.2⟩
  · intro _
    apply hgood
    apply Ensures.skipAll (by simp)
    · intro _
      apply (helement _).bind
      intro type after htype
      apply Ensures.expect
      intro _
      exact .pure (by simpa [SqlType.IsSound] using htype)
    · intro _
      apply Ensures.skipAll (by simp)
      · intro _
        exact .pure (by simp [SqlType.IsSound, fieldsAreSound])
      · intro _
        apply Ensures.skipAll (by simp)
        · intro _
          apply (hfields _).bind
          intro fields _ hfields
          exact .pure (by simpa [SqlType.IsSound] using hfields)
        · intro _
          apply ensures_takeWord?.bind
          intro raw after hraw
          cases raw with
          | none => exact .pure (by simp)
          | some raw =>
            apply (gives_typeParams after).bind
            intro params _ hparams
            exact .pure (by simpa [SqlType.IsSound] using ⟨hraw raw rfl, hparams⟩)

theorem fieldsAreSound_iff {fields : List Field} :
    fieldsAreSound fields ↔ ∀ field ∈ fields, (∀ label ∈ field.name, label.IsSegment) ∧
      (field.name = none → field.type ≠ .any) ∧ field.type.IsSound := by
  induction fields with
  | nil => simp [fieldsAreSound]
  | cons field fields ih =>
    obtain ⟨name, type⟩ := field
    rw [fieldsAreSound, ih, List.forall_mem_cons]
    simp only [and_assoc]

theorem gives_fieldWith
    (h : ∀ cursor, type?.Ensures cursor fun value _ => (∀ type ∈ value, type.IsSound) ∧
      (value = some .any → cursor.kind? 0 = some .word ∧ cursor.kind? 1 = some .word)) :
    (fieldWith type?).Gives fun field => (∀ label ∈ field.name, label.IsSegment) ∧
      (field.name = none → field.type ≠ .any) ∧ field.type.IsSound := by
  have hrest (name : Option Identifier) (cursor : Cursor) (hname : ∀ label ∈ name, label.IsSegment)
      (hany : name = none → ¬(cursor.kind? 0 = some .word ∧ cursor.kind? 1 = some .word)) :
      Ensures (do return { name, type := ← require "a type" type? : Field }) cursor
        fun field _ => (∀ label ∈ field.name, label.IsSegment) ∧
          (field.name = none → field.type ≠ .any) ∧ field.type.IsSound := by
    have htype : (require "a type" type?).Ensures cursor fun type _ =>
        type.IsSound ∧ (type = .any → cursor.kind? 0 = some .word ∧ cursor.kind? 1 = some .word) := by
      apply (h cursor).require
      intro type _ htype
      exact ⟨htype.1 type rfl, fun hany => htype.2 (congrArg some hany)⟩
    apply htype.bind
    intro type _ htype
    exact .pure ⟨hname, fun hnone hisAny => hany hnone (htype.2 hisAny), htype.1⟩
  intro cursor
  apply (ensures_ask fun cursor =>
    (cursor.kind? = some .word || cursor.kind? = some .quotedIdent) && cursor.kind? 1 = some .word).bind
  rintro _ _ ⟨rfl, rfl⟩
  apply Ensures.ite
  · intro hnamed
    simp only [Bool.and_eq_true, Bool.or_eq_true, decide_eq_true_eq] at hnamed
    apply ensures_segment?.bind
    intro name after hname
    apply hrest name after fun label hlabel => (hname.1 label hlabel).1
    intro hnone
    obtain ⟨-, hword, hquoted⟩ := hname.2 hnone
    exact absurd hnamed.1 (by simp [hword, hquoted])
  · intro hnamed
    apply hrest none cursor (by simp)
    intro _ hany
    simp [hany.1, hany.2] at hnamed

theorem gives_fieldsWith
    (h : ∀ cursor, type?.Ensures cursor fun value _ => (∀ type ∈ value, type.IsSound) ∧
      (value = some .any → cursor.kind? 0 = some .word ∧ cursor.kind? 1 = some .word)) :
    (fieldsWith type?).Gives fieldsAreSound := by
  apply (isQuiet_skip ">").gives_bind
  intro _
  apply Gives.ite
  · intro _
    exact .pure trivial
  · intro _
    apply (gives_fieldWith h).commaSeparated.bind
    intro fields hfields
    apply (isQuiet_expect ">").discard.gives_bind
    intro _
    exact .pure (fieldsAreSound_iff.mpr hfields.2)

theorem gives_nested (levels : Nat) :
    (elementAt levels).Gives SqlType.IsSound ∧ (nestedFieldsAt levels).Gives fieldsAreSound := by
  induction levels with
  | zero =>
    constructor
    · rw [elementAt]
      exact gives_tooDeep
    · rw [nestedFieldsAt]
      exact gives_tooDeep
  | succ levels ih =>
    have htype (cursor : Cursor) := @ensures_typeWith? cursor _ _ ih.1 ih.2
    constructor
    · rw [elementAt]
      apply Gives.descend
      exact Gives.require (fun cursor => (htype cursor).mono fun _ _ hvalue => hvalue.1) _
    · rw [nestedFieldsAt]
      exact (gives_fieldsWith htype).descend

theorem gives_typeAt? (levels : Nat) :
    (typeAt? levels).Gives fun value => ∀ type ∈ value, type.IsSound := by
  obtain ⟨helement, hfields⟩ := gives_nested levels
  exact fun cursor => (ensures_typeWith? helement hfields).mono fun _ _ hvalue => hvalue.1

theorem gives_fieldsAt (levels : Nat) : (fieldsAt levels).Gives fieldsAreSound := by
  obtain ⟨helement, hfields⟩ := gives_nested levels
  exact gives_fieldsWith fun cursor => ensures_typeWith? helement hfields

theorem gives_declarationWith? (h : type?.Gives fun value => ∀ type ∈ value, type.IsSound) :
    (declarationWith? type?).Gives fun value => ∀ declaration ∈ value, declaration.IsSound := by
  apply gives_identifier?.bind
  intro name hname
  cases name with
  | none => exact .pure (by simp)
  | some name =>
    apply (h.require _).bind
    intro type htype
    apply Gives.pure
    rintro declaration ⟨⟩
    exact ⟨hname name rfl, htype⟩

end Types

section Modifiers

variable {cursor : Cursor}

theorem ensures_nullHandling? :
    nullHandling?.Ensures cursor fun value after => value = none → after = cursor := by
  have hword : nullWord?.Ensures cursor fun value after => value = none → cursor = after := by
    apply Ensures.skip
    · intro _
      exact .pure (by simp)
    · intro _
      apply Ensures.skip
      · intro _
        exact .pure (by simp)
      · intro _
        exact .pure fun _ => rfl
  apply hword.bind
  intro nulls after hnulls
  cases nulls with
  | none =>
    obtain rfl := hnulls rfl
    exact .pure fun _ => rfl
  | some nulls =>
    apply Ensures.expect
    intro _
    exact .pure (by simp)

theorem ensures_direction? :
    direction?.Ensures cursor fun value after => value = none → after = cursor := by
  apply Ensures.skip
  · intro _
    exact .pure (by simp)
  · intro _
    apply Ensures.skip
    · intro _
      exact .pure (by simp)
    · intro _
      exact .pure fun _ => rfl

theorem ensures_nullsOrder? :
    nullsOrder?.Ensures cursor fun value after => value = none → after = cursor := by
  apply Ensures.skip
  · intro _
    apply Ensures.skip
    · intro _
      exact .pure (by simp)
    · intro _
      apply Ensures.skip
      · intro _
        exact .pure (by simp)
      · intro _
        exact ensures_expected _
  · intro _
    exact .pure fun _ => rfl

theorem gives_precedingOrFollowing {preceding following : FrameBound} (h : preceding.IsSound)
    (hfollowing : following.IsSound) :
    (precedingOrFollowing preceding following).Gives FrameBound.IsSound := by
  apply (isQuiet_skip _).gives_bind
  intro _
  apply Gives.ite fun _ => .pure h
  intro _
  apply (isQuiet_skip _).gives_bind
  intro _
  exact .ite (fun _ => .pure hfollowing) fun _ => gives_expected _

theorem gives_frameBound : frameBound.Gives FrameBound.IsSound := by
  apply (isQuiet_skip _).gives_bind
  intro _
  apply Gives.ite
  · intro _
    exact gives_precedingOrFollowing trivial trivial
  intro _
  apply (isQuiet_skip _).gives_bind
  intro _
  apply Gives.ite
  · intro _
    apply (isQuiet_expect _).discard.gives_bind
    intro _
    exact .pure trivial
  intro _ cursor
  apply (ensures_ask (·.kind? 0)).bind
  rintro _ _ ⟨rfl, rfl⟩
  apply Ensures.ite
  · intro hnumber
    apply (ensures_number hnumber).bind
    intro count after hcount
    have hpreceding : (FrameBound.preceding count).IsSound := hcount
    have hfollowing : (FrameBound.following count).IsSound := hcount
    exact gives_precedingOrFollowing hpreceding hfollowing after
  · intro _
    exact ensures_expected _

theorem gives_frame? : frame?.Gives fun value => ∀ frame ∈ value, frame.IsSound := by
  apply isQuiet_frameUnit?.gives_bind
  intro unit
  cases unit with
  | none => exact .pure (by simp)
  | some unit =>
    apply (isQuiet_skip _).gives_bind
    intro _
    apply Gives.ite
    · intro _
      apply (gives_frameBound).bind
      intro start hstart
      apply (isQuiet_expect _).discard.gives_bind
      intro _
      apply (gives_frameBound).bind
      intro stop hstop
      apply Gives.pure
      rintro frame ⟨⟩
      exact ⟨hstart, hstop⟩
    · intro _
      apply (gives_frameBound).bind
      intro bound hbound
      apply Gives.pure
      rintro frame ⟨⟩
      exact hbound

end Modifiers

end SqlLayout.Grammar
