import SqlLayout.Proofs.Cursor.Stores
import SqlLayout.Proofs.Grammar.Pieces
import SqlLayout.Proofs.Layout.Words
import SqlLayout.Proofs.Sound.Name

/-!
# Names and Types Store Their Texts

The rules for names, constants and types store the verbatim texts of the tokens they take. The rules for
modifiers and operators decide by words and punctuation alone, and store nothing.
-/

namespace SqlLayout

open Rule Token Token.Scan

section Tokens

variable {cursor : Cursor} {token : Token}

theorem Token.verbatims_of_isVerbatim (h : token.kind.isVerbatim = true) :
    token.verbatims = [token.text] :=
  if_pos h

/-- A token that is taken as a name. -/
theorem Token.verbatims_eq_name (h : token.glyph.IsGenuine)
    (hkind : token.kind = .quotedIdent ∨ token.kind = .word) :
    token.verbatims = Identifier.verbatims { raw := token.text } := by
  rcases hkind with hquoted | hword
  · have hname : (Identifier.glyph { raw := token.text }).kind = .quotedIdent :=
      Identifier.kind_of_isQuotedName (Token.isQuotedName_of_isGenuine h hquoted)
    rw [verbatims, Identifier.verbatims, Glyph.verbatims, Glyph.verbatims, hname, glyph, hquoted]
    rfl
  · have hname : (Identifier.glyph { raw := token.text }).kind = .word :=
      Identifier.kind_of_isWord (Token.isWord_of_isGenuine h hword)
    rw [verbatims, Identifier.verbatims, Glyph.verbatims, Glyph.verbatims, hname, glyph, hword]
    rfl

theorem Cursor.read_advance_name (hclean : cursor.IsClean) (htoken : cursor.token? 0 = some token)
    (hkind : token.kind = .quotedIdent ∨ token.kind = .word) :
    (cursor.advance 1).read = cursor.read ++ Identifier.verbatims { raw := token.text } := by
  rw [read_advance_one htoken, token.verbatims_eq_name (hclean.isGenuine htoken) hkind]

end Tokens

namespace Grammar

section Names

theorem mayStore_identifier? : identifier?.MayStore Identifier.verbatims := by
  apply Stores.of_ensures
  intro cursor hclean value after hrun
  unfold identifier? at hrun
  cases htoken : cursor.token? 0 with
  | none =>
    simp only [htoken] at hrun
    cases hrun
    exact ⟨.refl cursor, (List.append_nil _).symm⟩
  | some token =>
    simp only [htoken] at hrun
    split at hrun
    · rename_i hkind
      cases hrun
      refine ⟨cursor.passes_advance 1, Cursor.read_advance_name hclean htoken ?_⟩
      simp only [Bool.or_eq_true, decide_eq_true_eq, Bool.and_eq_true] at hkind
      exact hkind.imp_right And.left
    · cases hrun
      exact ⟨.refl cursor, (List.append_nil _).symm⟩

theorem stores_identifier : identifier.Stores Identifier.verbatims :=
  (mayStore_identifier?).require _

theorem mayStore_segment? : segment?.MayStore Identifier.verbatims := by
  apply Stores.of_ensures
  intro cursor hclean value after hrun
  unfold segment? at hrun
  cases htoken : cursor.token? 0 with
  | none =>
    simp only [htoken] at hrun
    cases hrun
    exact ⟨.refl cursor, (List.append_nil _).symm⟩
  | some token =>
    simp only [htoken] at hrun
    split at hrun
    · rename_i hkind
      cases hrun
      refine ⟨cursor.passes_advance 1, Cursor.read_advance_name hclean htoken ?_⟩
      simpa only [Bool.or_eq_true, decide_eq_true_eq] using hkind
    · cases hrun
      exact ⟨.refl cursor, (List.append_nil _).symm⟩

theorem mayStore_dotSegment? : dotSegment?.MayStore Identifier.verbatims := by
  apply Stores.attempt
  exact (storesNothing_skip ".").bind fun _ => (mayStore_segment?).ite mayStore_none

theorem mayStore_qualifiedName? : qualifiedName?.MayStore QualifiedName.verbatims := by
  apply Stores.bind mayStore_identifier?
  intro first
  cases first with
  | none => exact mayStore_none
  | some first => exact (mayStore_dotSegment?).many.bind fun rest => .pure rfl

theorem stores_qualifiedName : qualifiedName.Stores QualifiedName.verbatims :=
  (mayStore_qualifiedName?).require _

theorem mayStore_aliasName? : aliasName?.MayStore Identifier.verbatims := by
  apply (storesNothing_skip "AS").bind
  intro _
  exact StoresAfter.ite ((stores_identifier).bind fun _ => .pure rfl) mayStore_identifier?

theorem storesNothing_take? (pattern : String) : (take? pattern).StoresNothing := by
  apply StoresNothing.of_ensures
  intro cursor _ value after hrun
  cases hsees : cursor.sees pattern with
  | false =>
    rw [take?_of_not hsees] at hrun
    cases hrun
    exact ⟨.refl cursor, rfl⟩
  | true =>
    rw [take?_of_sees hsees] at hrun
    cases hrun
    exact ⟨cursor.passes_advance 1, Cursor.read_advance_of_sees hsees⟩

theorem storesNothing_takeAny? (patterns : List String) : (takeAny? patterns).StoresNothing := by
  induction patterns with
  | nil => exact .pure rfl
  | cons pattern patterns ih =>
    apply (storesNothing_take? pattern).bind
    intro text
    cases text with
    | none => exact ih
    | some text => exact .pure rfl

variable {cursor : Cursor}

theorem ensures_bump_token {token : Token} (h : cursor.token? 0 = some token) :
    bump.Ensures cursor fun value after =>
      value = some token.text ∧ after.read = cursor.read ++ token.verbatims := by
  intro _ value after hrun
  have htext : cursor.text? = some token.text := by rw [Cursor.text?, h]; rfl
  rw [bump, htext] at hrun
  cases hrun
  exact ⟨cursor.passes_advance 1, rfl, Cursor.read_advance_one h⟩

theorem mayStore_constant? : constant?.MayStore Constant.verbatims := by
  apply Stores.of_ensures
  intro cursor
  unfold constant?
  apply (ensures_ask fun cursor : Cursor => cursor.kind?).bind
  rintro kind _ ⟨hkind, rfl⟩
  split
  · obtain ⟨token, htoken, htokenKind⟩ := Option.map_eq_some_iff.mp hkind.symm
    apply (ensures_bump_token htoken).map
    rintro text after ⟨rfl, hread⟩
    have hverbatim : (Constant.ofLiteral token.text).verbatims = [token.text] := by
      unfold Constant.ofLiteral
      split <;> rfl
    rw [hread, token.verbatims_of_isVerbatim (by rw [htokenKind]; rfl), ← hverbatim]
    rfl
  · obtain ⟨token, htoken, htokenKind⟩ := Option.map_eq_some_iff.mp hkind.symm
    apply (ensures_bump_token htoken).map
    rintro text after ⟨rfl, hread⟩
    rw [hread, token.verbatims_of_isVerbatim (by rw [htokenKind]; rfl)]
    rfl
  · apply Stores.ensures
    apply (storesNothing_takeAny? _).bind
    intro text
    cases text with
    | some text => exact .pure rfl
    | none => exact (storesNothing_skip "NULL").bind fun _ => StoresAfter.ite (.pure rfl) mayStore_none
  · exact .pure (List.append_nil _).symm

theorem stores_constant : constant.Stores Constant.verbatims :=
  (mayStore_constant?).require _

/-- A word is a name that is not quoted. -/
theorem mayStore_takeWord? : (takeKind? .word).MayStore fun raw => Identifier.verbatims { raw } := by
  apply Stores.of_ensures
  intro cursor
  apply Ensures.clean
  intro hclean
  apply (ensures_ask fun cursor : Cursor => cursor.kind?).bind
  rintro kind _ ⟨hkind, rfl⟩
  apply Ensures.ite
  · intro hword
    obtain ⟨token, htoken, htokenKind⟩ := Option.map_eq_some_iff.mp (hkind.symm.trans hword)
    apply (ensures_bump_token htoken).mono
    rintro text after ⟨rfl, hread⟩
    rw [hread, token.verbatims_eq_name (hclean.isGenuine htoken) (.inr htokenKind)]
    rfl
  · intro _
    exact .pure (List.append_nil _).symm

end Names

section Types

theorem stores_typeParams : typeParams.Stores (List.flatMap Constant.verbatims) := by
  apply (storesNothing_ask _).bind
  intro isOpen
  apply (storesNothing_ask _).bind
  intro kind
  apply StoresAfter.ite _ stores_nil
  apply (storesNothing_expect "(").bind
  intro _
  apply (stores_constant).commaSeparated.bind
  intro params
  exact (storesNothing_expect ")").bind fun _ => .pure rfl

variable {element : Rule SqlType} {fields : Rule (List Field)} {type : Rule (Option SqlType)}

theorem mayStore_typeWith? (helement : element.Stores SqlType.verbatims)
    (hfields : fields.Stores (List.flatMap Field.verbatims)) :
    (typeWith? element fields).MayStore SqlType.verbatims := by
  apply (storesNothing_skipAll (by simp)).bind
  intro _
  refine StoresAfter.ite (.pure rfl) ?_
  apply (storesNothing_skipAll (by simp)).bind
  intro _
  apply StoresAfter.ite
  · apply helement.bind
    intro type
    exact (storesNothing_expect ">").bind fun _ => .pure rfl
  apply (storesNothing_skipAll (by simp)).bind
  intro _
  refine StoresAfter.ite (.pure rfl) ?_
  apply (storesNothing_skipAll (by simp)).bind
  intro _
  apply StoresAfter.ite
  · apply hfields.bind
    intro fields
    exact .pure (fieldsVerbatims_eq fields).symm
  apply Stores.bind mayStore_takeWord?
  intro raw
  cases raw with
  | none => exact mayStore_none
  | some raw => exact (stores_typeParams).bind fun params => .pure rfl

theorem stores_fieldWith (htype : type.MayStore SqlType.verbatims) :
    (fieldWith type).Stores Field.verbatims := by
  apply (storesNothing_ask _).bind
  intro isNamed
  apply StoresAfter.iteBind mayStore_segment? mayStore_none
  intro name
  exact (htype.require "a type").bind fun _ => .pure rfl

theorem stores_fieldsWith (htype : type.MayStore SqlType.verbatims) :
    (fieldsWith type).Stores (List.flatMap Field.verbatims) := by
  apply (storesNothing_skip ">").bind
  intro _
  apply StoresAfter.ite stores_nil
  apply (stores_fieldWith htype).commaSeparated.bind
  intro fields
  exact (storesNothing_expect ">").bind fun _ => .pure rfl

theorem stores_elementAt_and_nestedFieldsAt (levels : Nat) :
    (elementAt levels).Stores SqlType.verbatims ∧
      (nestedFieldsAt levels).Stores (List.flatMap Field.verbatims) := by
  induction levels with
  | zero => exact ⟨storesAfter_tooDeep, storesAfter_tooDeep⟩
  | succ levels ih =>
    have htype := mayStore_typeWith? ih.1 ih.2
    exact ⟨(htype.require "a type").descend, (stores_fieldsWith htype).descend⟩

theorem mayStore_typeAt? (levels : Nat) : (typeAt? levels).MayStore SqlType.verbatims :=
  mayStore_typeWith? (stores_elementAt_and_nestedFieldsAt levels).1
    (stores_elementAt_and_nestedFieldsAt levels).2

theorem stores_fieldsAt (levels : Nat) : (fieldsAt levels).Stores (List.flatMap Field.verbatims) :=
  stores_fieldsWith (mayStore_typeAt? levels)

theorem mayStore_declarationWith? (htype : type.MayStore SqlType.verbatims) :
    (declarationWith? type).MayStore Declaration.verbatims := by
  apply Stores.bind mayStore_identifier?
  intro name
  cases name with
  | none => exact mayStore_none
  | some name => exact (htype.require "a type").bind fun _ => .pure rfl

end Types

section Modifiers

/-- A word that decides a value, or else what comes after it. -/
theorem storesAfter_word {α : Type} {held : List String} {texts : α → List String} (pattern : String)
    {value : α} (hvalue : held = texts value) {rest : Rule α} (hrest : rest.StoresAfter held texts) :
    StoresAfter held (do if ← skip pattern then return value else rest) texts :=
  (storesNothing_skip pattern).bind fun _ => StoresAfter.ite (.pure hvalue) hrest

/-- A word that decides something without a text, or else what comes after it. -/
theorem storesNothing_word {α : Type} (pattern : String) (value : α) {rest : Rule α}
    (hrest : rest.StoresNothing) :
    StoresNothing (do if ← skip pattern then return value else rest) := by
  refine storesAfter_word pattern ?_ hrest
  rfl

theorem storesNothing_none {α : Type} : (pure none : Rule (Option α)).StoresNothing :=
  .pure rfl

theorem storesNothing_nullHandling? : nullHandling?.StoresNothing := by
  have hword : nullWord?.StoresNothing :=
    storesNothing_word "IGNORE" _ <| storesNothing_word "RESPECT" _ storesNothing_none
  apply hword.bind
  intro nulls
  cases nulls with
  | none => exact storesNothing_none
  | some nulls => exact (storesNothing_expect "NULLS").bind fun _ => .pure rfl

theorem storesNothing_direction? : direction?.StoresNothing :=
  storesNothing_word "ASC" _ <| storesNothing_word "DESC" _ storesNothing_none

theorem storesNothing_nullsOrder? : nullsOrder?.StoresNothing := by
  apply (storesNothing_skip "NULLS").bind
  intro _
  apply StoresAfter.ite _ storesNothing_none
  exact storesNothing_word "FIRST" _ <| storesNothing_word "LAST" _ <| storesAfter_expected _

theorem storesAfter_precedingOrFollowing {held : List String} {preceding following : FrameBound}
    (hpreceding : held = preceding.verbatims) (hfollowing : held = following.verbatims) :
    (precedingOrFollowing preceding following).StoresAfter held FrameBound.verbatims :=
  storesAfter_word "PRECEDING" hpreceding <| storesAfter_word "FOLLOWING" hfollowing <|
    storesAfter_expected _

theorem stores_frameBound : frameBound.Stores FrameBound.verbatims := by
  apply (storesNothing_skip "UNBOUNDED").bind
  intro _
  refine StoresAfter.ite (storesAfter_precedingOrFollowing rfl rfl) ?_
  apply (storesNothing_skip "CURRENT").bind
  intro _
  refine StoresAfter.ite ((storesNothing_expect "ROW").bind fun _ => .pure rfl) ?_
  apply (storesNothing_ask _).bind
  intro kind
  apply StoresAfter.ite _ (storesAfter_expected _)
  exact (stores_constant).bind fun count => storesAfter_precedingOrFollowing rfl rfl

theorem mayStore_frame? : frame?.MayStore Frame.verbatims := by
  have hunit : frameUnit?.StoresNothing :=
    storesNothing_word "ROWS" _ <| storesNothing_word "RANGE" _ storesNothing_none
  apply hunit.bind
  intro unit
  cases unit with
  | none => exact mayStore_none
  | some unit =>
    apply (storesNothing_skip "BETWEEN").bind
    intro _
    apply StoresAfter.ite
    · apply (stores_frameBound).bind
      intro start
      apply (storesNothing_expect "AND").bind
      intro _
      exact (stores_frameBound).bind fun stop => .pure rfl
    · exact (stores_frameBound).bind fun bound => .pure rfl

theorem storesNothing_opOf? (ops : List (String × BinaryOp)) : (opOf? ops).StoresNothing := by
  induction ops with
  | nil => exact storesNothing_none
  | cons op ops ih => exact storesNothing_word op.1 _ ih

theorem storesNothing_shiftOp? : shiftOp?.StoresNothing := by
  have hjoined : (takeJoined? [">", ">"]).StoresNothing := by
    apply StoresNothing.of_ensures
    intro cursor _ value after hrun
    unfold takeJoined? at hrun
    split at hrun
    · cases hrun
      exact ⟨.refl cursor, rfl⟩
    · rename_i hsees
      cases hrun
      have hall : cursor.seesAll [">", ">"] = true := by
        simp only [Cursor.seesJoined, List.isEmpty_cons, Bool.false_or, Bool.not_eq_true',
          Bool.not_eq_false, Bool.and_eq_true] at hsees
        exact hsees.1
      exact ⟨cursor.passes_advance 2, Cursor.read_advance_of_seesAll hall⟩
  refine storesNothing_word "<<" _ (hjoined.bind fun text => ?_)
  exact StoresAfter.ite (.pure rfl) storesNothing_none

theorem storesNothing_sign? : sign?.StoresNothing :=
  storesNothing_word "-" _ <| storesNothing_word "+" _ <| storesNothing_word "~" _ storesNothing_none

theorem storesNothing_isTest : isTest.StoresNothing :=
  storesNothing_word "NULL" _ <| storesNothing_word "TRUE" _ <| storesNothing_word "FALSE" _ <|
    storesAfter_expected _

theorem storesNothing_indexKind? : indexKind?.StoresNothing := by
  apply StoresNothing.of_ensures
  intro cursor _ value after hrun
  unfold indexKind? at hrun
  cases htoken : cursor.token? 0 with
  | none =>
    simp only [htoken] at hrun
    cases hrun
    exact ⟨.refl cursor, rfl⟩
  | some token =>
    simp only [htoken] at hrun
    split at hrun
    · rename_i hkind
      simp only [Bool.and_eq_true, decide_eq_true_eq] at hkind
      have hword : token.verbatims = [] := by
        rw [Token.verbatims, Glyph.verbatims, Token.glyph, hkind.1]
        rfl
      split at hrun
      · cases hrun
        have hread := Cursor.read_advance_one htoken
        rw [hword, List.append_nil] at hread
        exact ⟨cursor.passes_advance 1, hread⟩
      · cases hrun
        exact ⟨.refl cursor, rfl⟩
    · cases hrun
      exact ⟨.refl cursor, rfl⟩

theorem storesNothing_negated : Nested.negated.StoresNothing := by
  apply StoresNothing.of_ensures
  intro cursor
  apply (ensures_ask _).bind
  rintro isNegated _ ⟨hnegated, rfl⟩
  apply Ensures.ite
  · intro htrue
    rw [hnegated, Bool.and_eq_true] at htrue
    exact (ensures_bump_of_sees htrue.1).bind fun _ _ hread => .pure hread
  · intro _
    exact .pure rfl

end Modifiers

end Grammar

end SqlLayout
