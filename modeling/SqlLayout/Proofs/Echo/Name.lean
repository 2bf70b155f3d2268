import SqlLayout.Proofs.Cursor.Echo
import SqlLayout.Proofs.Grammar.Pieces
import SqlLayout.Proofs.Sound.Name

/-!
# Names, Types and Modifiers without Regard to Case

Rules ask for words through patterns or through lists of words, and neither tells a letter from its
capital. A word that is taken as a name is in capitals where it was not before; a quoted name stays as it
is, and so do constants.
-/

namespace SqlLayout

open Rule Token Token.Scan

section Tokens

theorem Identifier.isQuoted_of_isQuotedName {name : Identifier} (h : IsQuotedName name.raw.toList) :
    name.isQuoted = true := by
  obtain ⟨body, htext, hbody⟩ := h
  have hlast := getLast?_of_quoted hbody
  rw [isQuoted, htext, enclosed?, if_pos]
  · rfl
  · simp only [hlast]
    decide

theorem Identifier.isQuoted_of_isWord {name : Identifier} (h : IsWord name.raw.toList) :
    name.isQuoted = false := by
  obtain ⟨first, rest, htext, hfirst, -⟩ := h
  rw [isQuoted, htext, enclosed?, if_neg]
  · rfl
  · simp only [Bool.and_eq_true, decide_eq_true_eq]
    rintro ⟨rfl, -⟩
    exact absurd hfirst (by decide)

/-- A token that is taken as a name becomes the capitalised name in capitals. -/
theorem Identifier.capital_token {token : Token} (h : token.glyph.IsGenuine)
    (hkind : token.kind = .quotedIdent ∨ token.kind = .word) :
    Identifier.capital { raw := token.text } = { raw := token.capital.text } := by
  rcases hkind with hquoted | hword
  · rw [capital, if_pos (isQuoted_of_isQuotedName (Token.isQuotedName_of_isGenuine h hquoted)),
      Token.capital_of_ne (by rw [hquoted]; decide)]
  · rw [capital, isQuoted_of_isWord (Token.isWord_of_isGenuine h hword), Token.capital, if_pos hword]
    rfl

end Tokens

namespace Grammar

section Names

/-- A rule that takes one token as a name if the token passes a test that is blind to case. -/
theorem mayEcho_name {rule : Rule (Option Identifier)} {test : Token → Bool}
    (hrule : ∀ cursor, rule cursor =
      match cursor.token? 0 with
      | some token =>
        if test token then .ok (some { raw := token.text }) (cursor.advance 1) else .ok none cursor
      | none => .ok none cursor)
    (hkind : ∀ token, test token = true → token.kind = .quotedIdent ∨ token.kind = .word)
    (htest : ∀ token, test token.capital = test token) : rule.MayEcho Identifier.capital := by
  intro cursor hclean
  have hrun := hrule cursor
  have hecho := hrule cursor.capital
  rw [cursor.token?_capital] at hecho
  cases htoken : cursor.token? 0 with
  | none =>
    rw [htoken] at hrun hecho
    exact .gives none cursor hrun hecho (.refl cursor)
  | some token =>
    rw [htoken] at hrun hecho
    simp only [Option.map_some, htest] at hrun hecho
    cases hpassed : test token with
    | false =>
      rw [hpassed] at hrun hecho
      exact .gives none cursor hrun hecho (.refl cursor)
    | true =>
      rw [hpassed] at hrun hecho
      refine .gives _ _ hrun ?_ (cursor.passes_advance 1)
      rw [Option.map_some, Identifier.capital_token (hclean.isGenuine htoken) (hkind token hpassed)]
      exact hecho

theorem mayEcho_identifier? : identifier?.MayEcho Identifier.capital := by
  apply mayEcho_name (fun _ => rfl)
  · intro token h
    simp only [Bool.or_eq_true, decide_eq_true_eq, Bool.and_eq_true] at h
    exact h.imp_right And.left
  · intro token
    by_cases hword : token.kind = .word
    · have htext : Keyword.isReserved token.capital.text = Keyword.isReserved token.text := by
        apply Keyword.isReserved_congr
        rw [Token.capital, if_pos hword, Text.sameWord_iff]
        exact Text.upper_upper token.text
      rw [Token.kind_capital, htext]
    · rw [Token.capital_of_ne hword]

theorem echoes_identifier : identifier.Echoes Identifier.capital :=
  (mayEcho_identifier?).require _

theorem mayEcho_segment? : segment?.MayEcho Identifier.capital := by
  apply mayEcho_name (fun _ => rfl)
  · intro token h
    simpa only [Bool.or_eq_true, decide_eq_true_eq] using h
  · intro token
    rw [Token.kind_capital]

theorem mayEcho_dotSegment? : dotSegment?.MayEcho Identifier.capital :=
  MayEcho.attempt <| (echoesSame_skip ".").bind fun _ => EchoesAs.ite mayEcho_segment? (.pure rfl)

theorem mayEcho_qualifiedName? : qualifiedName?.MayEcho QualifiedName.capital := by
  apply (mayEcho_identifier?).bind
  · exact .pure rfl
  · intro first
    exact EchoesAs.bind (mayEcho_dotSegment?).many fun rest => .pure rfl

theorem echoes_qualifiedName : qualifiedName.Echoes QualifiedName.capital :=
  (mayEcho_qualifiedName?).require _

theorem mayEcho_aliasName? : aliasName?.MayEcho Identifier.capital :=
  (echoesSame_skip "AS").bind fun _ =>
    EchoesAs.ite (EchoesAs.bind echoes_identifier fun _ => .pure rfl) mayEcho_identifier?

/-- A token that is no word is read as it is. -/
theorem echoesAt_bump {cursor : Cursor} {token : Token} (htoken : cursor.token? 0 = some token)
    (hkind : token.kind ≠ .word) : bump.EchoesAt bump id cursor := by
  have htext : cursor.text? = some token.text := by rw [Cursor.text?, htoken]; rfl
  have hcapital : cursor.capital.text? = some token.text := by
    rw [Cursor.text?, cursor.token?_capital, htoken, Option.map_some, Token.capital_of_ne hkind]
    rfl
  exact .gives _ _ (by rw [bump, htext]) (by rw [bump, hcapital]; rfl) (cursor.passes_advance 1)

theorem echoesSame_constant? : constant?.EchoesSame := by
  have hword : wordConstant?.EchoesSame := by
    apply (mayEcho_takeAny? (by decide)).bind
    · exact (echoesSame_skip "NULL").bind fun _ => EchoesAs.ite (.pure rfl) (.pure rfl)
    · intro text
      exact .pure (by rw [Text.upper_upper]; rfl)
  intro cursor hclean
  have hliteral (kind : Token.Kind) (hne : kind ≠ .word) (make : String → Constant)
      (hseen : cursor.kind? = some kind) :
      EchoesAt (Option.map make <$> bump) (Option.map make <$> bump) id cursor := by
    obtain ⟨token, htoken, rfl⟩ := Option.map_eq_some_iff.mp hseen
    exact (echoesAt_bump htoken hne).map fun _ => rfl
  apply EchoesAt.ask (cursor.kind?_capital 0)
  split
  · rename_i hseen
    exact hliteral .string (by decide) _ hseen
  · rename_i hseen
    exact hliteral .number (by decide) _ hseen
  · exact hword cursor hclean
  · exact .gives none cursor rfl rfl (.refl cursor)

theorem echoesSame_constant : constant.EchoesSame :=
  (echoesSame_constant?).mayEcho.require _

/-- A word that is taken as a name. -/
theorem mayEcho_takeWord? :
    (takeKind? .word).MayEcho fun raw => (Identifier.capital { raw }).raw := by
  intro cursor hclean
  have htake (cursor : Cursor) : takeKind? .word cursor =
      (if cursor.kind? = some .word then bump else pure none : Rule (Option String)) cursor :=
    bind_of_ok (ask_apply _ cursor)
  have hrun := htake cursor
  have hecho := htake cursor.capital
  rw [cursor.kind?_capital] at hecho
  by_cases hword : cursor.kind? = some .word
  · rw [if_pos hword] at hrun hecho
    obtain ⟨token, htoken, hkind⟩ := Option.map_eq_some_iff.mp hword
    have htext : cursor.text? = some token.text := by rw [Cursor.text?, htoken]; rfl
    have hcapital : cursor.capital.text? = some token.capital.text := by
      rw [Cursor.text?, cursor.token?_capital, htoken]
      rfl
    rw [bump, htext] at hrun
    rw [bump, hcapital] at hecho
    refine .gives _ _ hrun ?_ (cursor.passes_advance 1)
    rw [Option.map_some, Identifier.capital_token (hclean.isGenuine htoken) (.inr hkind)]
    exact hecho
  · rw [if_neg hword] at hrun hecho
    exact .gives none cursor hrun hecho (.refl cursor)

end Names

section Types

theorem echoesSame_typeParams : typeParams.EchoesSame := by
  apply (echoesSame_sees "(").bind
  intro isOpen
  apply (echoesSame_ask fun cursor => cursor.kind?_capital 1).bind
  intro kind
  refine EchoesAs.ite ?_ (.pure rfl)
  apply (echoesSame_expect "(").bind
  intro _
  apply EchoesSame.bind (echoesSame_constant).commaSeparated
  intro params
  exact (echoesSame_expect ")").bind fun _ => .pure rfl

variable {element : Rule SqlType} {fields : Rule (List Field)} {type : Rule (Option SqlType)}

theorem mayEcho_typeWith? (helement : element.Echoes SqlType.capital)
    (hfields : fields.Echoes (List.map Field.capital)) :
    (typeWith? element fields).MayEcho SqlType.capital := by
  apply (echoesSame_skipAll (by simp)).bind
  intro _
  refine EchoesAs.ite (.pure rfl) ?_
  apply (echoesSame_skipAll (by simp)).bind
  intro _
  apply EchoesAs.ite
  · apply helement.bind
    intro type
    exact (echoesSame_expect ">").bind fun _ => .pure rfl
  apply (echoesSame_skipAll (by simp)).bind
  intro _
  refine EchoesAs.ite (.pure rfl) ?_
  apply (echoesSame_skipAll (by simp)).bind
  intro _
  apply EchoesAs.ite
  · apply hfields.bind
    intro fields
    exact .pure (by simp [SqlType.capital])
  apply (mayEcho_takeWord?).bind
  · exact .pure rfl
  · intro raw
    exact (echoesSame_typeParams).bind fun params => .pure rfl

theorem echoes_fieldWith (htype : type.MayEcho SqlType.capital) :
    (fieldWith type).Echoes Field.capital := by
  have hnamed (cursor : Cursor) :
      ((cursor.capital.kind? = some .word || cursor.capital.kind? = some .quotedIdent) &&
        cursor.capital.kind? 1 = some .word) =
      ((cursor.kind? = some .word || cursor.kind? = some .quotedIdent) && cursor.kind? 1 = some .word) := by
    rw [cursor.kind?_capital, cursor.kind?_capital]
  apply (echoesSame_ask hnamed).bind
  intro isNamed
  apply EchoesAs.iteBind mayEcho_segment? (.pure rfl)
  intro name
  exact EchoesAs.bind (htype.require "a type") fun _ => .pure rfl

theorem echoes_fieldsWith (htype : type.MayEcho SqlType.capital) :
    (fieldsWith type).Echoes (List.map Field.capital) := by
  apply (echoesSame_skip ">").bind
  intro _
  refine EchoesAs.ite (.pure rfl) ?_
  apply EchoesAs.bind (echoes_fieldWith htype).commaSeparated
  intro fields
  exact (echoesSame_expect ">").bind fun _ => .pure rfl

theorem echoes_elementAt_and_nestedFieldsAt (levels : Nat) :
    (elementAt levels).Echoes SqlType.capital ∧
      (nestedFieldsAt levels).Echoes (List.map Field.capital) := by
  induction levels with
  | zero => exact ⟨echoes_tooDeep, echoes_tooDeep⟩
  | succ levels ih =>
    have htype := mayEcho_typeWith? ih.1 ih.2
    exact ⟨(htype.require "a type").descend, (echoes_fieldsWith htype).descend⟩

theorem mayEcho_typeAt? (levels : Nat) : (typeAt? levels).MayEcho SqlType.capital :=
  mayEcho_typeWith? (echoes_elementAt_and_nestedFieldsAt levels).1
    (echoes_elementAt_and_nestedFieldsAt levels).2

theorem echoes_fieldsAt (levels : Nat) : (fieldsAt levels).Echoes (List.map Field.capital) :=
  echoes_fieldsWith (mayEcho_typeAt? levels)

theorem mayEcho_declarationWith? (htype : type.MayEcho SqlType.capital) :
    (declarationWith? type).MayEcho Declaration.capital := by
  apply (mayEcho_identifier?).bind
  · exact .pure rfl
  · intro name
    exact EchoesAs.bind (htype.require "a type") fun _ => .pure rfl

end Types

section Modifiers

/-- A word that decides a value, or else what comes after it. -/
theorem echoesSame_word {α : Type} (pattern : String) (value : α) {rest : Rule α}
    (hrest : rest.EchoesSame) : EchoesSame (do if ← skip pattern then return value else rest) :=
  (echoesSame_skip pattern).bind fun _ => EchoesAs.ite (.pure rfl) hrest

theorem echoesSame_none {α : Type} : (pure none : Rule (Option α)).EchoesSame :=
  .pure rfl

theorem echoesSame_nullHandling? : nullHandling?.EchoesSame := by
  have hword : nullWord?.EchoesSame :=
    echoesSame_word "IGNORE" _ <| echoesSame_word "RESPECT" _ echoesSame_none
  apply hword.bind
  intro nulls
  cases nulls with
  | none => exact echoesSame_none
  | some nulls => exact (echoesSame_expect "NULLS").bind fun _ => .pure rfl

theorem echoesSame_direction? : direction?.EchoesSame :=
  echoesSame_word "ASC" _ <| echoesSame_word "DESC" _ echoesSame_none

theorem echoesSame_nullsOrder? : nullsOrder?.EchoesSame := by
  apply (echoesSame_skip "NULLS").bind
  intro _
  refine EchoesAs.ite ?_ echoesSame_none
  exact echoesSame_word "FIRST" _ <| echoesSame_word "LAST" _ <| echoes_expected _

theorem echoesSame_precedingOrFollowing (preceding following : FrameBound) :
    (precedingOrFollowing preceding following).EchoesSame :=
  echoesSame_word "PRECEDING" _ <| echoesSame_word "FOLLOWING" _ <| echoes_expected _

theorem echoesSame_frameBound : frameBound.EchoesSame := by
  apply (echoesSame_skip "UNBOUNDED").bind
  intro _
  refine EchoesAs.ite (echoesSame_precedingOrFollowing _ _) ?_
  apply (echoesSame_skip "CURRENT").bind
  intro _
  refine EchoesAs.ite ((echoesSame_expect "ROW").bind fun _ => .pure rfl) ?_
  apply echoesSame_kind?.bind
  intro kind
  refine EchoesAs.ite ?_ (echoes_expected _)
  exact (echoesSame_constant).bind fun count => echoesSame_precedingOrFollowing _ _

theorem echoesSame_frame? : frame?.EchoesSame := by
  have hunit : frameUnit?.EchoesSame :=
    echoesSame_word "ROWS" _ <| echoesSame_word "RANGE" _ echoesSame_none
  apply hunit.bind
  intro unit
  cases unit with
  | none => exact echoesSame_none
  | some unit =>
    apply (echoesSame_skip "BETWEEN").bind
    intro _
    apply EchoesAs.ite
    · apply (echoesSame_frameBound).bind
      intro start
      apply (echoesSame_expect "AND").bind
      intro _
      exact (echoesSame_frameBound).bind fun stop => .pure rfl
    · exact (echoesSame_frameBound).bind fun bound => .pure rfl

theorem echoesSame_opOf? (ops : List (String × BinaryOp)) : (opOf? ops).EchoesSame := by
  induction ops with
  | nil => exact echoesSame_none
  | cons op ops ih => exact echoesSame_word op.1 _ ih

theorem echoesSame_shiftOp? : shiftOp?.EchoesSame := by
  have hjoined : EchoesSame (Option.isSome <$> takeJoined? [">", ">"]) := by
    intro cursor _
    have htake (cursor : Cursor) : (Option.isSome <$> takeJoined? [">", ">"]) cursor =
        if cursor.seesJoined [">", ">"] then .ok true (cursor.advance 2) else .ok false cursor := by
      rw [map_eq_bind, bind_apply, takeJoined?]
      cases cursor.seesJoined [">", ">"] <;> rfl
    have hsame : cursor.capital.seesJoined [">", ">"] = cursor.seesJoined [">", ">"] := by
      rw [Cursor.seesJoined, Cursor.seesJoined, cursor.seesAll_capital, cursor.touching_capital]
    have hrun := htake cursor
    have hecho := htake cursor.capital
    rw [hsame] at hecho
    cases hsees : cursor.seesJoined [">", ">"] with
    | false =>
      rw [hsees] at hrun hecho
      exact .gives false cursor hrun hecho (.refl cursor)
    | true =>
      rw [hsees] at hrun hecho
      exact .gives true (cursor.advance 2) hrun hecho (cursor.passes_advance 2)
  have hshift : EchoesSame ((Option.isSome <$> takeJoined? [">", ">"]) >>= fun isThere =>
      if isThere = true then pure (some BinaryOp.shiftRight) else pure none) :=
    hjoined.bind fun _ => EchoesAs.ite (.pure rfl) echoesSame_none
  rw [bind_map_left] at hshift
  exact echoesSame_word "<<" _ hshift

theorem echoesSame_sign? : sign?.EchoesSame :=
  echoesSame_word "-" _ <| echoesSame_word "+" _ <| echoesSame_word "~" _ echoesSame_none

theorem echoesSame_isTest : isTest.EchoesSame :=
  echoesSame_word "NULL" _ <| echoesSame_word "TRUE" _ <| echoesSame_word "FALSE" _ <| echoes_expected _

theorem IndexKind.ofWord?_upper (text : String) :
    IndexKind.ofWord? (Text.upper text) = IndexKind.ofWord? text := by
  simp only [IndexKind.ofWord?, Text.sameWord, Text.upper_upper]

theorem echoesSame_indexKind? : indexKind?.EchoesSame := by
  intro cursor _
  have hrun := indexKind?_apply cursor
  have hecho := indexKind?_apply cursor.capital
  rw [cursor.token?_capital, cursor.seesAt_capital] at hecho
  cases htoken : cursor.token? 0 with
  | none =>
    rw [htoken] at hrun hecho
    exact .gives none cursor hrun hecho (.refl cursor)
  | some token =>
    rw [htoken] at hrun hecho
    simp only [Option.map_some, Token.kind_capital] at hrun hecho
    by_cases hcall : (token.kind = .word && cursor.seesAt 1 "(") = true
    · have hword : token.kind = .word := by simpa using (Bool.and_eq_true_iff.mp hcall).1
      have htext : IndexKind.ofWord? token.capital.text = IndexKind.ofWord? token.text := by
        rw [Token.capital, if_pos hword]
        exact IndexKind.ofWord?_upper token.text
      rw [if_pos hcall] at hrun hecho
      rw [htext] at hecho
      cases hkind : IndexKind.ofWord? token.text with
      | none =>
        rw [hkind] at hrun hecho
        exact .gives none cursor hrun hecho (.refl cursor)
      | some kind =>
        rw [hkind] at hrun hecho
        exact .gives (some kind) _ hrun hecho (cursor.passes_advance 1)
    · rw [if_neg hcall] at hrun hecho
      exact .gives none cursor hrun hecho (.refl cursor)

theorem echoesSame_negated : Nested.negated.EchoesSame := by
  have hnegated (cursor : Cursor) :
      (cursor.capital.sees "NOT" && ["LIKE", "IN", "BETWEEN"].any (cursor.capital.seesAt 1)) =
        (cursor.sees "NOT" && ["LIKE", "IN", "BETWEEN"].any (cursor.seesAt 1)) := by
    rw [cursor.sees_capital, funext (cursor.seesAt_capital 1)]
  apply (echoesSame_ask hnegated).bind
  intro isNegated
  exact EchoesAs.ite (echoesSame_bump.bind fun _ => .pure rfl) (.pure rfl)

end Modifiers

end Grammar

end SqlLayout
