import SqlLayout.Proofs.Cursor.Closed
import SqlLayout.Proofs.Grammar.Declining
import SqlLayout.Proofs.Grammar.Pieces

/-!
# Properties of the Whole Grammar

Every rule up to the statements is put together from steps in the ways that a closed property is handed on
by. So whatever is closed holds of the grammar: of each rule given that it holds of the rules it may nest,
and then of the rules for any number of levels. Rules that look at a token and take it are first shown to
be ways of taking a token that stands for a value.
-/

namespace SqlLayout.Rule.IsClosed

open Grammar

variable {P : ∀ {α : Type}, (α → Prop) → Rule α → Prop} (hP : IsClosed P)

section Names

theorem identifier?_eq : Grammar.identifier? = Rule.takeIf fun look =>
    if look.1 = .quotedIdent || (look.1 = .word && !Keyword.isReserved look.2) then some { raw := look.2 }
    else none := by
  funext cursor
  rw [Grammar.identifier?, Rule.takeIf, Cursor.look?]
  cases cursor.token? 0 with
  | none => rfl
  | some token =>
    simp only [Option.map_some, Option.bind_some]
    split <;> rfl

theorem segment?_eq : Grammar.segment? = Rule.takeIf fun look =>
    if look.1 = .quotedIdent || look.1 = .word then some { raw := look.2 } else none := by
  funext cursor
  rw [Grammar.segment?, Rule.takeIf, Cursor.look?]
  cases cursor.token? 0 with
  | none => rfl
  | some token =>
    simp only [Option.map_some, Option.bind_some]
    split <;> rfl

theorem kind?_apply (cursor : Cursor) : (Rule.kind? : Rule _) cursor = .ok cursor.kind? cursor :=
  rfl

theorem bump_of_look? {cursor : Cursor} {look : Token.Kind × String} (h : cursor.look? 0 = some look) :
    bump cursor = .ok (some look.2) (cursor.advance 1) := by
  rw [bump, Cursor.text?_eq_look?, h]
  rfl

theorem takeKind?_eq (kind : Token.Kind) : Rule.takeKind? kind = Rule.takeIf fun look =>
    if look.1 = kind then some look.2 else none := by
  funext cursor
  rw [Rule.takeKind?, bind_of_ok (kind?_apply cursor), Rule.takeIf, Cursor.kind?_eq_look?]
  cases hlook : cursor.look? 0 with
  | none => rfl
  | some look =>
    simp only [Option.map_some, Option.bind_some, Option.some.injEq]
    split
    · exact bump_of_look? hlook
    · rfl

/-- The constant that a token stands for. -/
def constantOf (look : Token.Kind × String) : Option Constant :=
  match look.1 with
  | .string => some (Constant.ofLiteral look.2)
  | .number => some { kind := .number, text := look.2 }
  | .word =>
    if Text.sameWord look.2 "TRUE" || Text.sameWord look.2 "FALSE" then
      some { kind := .boolean, text := Text.upper look.2 }
    else if Text.sameWord look.2 "NULL" then some { kind := .null, text := "NULL" }
    else none
  | _ => none

theorem take?_of_word {cursor : Cursor} {text pattern : String} (h : cursor.look? 0 = some (.word, text))
    (hpattern : Cursor.isWordPattern pattern = true) :
    Rule.take? pattern cursor =
      if Text.sameWord text pattern then .ok (some text) (cursor.advance 1) else .ok none cursor := by
  have hsees : cursor.sees pattern = Text.sameWord text pattern := by
    rw [Cursor.sees, Cursor.seesAt_eq_look?, h]
    simp [Cursor.fits, hpattern]
  cases hsame : Text.sameWord text pattern with
  | true => rw [take?_of_sees (hsees.trans hsame), Cursor.text?_eq_look?, h]; rfl
  | false => exact take?_of_not (hsees.trans hsame)

theorem constant?_eq : Grammar.constant? = Rule.takeIf constantOf := by
  funext cursor
  rw [Grammar.constant?, bind_of_ok (kind?_apply cursor), Rule.takeIf, Cursor.kind?_eq_look?]
  cases hlook : cursor.look? 0 with
  | none => rfl
  | some look =>
    obtain ⟨kind, text⟩ := look
    cases kind with
    | string | number =>
      simp only [Option.map_some, Option.bind_some, constantOf]
      rw [bind_of_ok (bump_of_look? hlook)]
      rfl
    | word =>
      have htrue := take?_of_word hlook (by decide : Cursor.isWordPattern "TRUE" = true)
      have hfalse := take?_of_word hlook (by decide : Cursor.isWordPattern "FALSE" = true)
      have hnull := take?_of_word hlook (by decide : Cursor.isWordPattern "NULL" = true)
      simp only [Option.map_some, Option.bind_some, constantOf]
      cases hsameTrue : Text.sameWord text "TRUE" with
      | true =>
        simp only [takeAny?, bind_apply, htrue, hsameTrue, if_true, Bool.true_or, pure_apply]
      | false =>
        cases hsameFalse : Text.sameWord text "FALSE" with
        | true =>
          simp only [takeAny?, bind_apply, htrue, hfalse, hsameTrue, hsameFalse, if_true, Bool.false_eq_true,
            if_false, Bool.or_true, pure_apply]
        | false =>
          cases hsameNull : Text.sameWord text "NULL" <;>
            simp only [takeAny?, Rule.skip, map_eq_bind, bind_apply, htrue, hfalse, hnull, hsameTrue,
              hsameFalse, hsameNull, if_true, Bool.false_eq_true, if_false, Bool.or_false, pure_apply,
              Option.isSome_some, Option.isSome_none]
    | _ => rfl

section

include hP

theorem takeKind? (kind : Token.Kind) (h : kind.isSymbol = false) :
    P ifFound (Rule.takeKind? kind) := by
  rw [takeKind?_eq]
  apply hP.takeIf
  intro other text hother
  have hne : other ≠ kind := by
    rintro rfl
    rw [h] at hother
    cases hother
  exact if_neg hne

theorem identifier? : P ifFound Grammar.identifier? := by
  rw [identifier?_eq]
  apply hP.takeIf
  rintro kind text hkind
  cases kind <;> first | rfl | cases hkind

theorem identifier : P always Grammar.identifier :=
  hP.require hP.identifier? _

theorem segment? : P ifFound Grammar.segment? := by
  rw [segment?_eq]
  apply hP.takeIf
  rintro kind text hkind
  cases kind <;> first | rfl | cases hkind

theorem dotSegment? : P ifFound Grammar.dotSegment? :=
  hP.attempt (hP.skip "." (by decide) (hP.any hP.segment?) hP.nothing)

theorem qualifiedName? : P ifFound Grammar.qualifiedName? :=
  hP.found hP.identifier? (fun _ => hP.both (hP.many hP.dotSegment?) fun _ => hP.give _) hP.nothing

theorem qualifiedName : P always Grammar.qualifiedName :=
  hP.require hP.qualifiedName? _

theorem aliasName? : P ifFound Grammar.aliasName? :=
  hP.skip "AS" (by decide) (hP.first hP.identifier fun _ => hP.give _) hP.identifier?

theorem constant? : P ifFound Grammar.constant? := by
  rw [constant?_eq]
  apply hP.takeIf
  rintro kind text hkind
  cases kind <;> first | rfl | cases hkind

theorem constant : P always Grammar.constant :=
  hP.require hP.constant? _

end

end Names

section Questions

variable {α : Type} {goal : α → Prop} {yes no : Rule α} {cursor : Cursor}

theorem kind?_eq_fst (cursor : Cursor) (ahead : Nat) (kind : Token.Kind) :
    decide (cursor.kind? ahead = some kind) = ((cursor.look? ahead).map Prod.fst == some kind) := by
  rw [Cursor.kind?_eq_look?]
  exact (beq_eq_decide ..).symm

include hP in
/-- What comes after the kind of the next token is known. -/
theorem kindIs (kind : Token.Kind) (h : kind.isSymbol = false) (hyes : P goal yes) (hno : P goal no) :
    P goal (Rule.kind? >>= fun found => if found = some kind then yes else no) := by
  have hkind : (Rule.kind? >>= fun found => if found = some kind then yes else no) =
      (Rule.ask (fun cursor => decide (cursor.kind? = some kind)) >>= fun isKind =>
        if isKind = true then yes else no) := by
    funext cursor
    rw [bind_of_ok (kind?_apply cursor), bind_of_ok (ask_apply _ cursor)]
    simp only [decide_eq_true_eq]
  have hstop : (some Token.Kind.semicolon == some kind) = false := by
    cases kind <;> first | rfl | cases h
  have hask : P never (Rule.ask fun cursor => decide (cursor.kind? = some kind)) := by
    refine hP.asks (fun look => look.map Prod.fst == some kind) (fun _ => true) ⟨rfl, hstop, rfl⟩ ?_
    intro cursor
    rw [kind?_eq_fst, Bool.and_true]
  rw [hkind]
  exact hP.last hask fun _ => hP.ite hyes hno

end Questions

section Types

include hP

theorem typeParams : P never Grammar.typeParams := by
  have hask : P never (Rule.ask fun cursor => cursor.sees "(" && cursor.kind? 1 = some .number) := by
    refine hP.asks (Cursor.fitsLook "(") (fun next => next.map Prod.fst == some .number) (by decide) ?_
    intro cursor
    rw [← cursor.seesAt_eq_fitsLook, kind?_eq_fst, Cursor.sees]
  have htype : Grammar.typeParams = (Rule.ask (fun cursor : Cursor =>
      cursor.sees "(" && cursor.kind? 1 = some .number) >>= fun isList =>
        if isList = true then do
          Functor.discard <| Rule.expect "("
          let params ← Rule.commaSeparated Grammar.constant
          Functor.discard <| Rule.expect ")"
          return params
        else return []) := rfl
  rw [htype]
  refine hP.both hask fun isList => hP.ite (hP.expect "(" (by decide) ?_) (hP.give [])
  exact hP.first (hP.commaSeparated hP.constant) fun params => hP.expect ")" (by decide) (hP.give params)

variable {element : Rule SqlType} {fields : Rule (List Field)} {type : Rule (Option SqlType)}

theorem typeWith? (helement : P always element) (hfields : P always fields) :
    P ifFound (Grammar.typeWith? element fields) := by
  refine hP.skipAll _ (by decide) (hP.give _) ?_
  refine hP.skipAll _ (by decide) (hP.first helement fun _ => hP.expect ">" (by decide) (hP.give _)) ?_
  refine hP.skipAll _ (by decide) (hP.give _) ?_
  refine hP.skipAll _ (by decide) (hP.first hfields fun _ => hP.give _) ?_
  exact hP.found (hP.takeKind? .word (by decide))
    (fun raw => hP.both hP.typeParams fun _ => hP.give _) hP.nothing

theorem fieldWith (htype : P ifFound type) : P always (Grammar.fieldWith type) := by
  have hask : P never (Rule.ask fun cursor =>
      (cursor.kind? = some .word || cursor.kind? = some .quotedIdent) && cursor.kind? 1 = some .word) := by
    refine hP.asks
      (fun look => look.map Prod.fst == some .word || look.map Prod.fst == some .quotedIdent)
      (fun next => next.map Prod.fst == some .word) (by decide) ?_
    intro cursor
    rw [kind?_eq_fst, kind?_eq_fst, kind?_eq_fst]
  have hfield (name : Option Identifier) : P always (do
      return ({ name, type := ← Rule.require "a type" type } : Field)) :=
    hP.first (hP.require htype "a type") fun _ => hP.give _
  exact hP.last hask fun isNamed => hP.ite (hP.last hP.segment? hfield) (hP.last (hP.give none) hfield)

theorem fieldsWith (htype : P ifFound type) : P always (Grammar.fieldsWith type) := by
  refine hP.skip ">" (by decide) (hP.give []) ?_
  exact hP.first (hP.commaSeparated (hP.fieldWith htype))
    fun fields => hP.expect ">" (by decide) (hP.give fields)

theorem elementAt_and_nestedFieldsAt (levels : Nat) :
    P always (elementAt levels) ∧ P always (nestedFieldsAt levels) := by
  induction levels with
  | zero => exact ⟨hP.tooDeep, hP.tooDeep⟩
  | succ levels ih =>
    have htype := hP.typeWith? ih.1 ih.2
    exact ⟨hP.descend (hP.require htype "a type"), hP.descend (hP.fieldsWith htype)⟩

theorem typeAt? (levels : Nat) : P ifFound (Grammar.typeAt? levels) :=
  hP.typeWith? (hP.elementAt_and_nestedFieldsAt levels).1 (hP.elementAt_and_nestedFieldsAt levels).2

theorem fieldsAt (levels : Nat) : P always (Grammar.fieldsAt levels) :=
  hP.fieldsWith (hP.typeAt? levels)

theorem declarationWith? (htype : P ifFound type) : P ifFound (Grammar.declarationWith? type) :=
  hP.found hP.identifier? (fun _ => hP.first (hP.require htype _) fun _ => hP.give _) hP.nothing

end Types

section Modifiers

include hP

theorem nullHandling? : P ifFound Grammar.nullHandling? := by
  have hword : P ifFound nullWord? :=
    hP.word "IGNORE" (by decide) _ <| hP.word "RESPECT" (by decide) _ hP.nothing
  exact hP.found hword (fun _ => hP.expect "NULLS" (by decide) (hP.give _)) hP.nothing

theorem direction? : P ifFound Grammar.direction? :=
  hP.word "ASC" (by decide) _ <| hP.word "DESC" (by decide) _ hP.nothing

theorem nullsOrder? : P ifFound Grammar.nullsOrder? :=
  hP.skip "NULLS" (by decide)
    (hP.word "FIRST" (by decide) _ <| hP.word "LAST" (by decide) _ <| hP.fail _) hP.nothing

theorem precedingOrFollowing (preceding following : FrameBound) :
    P always (Grammar.precedingOrFollowing preceding following) :=
  hP.word "PRECEDING" (by decide) _ <| hP.word "FOLLOWING" (by decide) _ <| hP.fail _

theorem frameBound : P always Grammar.frameBound := by
  refine hP.skip "UNBOUNDED" (by decide) (hP.any (hP.precedingOrFollowing _ _)) ?_
  refine hP.skip "CURRENT" (by decide) (hP.expect "ROW" (by decide) (hP.give _)) ?_
  refine hP.kindIs .number (by decide) (hP.first hP.constant fun _ => ?_) (hP.fail _)
  exact hP.any (hP.precedingOrFollowing _ _)

theorem frame? : P ifFound Grammar.frame? := by
  have hunit : P ifFound frameUnit? :=
    hP.word "ROWS" (by decide) _ <| hP.word "RANGE" (by decide) _ hP.nothing
  refine hP.found hunit (fun unit => ?_) hP.nothing
  refine hP.skip "BETWEEN" (by decide) (hP.first hP.frameBound fun start => hP.expect "AND" (by decide) ?_) ?_
  · exact hP.first hP.frameBound fun _ => hP.give _
  · exact hP.first hP.frameBound fun _ => hP.give _

theorem opOf? {ops : List (String × BinaryOp)} (h : ∀ op ∈ ops, op.1 ∉ Cursor.breaks) :
    P ifFound (Grammar.opOf? ops) := by
  induction ops with
  | nil => exact hP.nothing
  | cons op ops ih =>
    have hrest := ih fun other hother => h other (List.mem_cons_of_mem op hother)
    exact hP.word op.1 (h op List.mem_cons_self) _ hrest

omit hP in
theorem opOf?_bind {α : Type} (pattern : String) (op : BinaryOp) (ops : List (String × BinaryOp))
    (next : Option BinaryOp → Rule α) :
    (Grammar.opOf? ((pattern, op) :: ops) >>= next) = (Rule.skip pattern >>= fun isThere =>
      if isThere = true then next (some op) else Grammar.opOf? ops >>= next) := by
  rw [Grammar.opOf?, bind_assoc]
  congr 1
  funext isThere
  cases isThere <;> rfl

theorem shiftOp? : P ifFound Grammar.shiftOp? := by
  refine hP.word "<<" (by decide) _ (hP.found hP.takeJoined? (fun _ => ?_) ?_)
  · exact hP.ite (hP.give _) (hP.any hP.nothing)
  · exact hP.nothing

theorem sign? : P ifFound Grammar.sign? :=
  hP.word "-" (by decide) _ <| hP.word "+" (by decide) _ <| hP.word "~" (by decide) _ hP.nothing

theorem isTest : P always Grammar.isTest :=
  hP.word "NULL" (by decide) _ <| hP.word "TRUE" (by decide) _ <| hP.word "FALSE" (by decide) _ <| hP.fail _

theorem indexKind? : P ifFound Grammar.indexKind? := by
  have hask : P never (Rule.ask fun cursor => cursor.kind? = some .word && cursor.seesAt 1 "(") := by
    refine hP.asks (fun look => look.map Prod.fst == some .word) (Cursor.fitsLook "(") (by decide) ?_
    intro cursor
    rw [← cursor.seesAt_eq_fitsLook, kind?_eq_fst]
  have hkind : Grammar.indexKind? = (Rule.ask (fun cursor : Cursor =>
      cursor.kind? = some .word && cursor.seesAt 1 "(") >>= fun isCall =>
        if isCall = true then
          Rule.takeIf fun look => if look.1 = .word then IndexKind.ofWord? look.2 else none
        else return none) := by
    funext cursor
    rw [bind_of_ok (ask_apply _ _), Grammar.indexKind?, Cursor.kind?]
    cases htoken : cursor.token? 0 with
    | none => rfl
    | some token =>
      simp only [Option.map_some, Option.some.injEq]
      split
      · rename_i hcall
        rw [Bool.and_eq_true, decide_eq_true_eq] at hcall
        simp only [Rule.takeIf, Cursor.look?, htoken, Option.map_some, Option.bind_some, hcall.1, if_true]
        cases IndexKind.ofWord? token.text <;> rfl
      · rfl
  rw [hkind]
  refine hP.last hask fun _ => hP.ite (hP.takeIf ?_) hP.nothing
  rintro kind text hkind
  cases kind <;> first | rfl | cases hkind

omit hP in
/-- A token that was seen may as well be expected. -/
theorem bump_eq_expect {α : Type} {question : Cursor → Bool} {pattern : String} {yes no : Rule α}
    (h : ∀ cursor, question cursor = true → cursor.sees pattern = true) :
    (Rule.ask question >>= fun isThere =>
      if isThere = true then Functor.discard bump >>= fun _ => yes else no) =
      (Rule.ask question >>= fun isThere =>
        if isThere = true then Functor.discard (Rule.expect pattern) >>= fun _ => yes else no) := by
  funext cursor
  rw [bind_of_ok (ask_apply _ _), bind_of_ok (ask_apply _ _)]
  split
  · rename_i hquestion
    have hsees := h cursor hquestion
    rw [bind_of_ok (discard_bump_of_sees hsees), bind_of_ok (discard_expect_of_sees hsees)]
  · rfl

theorem negated : P never Nested.negated := by
  have hask : P never (Rule.ask fun cursor =>
      cursor.sees "NOT" && ["LIKE", "IN", "BETWEEN"].any (cursor.seesAt 1)) := by
    refine hP.asks (Cursor.fitsLook "NOT")
      (fun next => ["LIKE", "IN", "BETWEEN"].any (Cursor.fitsLook · next)) (by decide) ?_
    intro cursor
    rw [← cursor.seesAnyAt_eq_fitsLook, ← cursor.seesAt_eq_fitsLook]
    rfl
  have hnegated : Nested.negated = (Rule.ask (fun cursor : Cursor =>
      cursor.sees "NOT" && ["LIKE", "IN", "BETWEEN"].any (cursor.seesAt 1)) >>= fun isNegated =>
        if isNegated = true then Functor.discard bump >>= fun _ => return true else return false) := by
    funext cursor
    rw [bind_of_ok (ask_apply _ _), Nested.negated, bind_of_ok (ask_apply _ _)]
    cases cursor.sees "NOT" && ["LIKE", "IN", "BETWEEN"].any (cursor.seesAt 1) <;> rfl
  rw [hnegated, bump_eq_expect fun cursor h => (Bool.and_eq_true_iff.mp h).1]
  exact hP.both hask fun _ => hP.ite (hP.expect "NOT" (by decide) (hP.give _)) (hP.give _)

end Modifiers

end SqlLayout.Rule.IsClosed

namespace SqlLayout.Grammar.Nested

open Rule

/-- Nested rules that a property holds of, and that take a token for whatever they find. -/
structure Satisfies (P : ∀ {α : Type}, (α → Prop) → Rule α → Prop) (nested : Nested) : Prop where
  expr? : P ifFound nested.expr?
  notOperand : P always nested.notOperand
  signOperand : P always nested.signOperand
  query? : P ifFound nested.query?
  type? : P ifFound nested.type?
  fields : P always nested.fields

namespace Satisfies

variable {P : ∀ {α : Type}, (α → Prop) → Rule α → Prop} {nested : Nested} (h : nested.Satisfies P)
  (hP : IsClosed P)

include h hP

section Clauses

theorem expr : P always nested.expr :=
  hP.require h.expr? _

theorem type : P always nested.type :=
  hP.require h.type? _

theorem queryHere? : P ifFound nested.queryHere? := by
  have hask : P never (ask fun cursor => cursor.seesAny queryStarts) := by
    refine hP.asks (fun look => queryStarts.any (Cursor.fitsLook · look)) (fun _ => true) (by decide) ?_
    intro cursor
    rw [← cursor.seesAnyAt_eq_fitsLook, Bool.and_true]
    rfl
  exact hP.last hask fun _ => hP.ite h.query? hP.nothing

theorem query : P always nested.query :=
  hP.require (h.queryHere? hP) _

theorem parenQuery? : P ifFound nested.parenQuery? := by
  obtain ⟨rest, hrest, henclosed⟩ : ∃ rest, P never rest ∧
      nested.enclosedQuery? = (discard bump >>= fun _ => rest) := by
    refine ⟨_, hP.both (h.queryHere? hP) fun query => ?_, rfl⟩
    cases query with
    | none => exact hP.give none
    | some query => exact hP.both (hP.isThere ")" (by decide)) fun _ => hP.give _
  have hparen : nested.parenQuery? = (sees "(" >>= fun isOpen =>
      if isOpen = true then once (discard (expect "(") >>= fun _ => rest) else return none) := by
    funext cursor
    rw [Nested.parenQuery?, henclosed, bind_of_ok (sees_apply _ _), bind_of_ok (sees_apply _ _)]
    cases hsees : cursor.sees "(" with
    | false => rfl
    | true =>
      apply once_congr
      rw [bind_of_ok (discard_bump_of_sees hsees), bind_of_ok (discard_expect_of_sees hsees)]
  rw [hparen]
  exact hP.last (hP.sees "(" (by decide)) fun _ =>
    hP.ite (hP.once (hP.expect "(" (by decide) hrest)) hP.nothing

theorem closedQuery : P always nested.closedQuery :=
  hP.first (h.query hP) fun query => hP.expect ")" (by decide) (hP.give query)

theorem closedExpr : P always nested.closedExpr :=
  hP.first (h.expr hP) fun expr => hP.expect ")" (by decide) (hP.give expr)

theorem exprAfter? (keyword : String) (hkeyword : keyword ∉ Cursor.breaks) :
    P ifFound (nested.exprAfter? keyword) :=
  hP.skip keyword hkeyword (hP.first (h.expr hP) fun _ => hP.give _) hP.nothing

theorem sortKey? : P ifFound nested.sortKey? :=
  hP.found h.expr? (fun _ => hP.both hP.direction? fun _ => hP.both hP.nullsOrder? fun _ => hP.give _)
    hP.nothing

theorem orderBy : P never nested.orderBy :=
  hP.skip "ORDER" (by decide)
    (hP.expect "BY" (by decide) (hP.any (hP.commaSeparated (hP.require (h.sortKey? hP) _)))) (hP.give [])

theorem rowOrder? : P never nested.rowOrder? := by
  apply hP.both (h.orderBy hP)
  intro keys
  refine hP.found (h.exprAfter? hP "LIMIT" (by decide)) (fun limit => ?_) (hP.give _)
  exact hP.both (h.exprAfter? hP "OFFSET" (by decide)) fun _ => hP.give _

theorem window? : P ifFound nested.window? := by
  have hpartition : P never nested.partitionBy :=
    hP.skip "PARTITION" (by decide)
      (hP.expect "BY" (by decide) (hP.any (hP.commaSeparated (h.expr hP)))) (hP.give [])
  refine hP.skip "OVER" (by decide)
    (hP.expect "(" (by decide) (hP.both hpartition fun partition => ?_)) hP.nothing
  apply hP.both (h.orderBy hP)
  intro order
  exact hP.both hP.frame? fun frame => hP.expect ")" (by decide) (hP.give _)

end Clauses

section Forms

theorem array? : P ifFound nested.array? := by
  have hhead : P ifFound nested.arrayHead? := by
    refine hP.skipAll _ (by decide)
      (hP.first (h.type hP) fun _ => hP.expect ">" (by decide) (hP.expect "[" (by decide) (hP.give _))) ?_
    exact hP.skipAll _ (by decide) (hP.give _) (hP.word "[" (by decide) _ hP.nothing)
  refine hP.found hhead (fun type => hP.skip "]" (by decide) (hP.give _) ?_) hP.nothing
  exact hP.first (hP.commaSeparated (h.expr hP)) fun _ => hP.expect "]" (by decide) (hP.give _)

theorem arrayAgg? : P ifFound nested.arrayAgg? := by
  have hoffset : P never nested.aggOffset? := by
    refine hP.skipAll _ (by decide)
      (hP.expect "(" (by decide) (hP.first (h.closedExpr hP) fun _ => ?_)) (hP.give none)
    exact hP.expect "]" (by decide) (hP.give _)
  refine hP.skipAll _ (by decide) (hP.both (hP.isThere "DISTINCT" (by decide)) fun distinct => ?_) hP.nothing
  apply hP.first (h.expr hP)
  intro operand
  apply hP.both hP.nullHandling?
  intro nulls
  apply hP.both (h.rowOrder? hP)
  intro order
  apply hP.both (h.window? hP)
  intro window
  exact hP.expect ")" (by decide) (hP.both hoffset fun _ => hP.give _)

theorem accessor? : P ifFound nested.accessor? := by
  have hrest (accessor : Accessor) : P never (do
      discard <| expect "]"
      return some accessor) :=
    hP.expect "]" (by decide) (hP.give _)
  refine hP.skip "[" (by decide) (hP.any (hP.ahead "(" (by decide) ?_ ?_)) hP.nothing
  · refine hP.last hP.segment? fun name => hP.expect "(" (by decide) (hP.first (h.closedExpr hP) fun _ => ?_)
    exact hP.both (hP.give _) hrest
  · exact hP.first (h.expr hP) fun _ => hP.both (hP.give _) hrest

theorem stringAgg? : P ifFound nested.stringAgg? := by
  have hfunction : P ifFound stringFunction? :=
    hP.skipAll _ (by decide) (hP.give _) (hP.skipAll _ (by decide) (hP.give _) hP.nothing)
  refine hP.found hfunction (fun function => ?_) hP.nothing
  apply hP.both (hP.isThere "DISTINCT" (by decide))
  intro distinct
  apply hP.first (h.expr hP)
  intro operand
  have hrest (delimiter : Option Constant) : P never (do
      let nulls ← nullHandling?
      let order ← nested.rowOrder?
      let window ← nested.window?
      discard <| expect ")"
      let accessor ← nested.accessor?
      return some (Expr.stringAgg function distinct operand delimiter nulls order window accessor)) := by
    apply hP.both hP.nullHandling?
    intro nulls
    apply hP.both (h.rowOrder? hP)
    intro order
    apply hP.both (h.window? hP)
    intro window
    exact hP.expect ")" (by decide) (hP.both (h.accessor? hP) fun _ => hP.give _)
  exact hP.skip "," (by decide) (hP.both (hP.change hP.constant _) hrest) (hP.both (hP.give none) hrest)

theorem arrayQuery? : P ifFound nested.arrayQuery? :=
  hP.skipAll _ (by decide) (hP.first (h.closedQuery hP) fun _ => hP.give _) hP.nothing

theorem parenExpr : P always nested.parenExpr := by
  refine hP.found (h.parenQuery? hP) (fun _ => hP.give _) (hP.expect "(" (by decide) ?_)
  exact hP.first (h.closedExpr hP) fun _ => hP.give _

theorem castExpr (safe : Bool) : P always (nested.castExpr safe) := by
  refine hP.expect "(" (by decide) (hP.first (h.expr hP) fun operand => hP.expect "AS" (by decide) ?_)
  exact hP.first (h.type hP) fun _ => hP.expect ")" (by decide) (hP.give _)

theorem extractExpr : P always nested.extractExpr := by
  refine hP.expect "(" (by decide) (hP.first (h.expr hP) fun part => hP.expect "FROM" (by decide) ?_)
  apply hP.first (h.expr hP)
  intro operand
  have hrest (zone : Option Expr) :
      P never (do discard <| expect ")"; return Expr.extract part operand zone) :=
    hP.expect ")" (by decide) (hP.give _)
  exact hP.skipAll _ (by decide) (hP.both (hP.change (h.expr hP) _) hrest) (hP.both (hP.give none) hrest)

theorem caseExpr : P never nested.caseExpr := by
  have hbranch : P ifFound nested.branch? := by
    refine hP.skip "WHEN" (by decide)
      (hP.first (h.expr hP) fun condition => hP.expect "THEN" (by decide) ?_) hP.nothing
    exact hP.first (h.expr hP) fun _ => hP.give _
  have hrest (operand : Option Expr) : P never (do
      let branches ← many nested.branch?
      if branches.isEmpty then return ← Rule.expected "\x60WHEN\x60"
      let otherwise ← nested.exprAfter? "ELSE"
      discard <| expect "END"
      return Expr.case operand branches otherwise) := by
    apply hP.both (hP.many hbranch)
    intro branches
    refine hP.ite (hP.fail _) (hP.both (h.exprAfter? hP "ELSE" (by decide)) fun otherwise => ?_)
    exact hP.expect "END" (by decide) (hP.give _)
  apply hP.both (hP.sees "WHEN" (by decide))
  intro _
  exact hP.ite (hP.both (hP.give none) hrest) (hP.both (hP.change (h.expr hP) _) hrest)

theorem structExpr : P always nested.structExpr := by
  have hfields : P ifFound nested.structFields? :=
    hP.word "<>" (by decide) _ <| hP.skip "<" (by decide) (hP.first h.fields fun _ => hP.give _) hP.nothing
  have hitem : P always (do
      return { expr := ← nested.expr, aliasName := ← aliasName? : StructItem }) :=
    hP.first (h.expr hP) fun _ => hP.both hP.aliasName? fun _ => hP.give _
  exact hP.last hfields fun _ => hP.first (hP.parenthesized hitem) fun _ => hP.give _

omit h hP in
/-- Where a rule declines by what is next, it does not matter what comes after that. -/
theorem ask_eq {α : Type} {question : Cursor → Bool} (guard : Cursor → Bool) {yes : Rule (Option α)}
    (hdeclines : ∀ cursor, guard cursor = false → yes.Declines cursor) :
    (ask question >>= fun isTrue => if isTrue = true then yes else return none) =
      (ask (fun cursor => guard cursor && question cursor) >>= fun isTrue =>
        if isTrue = true then yes else return none) := by
  funext cursor
  rw [bind_of_ok (ask_apply _ _), bind_of_ok (ask_apply _ _)]
  cases hguard : guard cursor with
  | true => rw [Bool.true_and]
  | false =>
    rw [Bool.false_and, if_neg Bool.false_ne_true]
    split
    · exact hdeclines cursor hguard
    · rfl

theorem special? {unary? : Rule (Option Expr)} (hunary : P ifFound unary?) :
    P ifFound (nested.special? unary?) := by
  have hask : P never (ask fun cursor =>
      cursor.seesAny ["CAST", "SAFE_CAST", "EXTRACT", "EXISTS"] && cursor.seesAt 1 "(") := by
    refine hP.asks (fun look => ["CAST", "SAFE_CAST", "EXTRACT", "EXISTS"].any (Cursor.fitsLook · look))
      (Cursor.fitsLook "(") (by decide) ?_
    intro cursor
    rw [← cursor.seesAnyAt_eq_fitsLook, ← cursor.seesAt_eq_fitsLook]
    rfl
  have hexpr {rule : Rule Expr} (hrule : P always rule) : P ifFound (do return some (← rule)) :=
    hP.first hrule fun _ => hP.give _
  have hcalls {cursor : Cursor}
      (hnone : cursor.seesAny ["CAST", "SAFE_CAST", "EXTRACT", "EXISTS"] = false) {word : String}
      (hword : word ∈ ["CAST", "SAFE_CAST", "EXTRACT", "EXISTS"]) : skip word cursor = .ok false cursor :=
    skip_of_not (Bool.eq_false_iff.mpr (List.any_eq_false.mp hnone word hword))
  refine hP.last (hP.sees "(" (by decide)) fun _ => hP.ite (hexpr (h.parenExpr hP)) ?_
  refine hP.skip "CASE" (by decide) (hP.both (h.caseExpr hP) fun _ => hP.give _) ?_
  refine hP.skip "STRUCT" (by decide) (hP.any (hexpr (h.structExpr hP))) ?_
  refine hP.skip "INTERVAL" (by decide) (hP.first (hP.require hunary _) fun _ => ?_) ?_
  · exact hP.first hP.identifier fun _ => hP.give _
  rw [ask_eq fun cursor => cursor.seesAny ["CAST", "SAFE_CAST", "EXTRACT", "EXISTS"]]
  · refine hP.last hask fun _ => hP.ite ?_ hP.nothing
    refine hP.skip "CAST" (by decide) (hP.any (hexpr (h.castExpr hP false))) ?_
    refine hP.skip "SAFE_CAST" (by decide) (hP.any (hexpr (h.castExpr hP true))) ?_
    refine hP.skip "EXTRACT" (by decide) (hP.any (hexpr (h.extractExpr hP))) ?_
    refine hP.skip "EXISTS" (by decide) (hP.expect "(" (by decide) ?_) hP.nothing
    exact hP.first (h.closedQuery hP) fun _ => hP.give _
  · intro cursor hnone
    refine (bind_of_ok (hcalls hnone (by decide))).trans ?_
    refine (bind_of_ok (hcalls hnone (by decide))).trans ?_
    refine (bind_of_ok (hcalls hnone (by decide))).trans ?_
    exact bind_of_ok (hcalls hnone (by decide))

omit h in
theorem nameExpr? : P ifFound Nested.nameExpr? := by
  have hask : P never (ask fun cursor =>
      (cursor.look? 0).any (fun look => look.1 = .word && Keyword.isCallable look.2) &&
        cursor.seesAt 1 "(") := by
    refine hP.asks (fun look => look.any fun look => look.1 = .word && Keyword.isCallable look.2)
      (Cursor.fitsLook "(") (by decide) ?_
    intro cursor
    rw [← cursor.seesAt_eq_fitsLook]
  have hname : Nested.nameExpr? = (ask (fun cursor : Cursor =>
      (cursor.look? 0).any (fun look => look.1 = .word && Keyword.isCallable look.2) &&
        cursor.seesAt 1 "(") >>= fun isCall =>
      if isCall = true then
        takeIf fun look => if look.1 = .word then some (.name { first := { raw := look.2 } }) else none
      else Option.map Expr.name <$> qualifiedName?) := by
    funext cursor
    rw [bind_of_ok (ask_apply _ _), Nested.nameExpr?, Cursor.look?]
    cases htoken : cursor.token? 0 with
    | none =>
      have hdeclines : qualifiedName?.Declines cursor := by
        have hidentifier : identifier?.Declines cursor := by rw [Declines, identifier?, htoken]
        exact bind_of_ok hidentifier
      exact (hdeclines.map Expr.name).symm
    | some token =>
      simp only [Option.map_some, Option.any_some]
      split
      · rename_i hcall
        simp only [Bool.and_eq_true, decide_eq_true_eq] at hcall
        simp only [takeIf, Cursor.look?, htoken, Option.map_some, Option.bind_some, hcall.1.1, if_true]
      · rfl
  rw [hname]
  refine hP.last hask fun _ => hP.ite (hP.takeIf ?_) (hP.mapFound hP.qualifiedName? _)
  rintro kind text hkind
  cases kind <;> first | rfl | cases hkind

theorem afterName (name : QualifiedName) : P never (nested.afterName name) := by
  have hargument : P always nested.argument := hP.word "*" (by decide) _ (h.expr hP)
  have hcall : P always (nested.callRest name) := by
    have hrest (distinct : Bool) : P always (do
        let args ← commaSeparated nested.argument
        let nulls ← nullHandling?
        discard <| expect ")"
        return Expr.call name distinct args nulls) := by
      apply hP.first (hP.commaSeparated hargument)
      intro args
      exact hP.both hP.nullHandling? fun nulls => hP.expect ")" (by decide) (hP.give _)
    refine hP.last (hP.isThere "DISTINCT" (by decide)) fun distinct => ?_
    exact hP.ite (hP.word ")" (by decide) _ (hrest distinct)) (hrest distinct)
  refine hP.skip "(" (by decide) (hP.any hcall) ?_
  dsimp only
  cases name.isSingle && typedLiterals.any (Text.sameWord name.first.raw) with
  | false => exact hP.give (Expr.name name)
  | true =>
    simp only [Bool.true_and, decide_eq_true_eq]
    exact hP.kindIs .string (by decide) (hP.first hP.constant fun _ => hP.give _) (hP.give _)

theorem primary? {unary? : Rule (Option Expr)} (hunary : P ifFound unary?) :
    P ifFound (nested.primary? unary?) := by
  have hfound : P ifFound (Rule.firstOf
      [Option.map Expr.constant <$> constant?, nested.array?, nested.arrayAgg?, nested.stringAgg?,
        nested.arrayQuery?, nested.special? unary?, Nested.nameExpr?]) := by
    apply hP.firstOf
    simp only [List.forall_mem_cons, List.not_mem_nil, IsEmpty.forall_iff, implies_true, and_true]
    exact ⟨hP.mapFound hP.constant? _, h.array? hP, h.arrayAgg? hP, h.stringAgg? hP, h.arrayQuery? hP,
      h.special? hP hunary, nameExpr? hP⟩
  have hrest (expr : Expr) : P never (nested.windowed? expr) := by
    apply hP.both (h.window? hP)
    rintro (_ | window)
    · exact hP.give _
    · exact hP.give _
  refine hP.found hfound (fun found => ?_) hP.nothing
  cases found
  case name name => exact hP.both (h.afterName hP name) hrest
  all_goals exact hP.both (hP.give _) hrest

end Forms

section Operators

omit h in
/-- The operators of a level are told by what comes after them as well. -/
theorem leftAssocOf {operand? : Rule (Option Expr)} {op? : Rule (Option BinaryOp)}
    (hoperand : P ifFound operand?)
    (htail : P ifFound (operation? operand? op?)) : P ifFound (Grammar.leftAssoc operand? op?) :=
  hP.found hoperand (fun _ => hP.both (hP.many htail) fun _ => hP.give _) hP.nothing

omit h in
theorem leftAssoc {operand? : Rule (Option Expr)} {op? : Rule (Option BinaryOp)}
    (hoperand : P ifFound operand?) (hop : P ifFound op?) : P ifFound (Grammar.leftAssoc operand? op?) := by
  refine leftAssocOf hP hoperand (hP.found hop (fun op => ?_) hP.nothing)
  exact hP.first (hP.require hoperand _) fun _ => hP.give _

theorem postfix? : P ifFound nested.postfix? := by
  have hsubscript : P always nested.subscript := by
    refine hP.found hP.indexKind? (fun kind => hP.expect "(" (by decide) ?_) ?_
    · exact hP.first (h.closedExpr hP) fun _ => hP.expect "]" (by decide) (hP.give _)
    · exact hP.first (h.expr hP) fun _ => hP.expect "]" (by decide) (hP.give _)
  refine hP.skip "[" (by decide) (hP.first hsubscript fun _ => hP.give _) ?_
  exact hP.found hP.dotSegment? (fun _ => hP.give _) hP.nothing

theorem operand? {unary? : Rule (Option Expr)} (hunary : P ifFound unary?) :
    P ifFound (nested.operand? unary?) :=
  hP.found (h.primary? hP hunary) (fun _ => hP.both (hP.many (h.postfix? hP)) fun _ => hP.give _) hP.nothing

theorem unaryUpTo? (steps : Nat) : P ifFound (nested.unaryUpTo? steps) := by
  induction steps with
  | zero => exact hP.nothing
  | succ steps ih =>
    exact hP.found hP.sign? (fun op => hP.first h.signOperand fun _ => hP.give _) (h.operand? hP ih)

omit h hP in
theorem operand?_leadsTo {unary? other : Rule (Option Expr)}
    (h : (require "an expression" unary?).LeadsTo (require "an expression" other)) :
    (nested.operand? unary?).LeadsTo (nested.operand? other) := by
  have hspecial : (nested.special? unary?).LeadsTo (nested.special? other) := by
    refine .bind (.refl _) fun _ => .ite (.refl _) ?_
    refine .bind (.refl _) fun _ => .ite (.refl _) ?_
    refine .bind (.refl _) fun _ => .ite (.refl _) ?_
    exact .bind (.refl _) fun _ => .ite (.bind h fun _ => .refl _) (.refl _)
  have hprimary : (nested.primary? unary?).LeadsTo (nested.primary? other) := by
    refine .bind (.firstOf ?_) fun _ => .refl _
    simp only [List.forall₂_cons, List.forall₂_nil_left_iff, LeadsTo.refl, hspecial, true_and]
  exact .bind hprimary fun _ => .refl _

omit h hP in
/-- More steps than enough read the same. -/
theorem unaryUpTo?_leadsTo {steps more : Nat} (hle : steps ≤ more) :
    (nested.unaryUpTo? (steps + 1)).LeadsTo (nested.unaryUpTo? (more + 1)) := by
  induction steps generalizing more with
  | zero =>
    have hnone : (require "an expression" (nested.unaryUpTo? 0)).LeadsTo
        (require "an expression" (nested.unaryUpTo? more)) :=
      fun _ _ _ hrun => by cases hrun
    refine .bind (.refl _) fun op => ?_
    cases op with
    | some op => exact .refl _
    | none => exact operand?_leadsTo hnone
  | succ steps ih =>
    obtain ⟨more, rfl⟩ := Nat.exists_eq_add_of_le' (Nat.le_trans (Nat.le_add_left 1 steps) hle)
    have hmore := ih (Nat.le_of_succ_le_succ hle)
    refine .bind (.refl _) fun op => ?_
    cases op with
    | some op => exact .refl _
    | none => exact operand?_leadsTo (.bind hmore fun _ => .refl _)

theorem unary? : P ifFound nested.unary? :=
  hP.steps (h.unaryUpTo? hP) fun _ _ hle => unaryUpTo?_leadsTo hle

theorem product? : P ifFound nested.product? := by
  have hright (op : BinaryOp) : P always (do
      return some (op, ← require "an expression" nested.unary?)) :=
    hP.first (hP.require (h.unary? hP) _) fun _ => hP.give _
  apply leftAssocOf hP (h.unary? hP)
  rw [operation?, IsClosed.opOf?_bind, IsClosed.opOf?_bind, IsClosed.opOf?_bind]
  refine hP.skip "*" (by decide) (hP.any (hright _)) (hP.slash (hP.any (hright _)) ?_ ?_)
  · exact hP.skip "||" (by decide) (hP.any (hright _)) hP.nothing
  · intro cursor hstar value after hrun
    have hrequire : require "an expression" nested.unary? cursor =
        Rule.expected "an expression" cursor :=
      bind_of_ok (unary?_declines_of_star hstar)
    have hfails : (require "an expression" nested.unary? >>= fun right =>
        return some (BinaryOp.divide, right) : Rule _) cursor =
          .error (cursor.failure "an expression") cursor := by
      rw [bind_apply, hrequire]
      rfl
    cases hfails.symm.trans hrun

theorem bitOr? : P ifFound nested.bitOr? := by
  have hsum : P ifFound nested.sum? := leftAssoc hP (h.product? hP) (hP.opOf? (by decide))
  have hshift : P ifFound nested.shift? := leftAssoc hP hsum hP.shiftOp?
  have hbitAnd : P ifFound nested.bitAnd? := leftAssoc hP hshift (hP.opOf? (by decide))
  have hbitXor : P ifFound nested.bitXor? := leftAssoc hP hbitAnd (hP.opOf? (by decide))
  exact leftAssoc hP hbitXor (hP.opOf? (by decide))

theorem memberTarget : P always nested.memberTarget := by
  have hask : P never (ask fun cursor =>
      cursor.sees "(" && (cursor.seesAt 1 "SELECT" || cursor.seesAt 1 "WITH")) := by
    refine hP.asks (Cursor.fitsLook "(")
      (fun next => Cursor.fitsLook "SELECT" next || Cursor.fitsLook "WITH" next) (by decide) ?_
    intro cursor
    rw [← cursor.seesAt_eq_fitsLook, ← cursor.seesAt_eq_fitsLook, ← cursor.seesAt_eq_fitsLook, Cursor.sees]
  refine hP.skipAll _ (by decide) (hP.first (h.closedExpr hP) fun _ => hP.give _) ?_
  refine hP.last hask fun isQuery => hP.expect "(" (by decide) ?_
  refine hP.ite (hP.first (h.closedQuery hP) fun _ => hP.give _) ?_
  exact hP.first (hP.commaSeparated (h.expr hP)) fun _ => hP.expect ")" (by decide) (hP.give _)

theorem comparison? : P ifFound nested.comparison? := by
  have hoperand : P always (require "an expression" nested.bitOr?) := hP.require (h.bitOr? hP) _
  refine hP.found (hP.opOf? (by decide)) (fun op => hP.first hoperand fun _ => hP.give _) ?_
  refine hP.skip "IS" (by decide)
    (hP.both (hP.isThere "NOT" (by decide)) fun _ => hP.first hP.isTest fun _ => hP.give _) ?_
  refine hP.last hP.negated fun negated => ?_
  refine hP.skip "LIKE" (by decide) (hP.first hoperand fun _ => hP.give _) ?_
  refine hP.skip "IN" (by decide) (hP.first (h.memberTarget hP) fun _ => hP.give _) ?_
  refine hP.skip "BETWEEN" (by decide)
    (hP.first hoperand fun low => hP.expect "AND" (by decide) ?_) hP.nothing
  exact hP.first hoperand fun _ => hP.give _

theorem not? : P ifFound nested.not? := by
  have hcompared : P ifFound nested.compared? :=
    hP.found (h.bitOr? hP) (fun _ => hP.both (hP.many (h.comparison? hP)) fun _ => hP.give _) hP.nothing
  exact hP.skip "NOT" (by decide) (hP.first h.notOperand fun _ => hP.give _) hcompared

theorem or? : P ifFound nested.or? :=
  leftAssoc hP (leftAssoc hP (h.not? hP) (hP.opOf? (by decide))) (hP.opOf? (by decide))

end Operators

section Queries

omit h in
theorem listAfter {α : Type} (keyword : String)
    (hkeyword : Cursor.fitsLook keyword (some Cursor.semicolon) = false)
    (hbreaks : keyword ∉ Cursor.breaks) {item : Rule α} (hitem : P always item) :
    P never (Grammar.listAfter keyword item) := by
  have hsees (cursor : Cursor) :
      cursor.seesAll [keyword, "("] = (cursor.sees keyword && cursor.seesAt 1 "(") := by
    rw [Cursor.seesAll, Cursor.seesAllAt, Cursor.seesAllAt, Cursor.seesAllAt, Bool.and_true, Cursor.sees]
  have hlist : Grammar.listAfter keyword item =
      (ask (fun cursor : Cursor => cursor.seesAll [keyword, "("]) >>=
      fun isList => if isList = true then discard bump >>= fun _ => parenthesized item else return []) := rfl
  have hask : P never (ask fun cursor => cursor.seesAll [keyword, "("]) := by
    refine hP.asks (Cursor.fitsLook keyword) (Cursor.fitsLook "(") ⟨rfl, hkeyword, rfl⟩ ?_
    intro cursor
    rw [← cursor.seesAt_eq_fitsLook, ← cursor.seesAt_eq_fitsLook, hsees, Cursor.sees]
  rw [hlist, IsClosed.bump_eq_expect fun cursor h => (Bool.and_eq_true_iff.mp (hsees cursor ▸ h)).1]
  exact hP.both hask fun _ =>
    hP.ite (hP.expect keyword hbreaks (hP.any (hP.parenthesized hitem))) (hP.give [])

theorem commonTables? : P ifFound nested.commonTables? := by
  have htable : P ifFound nested.commonTable? := by
    refine hP.found hP.identifier?
      (fun name => hP.expect "AS" (by decide) (hP.expect "(" (by decide) ?_)) hP.nothing
    exact hP.first (h.closedQuery hP) fun _ => hP.give _
  refine hP.skip "WITH" (by decide)
    (hP.both (hP.isThere "RECURSIVE" (by decide)) fun isRecursive => ?_) hP.nothing
  exact hP.first (hP.commaSeparated (hP.require htable _)) fun _ => hP.give _

theorem wildcard? : P ifFound nested.wildcard? := by
  have hstar : P ifFound star? := by
    refine hP.word "*" (by decide) _ (hP.found hP.qualifiedName? (fun name => ?_) hP.nothing)
    exact hP.both (hP.areThere _ (by decide)) fun _ => hP.give _
  have hreplacement : P always nested.replacement :=
    hP.first (h.expr hP) fun _ => hP.expect "AS" (by decide) (hP.first hP.identifier fun _ => hP.give _)
  refine hP.found hstar
    (fun qualifier => hP.both (listAfter hP "EXCEPT" (by decide) (by decide) hP.identifier) fun _ => ?_)
    hP.nothing
  exact hP.both (listAfter hP "REPLACE" (by decide) (by decide) hreplacement) fun _ => hP.give _

theorem selectItem? : P ifFound nested.selectItem? := by
  refine hP.found (hP.attempt (h.wildcard? hP)) (fun _ => hP.give _) ?_
  exact hP.found h.expr? (fun _ => hP.both hP.aliasName? fun _ => hP.give _) hP.nothing

theorem selectItem : P always nested.selectItem :=
  hP.require (h.selectItem? hP) _

theorem selectItems : P always nested.selectItems := by
  -- The end of the tokens and a semicolon both end the list.
  have hends : P never (ask fun cursor => cursor.atEnd || cursor.seesAny [")", ";", "FROM"]) := by
    have hlook : ∀ cursor : Cursor, (cursor.atEnd || cursor.seesAny [")", ";", "FROM"]) =
        ((cursor.look? 0).isNone || [")", ";", "FROM"].any (Cursor.fitsLook · (cursor.look? 0))) := by
      intro cursor
      rw [← cursor.seesAnyAt_eq_fitsLook, cursor.atEnd_eq_look?]
      rfl
    apply hP.ask
      (Cursor.isLook_of_looks
        (fun look _ => look.isNone || [")", ";", "FROM"].any (Cursor.fitsLook · look)) hlook)
    exact Cursor.isWithin_of_looks
      (fun look _ => look.isNone || [")", ";", "FROM"].any (Cursor.fitsLook · look)) hlook
      (fun _ => rfl) fun _ => rfl
  have hrest : P ifFound (do
      if ← skip "," then
        if ← ask fun cursor => cursor.atEnd || cursor.seesAny [")", ";", "FROM"] then return none
        return some (← nested.selectItem)
      else return none) := by
    refine hP.skip "," (by decide) (hP.both hends fun _ => hP.ite (hP.give none) ?_) hP.nothing
    exact hP.first (h.selectItem hP) fun _ => hP.give _
  exact hP.first (h.selectItem hP) fun _ => hP.both (hP.many hrest) fun _ => hP.give _

theorem tableFactor? : P ifFound nested.tableFactor? := by
  have hunnested : P always nested.unnested := by
    apply hP.first (h.closedExpr hP)
    intro array
    apply hP.both hP.aliasName?
    intro aliasName
    refine hP.skipAll _ (by decide) (hP.both (hP.change hP.aliasName? _) fun _ => hP.give _) ?_
    exact hP.both (hP.give none) fun _ => hP.give _
  refine hP.skipAll _ (by decide) (hP.first hunnested fun _ => hP.give _) ?_
  refine hP.found (h.parenQuery? hP) (fun query => hP.both hP.aliasName? fun _ => hP.give _) ?_
  exact hP.found hP.qualifiedName? (fun name => hP.both hP.aliasName? fun _ => hP.give _) hP.nothing

omit h in
theorem joinKind? : P ifFound Grammar.joinKind? := by
  have hword : P never joinWord? :=
    hP.word "CROSS" (by decide) _ <| hP.word "INNER" (by decide) _ <|
      hP.word "LEFT" (by decide) _ <| hP.word "RIGHT" (by decide) _ <|
      hP.word "FULL" (by decide) _ <|
        hP.both (hP.sees "JOIN" (by decide)) fun _ => hP.ite (hP.give _) (hP.give none)
  refine hP.word "," (by decide) _ (hP.last hword fun kind => ?_)
  cases kind with
  | none => exact hP.nothing
  | some kind =>
    have hjoin : P ifFound (do discard <| expect "JOIN"; return some kind) :=
      hP.expect "JOIN" (by decide) (hP.give _)
    have houter : P never (discard (skip "OUTER")) := by
      rw [discard_eq_bind]
      exact hP.both (hP.isThere "OUTER" (by decide)) fun _ => hP.give ()
    exact hP.ite (hP.last houter fun _ => hjoin) hjoin

theorem tableExpr? : P ifFound nested.tableExpr? := by
  have hcondition : P never nested.joinCondition? := by
    refine hP.skip "ON" (by decide) (hP.first (h.expr hP) fun _ => hP.give _) ?_
    exact hP.skip "USING" (by decide)
      (hP.first (hP.parenthesized hP.identifier) fun _ => hP.give _) (hP.give none)
  have htail : P ifFound nested.joinTail? := by
    refine hP.found (joinKind? hP) (fun kind => ?_) hP.nothing
    apply hP.first (hP.require (h.tableFactor? hP) _)
    intro right
    exact hP.ite (hP.both hcondition fun _ => hP.give _) (hP.both (hP.give none) fun _ => hP.give _)
  exact hP.found (h.tableFactor? hP) (fun _ => hP.both (hP.many htail) fun _ => hP.give _) hP.nothing

theorem select? : P ifFound nested.select? := by
  have hshape : P never selectAs? :=
    hP.skipAll _ (by decide) (hP.give _) (hP.skipAll _ (by decide) (hP.give _) (hP.give none))
  have hgroupBy : P never nested.groupBy :=
    hP.skipAll _ (by decide) (hP.any (hP.commaSeparated (h.expr hP))) (hP.give [])
  refine hP.skip "SELECT" (by decide)
    (hP.both (hP.isThere "DISTINCT" (by decide)) fun distinct => ?_) hP.nothing
  apply hP.both hshape
  intro shape
  apply hP.first (h.selectItems hP)
  intro items
  have hrest (source : Option TableExpr) : P never (do
      let filter ← nested.exprAfter? "WHERE"
      let groupBy ← nested.groupBy
      let having ← nested.exprAfter? "HAVING"
      let qualify ← nested.exprAfter? "QUALIFY"
      return some ({ distinct, shape, items, source, filter, groupBy, having, qualify } : Select)) := by
    apply hP.both (h.exprAfter? hP "WHERE" (by decide))
    intro filter
    apply hP.both hgroupBy
    intro groupBy
    apply hP.both (h.exprAfter? hP "HAVING" (by decide))
    intro having
    exact hP.both (h.exprAfter? hP "QUALIFY" (by decide)) fun _ => hP.give _
  have hsource := hP.change (hP.require (h.tableExpr? hP) "a table") some
  exact hP.skip "FROM" (by decide) (hP.both hsource hrest) (hP.both (hP.give none) hrest)

theorem setOperand? : P ifFound nested.setOperand? := by
  refine hP.found (h.select? hP) (fun _ => hP.give _) ?_
  exact hP.found (h.parenQuery? hP) (fun _ => hP.give _) hP.nothing

theorem setExpr? : P ifFound nested.setExpr? := by
  have hop : P ifFound setOperator? :=
    hP.word "UNION" (by decide) _ <| hP.word "INTERSECT" (by decide) _ <|
      hP.word "EXCEPT" (by decide) _ hP.nothing
  have hquantifier : P never setQuantifier? :=
    hP.word "ALL" (by decide) _ <| hP.word "DISTINCT" (by decide) _ (hP.give none)
  have htail : P ifFound nested.setTail? := by
    refine hP.found hop (fun op => hP.both hquantifier fun quantifier => ?_) hP.nothing
    exact hP.first (hP.require (h.setOperand? hP) _) fun _ => hP.give _
  exact hP.found (h.setOperand? hP) (fun _ => hP.both (hP.many htail) fun _ => hP.give _) hP.nothing

theorem queryBody? : P ifFound nested.queryBody? := by
  refine hP.last (h.commonTables? hP) fun common => ?_
  refine hP.found (h.setExpr? hP) (fun body => hP.both (h.rowOrder? hP) fun _ => hP.give _) ?_
  exact hP.ite (hP.fail _) hP.nothing

end Queries

section Statements

omit h in
theorem createHead? (object : String) (hobject : object ∉ Cursor.breaks) :
    P ifFound (Grammar.createHead? object) := by
  have htemporary : P never temporary? :=
    hP.word "TEMP" (by decide) _ <| hP.word "TEMPORARY" (by decide) _ (hP.give none)
  refine hP.skip "CREATE" (by decide) (hP.both (hP.areThere _ (by decide)) fun orReplace => ?_) hP.nothing
  exact hP.both htemporary fun _ => hP.both (hP.isThere object hobject) fun _ => hP.give _

theorem declaration : P always nested.declaration :=
  hP.require (hP.declarationWith? h.type?) _

theorem options : P never nested.options := by
  have hitem : P always nested.optionItem :=
    hP.first hP.identifier fun _ => hP.expect "=" (by decide) (hP.first (h.expr hP) fun _ => hP.give _)
  exact hP.skip "OPTIONS" (by decide) (hP.any (hP.parenthesized hitem)) (hP.give [])

theorem createFunction? : P ifFound nested.createFunction? := by
  have hforeign : P always nested.foreignBody := by
    refine hP.first hP.identifier fun language => hP.expect "AS" (by decide) ?_
    refine hP.kindIs .string (by decide) (hP.first hP.constant fun _ => ?_) (hP.fail _)
    exact hP.both (h.options hP) fun _ => hP.give _
  have hbody : P always nested.functionBody :=
    hP.skip "LANGUAGE" (by decide) (hP.any hforeign)
      (hP.expect "AS" (by decide) (hP.first (h.expr hP) fun _ => hP.give _))
  refine hP.found (createHead? hP "FUNCTION" (by decide)) (fun head => ?_) hP.nothing
  apply hP.first hP.qualifiedName
  intro name
  apply hP.first (hP.parenthesized (h.declaration hP))
  intro params
  refine hP.skip "RETURNS" (by decide) (hP.both (hP.change (h.type hP) _) fun _ => ?_) ?_
  · exact hP.first hbody fun _ => hP.give _
  · exact hP.both (hP.give none) fun _ => hP.first hbody fun _ => hP.give _

theorem createTable? : P ifFound nested.createTable? := by
  refine hP.found (createHead? hP "TABLE" (by decide)) (fun head => ?_) hP.nothing
  apply hP.both (hP.areThere _ (by decide))
  intro ifNotExists
  apply hP.first hP.qualifiedName
  intro name
  have hrest (columns : List Declaration) : P never (do
      let options ← nested.options
      let query ← if ← skip "AS" then some <$> nested.query else pure none
      return some (Action.createTable
        { orReplace := head.1, temporary := head.2, ifNotExists, name, columns, options, query })) := by
    apply hP.both (h.options hP)
    intro options
    refine hP.skip "AS" (by decide) (hP.both (hP.change (h.query hP) _) fun _ => hP.give _) ?_
    exact hP.both (hP.give none) fun _ => hP.give _
  refine hP.both (hP.sees "(" (by decide)) fun _ => hP.ite ?_ (hP.both (hP.give []) hrest)
  exact hP.first (hP.parenthesized (h.declaration hP)) hrest

theorem createView? : P ifFound nested.createView? := by
  refine hP.found (createHead? hP "VIEW" (by decide)) ?_ hP.nothing
  rintro ⟨orReplace, _ | word⟩
  · apply hP.both (hP.areThere _ (by decide))
    intro ifNotExists
    apply hP.first hP.qualifiedName
    intro name
    exact hP.both (h.options hP) fun _ =>
      hP.expect "AS" (by decide) (hP.first (h.query hP) fun _ => hP.give _)
  · exact hP.give none

theorem insert? : P ifFound nested.insert? := by
  have hask : P never (ask fun cursor => cursor.sees "(" && !cursor.seesAnyAt 1 queryStarts) := by
    refine hP.asks (Cursor.fitsLook "(") (fun next => !queryStarts.any (Cursor.fitsLook · next))
      (by decide) ?_
    intro cursor
    rw [← cursor.seesAnyAt_eq_fitsLook, ← cursor.seesAt_eq_fitsLook, Cursor.sees]
  have hcolumns : P never insertColumns :=
    hP.both hask fun _ => hP.ite (hP.any (hP.parenthesized hP.identifier)) (hP.give [])
  have hsource : P always nested.insertSource := by
    refine hP.skip "VALUES" (by decide) ?_ (hP.first (h.query hP) fun _ => hP.give _)
    exact hP.first (hP.commaSeparated (hP.parenthesized (h.expr hP))) fun _ => hP.give _
  have hinto : P never (discard (skip "INTO")) := by
    rw [discard_eq_bind]
    exact hP.both (hP.isThere "INTO" (by decide)) fun _ => hP.give ()
  refine hP.skip "INSERT" (by decide)
    (hP.both hinto fun _ => hP.first hP.qualifiedName fun table => ?_) hP.nothing
  exact hP.both hcolumns fun _ => hP.first hsource fun _ => hP.give _

theorem action? : P ifFound nested.action? := by
  apply hP.firstOf
  simp only [List.forall_mem_cons, List.not_mem_nil, IsEmpty.forall_iff, implies_true, and_true]
  exact ⟨h.createFunction? hP, h.createTable? hP, h.createView? hP, h.insert? hP,
    hP.mapFound (h.queryHere? hP) _⟩

end Statements

end Satisfies

/-- A closed property holds of the rules for any number of levels. -/
theorem satisfies_nestedAt {P : ∀ {α : Type}, (α → Prop) → Rule α → Prop} (hP : IsClosed P) (levels : Nat) :
    (nestedAt levels).Satisfies P := by
  induction levels with
  | zero =>
    have hdeep {α : Type} {takes : α → Prop} : P takes (Rule.tooDeep : Rule α) :=
      hP.weaken hP.tooDeep fun _ _ => trivial
    exact ⟨hdeep, hdeep, hdeep, hdeep, hP.typeAt? 0, hP.fieldsAt 0⟩
  | succ levels ih =>
    exact ⟨hP.descend (ih.or? hP), hP.descend (hP.require (ih.not? hP) _),
      hP.descend (hP.require (ih.unary? hP) _), hP.descend (hP.attempt (ih.queryBody? hP)),
      hP.typeAt? _, hP.fieldsAt _⟩

end SqlLayout.Grammar.Nested
