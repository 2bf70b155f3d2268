import SqlLayout.Proofs.Grammar.Agreement
import SqlLayout.Proofs.Grammar.Declining

/-!
# Coming back to a Parenthesis

A parenthesis may be tried as the start of a query and then be read again as that of an expression, and
so may the parentheses directly inside it. Whatever was kept for them is what they would give again: the
outcome of each is known, one level deeper for each, until one of them is not followed by the start of a
query. What was kept beyond a query that did match lies after a word that goes on with a query, where no
expression goes on.
-/

namespace SqlLayout

open Rule

namespace Cursor

/-- The words that go on with a query after an operand of a set operation. -/
def continuations : List String :=
  ["UNION", "INTERSECT", "EXCEPT", "ORDER", "LIMIT"]

/-- A word is next that goes on with a query, but with no expression. -/
def IsBlocked (cursor : Cursor) : Prop :=
  cursor.seesAny continuations = true

/-- Nothing is kept ahead, or nothing ahead will be read by an expression. -/
def IsSettled (cursor : Cursor) : Prop :=
  cursor.IsFresh ∨ cursor.IsBlocked

theorem IsBlocked.sees_eq_false {cursor : Cursor} (h : cursor.IsBlocked) {pattern : String}
    (hpattern : ∀ word ∈ continuations, excludes word pattern = true) :
    cursor.sees pattern = false := by
  obtain ⟨word, hword, hsees⟩ := List.any_eq_true.mp h
  exact seesAt_eq_false hsees (hpattern word hword)

end Cursor

namespace Grammar

section Declining

variable {cursor : Cursor}

theorem opOf?_declines_of_isBlocked (h : cursor.IsBlocked) {ops : List (String × BinaryOp)}
    (hops : ∀ op ∈ ops, ∀ word ∈ Cursor.continuations, Cursor.excludes word op.1 = true) :
    (opOf? ops).Declines cursor :=
  opOf?_declines fun op hop => h.sees_eq_false (hops op hop)

theorem shiftOp?_declines_of_isBlocked (h : cursor.IsBlocked) : shiftOp?.Declines cursor := by
  apply shiftOp?_declines (h.sees_eq_false (by decide))
  rw [Cursor.seesJoined, Cursor.seesAll_eq_false (h.sees_eq_false (by decide)), Bool.false_and]

namespace Nested

variable (nested : Nested)

theorem window?_declines_of_isBlocked (h : cursor.IsBlocked) : nested.window?.Declines cursor :=
  window?_declines (h.sees_eq_false (by decide))

theorem postfix?_declines_of_isBlocked (h : cursor.IsBlocked) : nested.postfix?.Declines cursor :=
  postfix?_declines (h.sees_eq_false (by decide)) (h.sees_eq_false (by decide))

theorem comparison?_declines_of_isBlocked (h : cursor.IsBlocked) :
    nested.comparison?.Declines cursor := by
  have hops : ∀ op ∈ comparisonOps, ∀ word ∈ Cursor.continuations, Cursor.excludes word op.1 = true := by
    decide
  have hwords : ∀ other ∈ comparisonWords, ∀ word ∈ Cursor.continuations,
      Cursor.excludes word other = true := by
    decide
  exact comparison?_declines (fun op hop => h.sees_eq_false (hops op hop))
    fun word hword => h.sees_eq_false (hwords word hword)

end Nested

end Declining

section QueryStarts

variable {cursor : Cursor}

theorem sees_eq_false_of_start (h : cursor.seesAny queryStarts = true) {pattern : String}
    (hpattern : ∀ word ∈ queryStarts, Cursor.excludes word pattern = true) :
    cursor.sees pattern = false := by
  obtain ⟨word, hword, hsees⟩ := List.any_eq_true.mp h
  exact Cursor.seesAt_eq_false hsees (hpattern word hword)

theorem seesAny_queryStarts_of_word (h : cursor.seesAny ["SELECT", "WITH"] = true) :
    cursor.seesAny queryStarts = true := by
  obtain ⟨word, hword, hsees⟩ := List.any_eq_true.mp h
  have hsub : ["SELECT", "WITH"] ⊆ queryStarts := by decide
  exact List.any_eq_true.mpr ⟨word, hsub hword, hsees⟩

theorem skip_of_start (h : cursor.seesAny queryStarts = true) (pattern : String)
    (hpattern : ∀ word ∈ queryStarts, Cursor.excludes word pattern = true) :
    skip pattern cursor = .ok false cursor :=
  skip_of_not (sees_eq_false_of_start h hpattern)

theorem skipAll_of_start (h : cursor.seesAny queryStarts = true) (pattern : String)
    (patterns : List String)
    (hpattern : ∀ word ∈ queryStarts, Cursor.excludes word pattern = true) :
    skipAll (pattern :: patterns) cursor = .ok false cursor :=
  skipAll_of_not (sees_eq_false_of_start h hpattern)

theorem constant?_declines_of_start (h : cursor.seesAny queryStarts = true) :
    constant?.Declines cursor := by
  obtain ⟨word, -, hsees⟩ := List.any_eq_true.mp h
  obtain ⟨kind, hkind, hclass⟩ := Cursor.kind?_of_seesAt hsees
  have hexcludes : ∀ other ∈ ["TRUE", "FALSE", "NULL"], ∀ word ∈ queryStarts,
      Cursor.excludes word other = true := by
    decide
  exact constant?_declines hkind hclass fun word hword => sees_eq_false_of_start h (hexcludes word hword)

namespace Nested

variable {nested : Nested}

/-- What starts a query starts no primary expression but a form of its own or a name. -/
theorem firstOf_primaries_of_start (h : cursor.seesAny queryStarts = true)
    (rules : List (Rule (Option Expr))) :
    firstOf ((Option.map Expr.constant <$> constant?) :: nested.array? :: nested.arrayAgg? ::
      nested.stringAgg? :: nested.arrayQuery? :: rules) cursor = firstOf rules cursor := by
  have harrayWord : cursor.sees "ARRAY" = false := sees_eq_false_of_start h (by decide)
  have hopen : cursor.sees "[" = false := sees_eq_false_of_start h (by decide)
  rw [((constant?_declines_of_start h).map _).firstOf_cons, (array?_declines harrayWord hopen).firstOf_cons,
    (arrayAgg?_declines (skipAll_of_start h "ARRAY_AGG" _ (by decide))).firstOf_cons,
    (stringAgg?_declines (skipAll_of_start h "STRING_AGG" _ (by decide))
      (skipAll_of_start h "SPLIT" _ (by decide))).firstOf_cons,
    (arrayQuery?_declines harrayWord).firstOf_cons]

theorem special?_declines_of_word (h : cursor.seesAny ["SELECT", "WITH"] = true)
    (unary? : Rule (Option Expr)) : (nested.special? unary?).Declines cursor := by
  have hskip {pattern : String}
      (hpattern : ∀ word ∈ ["SELECT", "WITH"], Cursor.excludes word pattern = true) :
      cursor.sees pattern = false := by
    obtain ⟨word, hword, hsees⟩ := List.any_eq_true.mp h
    exact Cursor.seesAt_eq_false hsees (hpattern word hword)
  have hwords : ∀ other ∈ ["CASE", "STRUCT", "INTERVAL"], ∀ word ∈ ["SELECT", "WITH"],
      Cursor.excludes word other = true := by
    decide
  have hcalls : ∀ other ∈ ["CAST", "SAFE_CAST", "EXTRACT", "EXISTS"], ∀ word ∈ ["SELECT", "WITH"],
      Cursor.excludes word other = true := by
    decide
  exact special?_declines unary? (hskip (by decide)) (fun word hword => hskip (hwords word hword))
    fun _ word hword => hskip (hcalls word hword)

theorem nameExpr?_declines_of_word (h : cursor.seesAny ["SELECT", "WITH"] = true) :
    nameExpr?.Declines cursor := by
  obtain ⟨word, hword, hsees⟩ := List.any_eq_true.mp h
  unfold Cursor.seesAt at hsees
  cases htoken : cursor.token? 0 with
  | none => simp [htoken] at hsees
  | some token =>
    rw [htoken] at hsees
    have hfits : Cursor.fits word token = true := hsees
    have hwords : ∀ word ∈ ["SELECT", "WITH"], Cursor.isWordPattern word = true ∧
        Keyword.isReserved word = true ∧ Keyword.isCallable word = false := by decide
    have hpattern := hwords word hword
    unfold Cursor.fits at hfits
    rw [if_pos hpattern.1, Bool.and_eq_true, decide_eq_true_eq] at hfits
    have hreserved := (Keyword.isReserved_congr hfits.2).trans hpattern.2.1
    have hcallable := (Keyword.isCallable_congr hfits.2).trans hpattern.2.2
    have hname : identifier?.Declines cursor := by
      unfold Declines identifier?
      simp [htoken, hfits.1, hreserved]
    have hqualified : qualifiedName?.Declines cursor := bind_of_ok hname
    unfold Declines nameExpr?
    simp only [htoken, hcallable, Bool.and_false, Bool.false_and]
    exact hqualified.map Expr.name

end Nested

end QueryStarts

section Known

/-- The parenthesis at the cursor starts no query; what follows it is known as well. -/
structure IsRefused (levels : Nat) (inside : Cursor → Prop) (cursor : Cursor) : Prop where
  sees_eq : cursor.sees "(" = true
  kept : cursor.outcome? = some none
  plain : (nestedAt levels).parenQuery? cursor.forgetful = .ok none cursor.forgetful
  next : (cursor.advance 1).IsFresh ∨ inside { cursor.advance 1 with depth := cursor.depth + 1 }

/-- The parenthesis at the cursor starts the query that is kept for it. -/
structure IsMatched (levels : Nat) (query : Query) (stop : Mark) (cursor : Cursor) : Prop where
  sees_eq : cursor.sees "(" = true
  kept : cursor.outcome? = some (some (query, stop))
  plain : (nestedAt levels).parenQuery? cursor.forgetful =
    .ok (some query) (cursor.reset stop).forgetful
  pos_le : cursor.pos ≤ stop.pos
  settled : (cursor.reset stop).IsSettled

/-- What is kept at the cursor and ahead of it is what would be read again. -/
inductive KnownBy (levels : Nat) (inside : Cursor → Prop) (cursor : Cursor) : Prop
  | fresh (h : cursor.IsFresh)
  | word (h : cursor.seesAny ["SELECT", "WITH"] = true)
  | refused (h : IsRefused levels inside cursor)
  | matched {query : Query} {stop : Mark} (h : IsMatched levels query stop cursor)

/-- What is kept at the cursor and ahead of it is what would be read again with some levels left. -/
def Known : Nat → Cursor → Prop
  | 0 => KnownBy 0 fun _ => False
  | levels + 1 => KnownBy (levels + 1) (Known levels)

/-- What is known one level deeper. -/
def KnownInside : Nat → Cursor → Prop
  | 0 => fun _ => False
  | levels + 1 => Known levels

theorem known_eq (levels : Nat) : Known levels = KnownBy levels (KnownInside levels) := by
  cases levels <;> rfl

variable {levels : Nat} {inside : Cursor → Prop} {cursor : Cursor}
  {outcomes : List (Nat × Option (Query × Mark))}

theorem IsFresh.congr {other : Cursor} (h : other.IsFresh)
    (hlookup : ∀ pos, other.pos ≤ pos → outcomes.lookup pos = other.outcomes.lookup pos) :
    Cursor.IsFresh { other with outcomes } :=
  ⟨h.keeps_eq, fun pos hpos => (hlookup pos hpos).trans (h.lookup_eq pos hpos)⟩

theorem KnownBy.congr (h : KnownBy levels inside cursor)
    (hlookup : ∀ pos, cursor.pos ≤ pos → outcomes.lookup pos = cursor.outcomes.lookup pos)
    (hinside : inside { cursor.advance 1 with depth := cursor.depth + 1 } →
      inside { cursor.advance 1 with depth := cursor.depth + 1, outcomes }) :
    KnownBy levels inside { cursor with outcomes } := by
  have hkept : Cursor.outcome? { cursor with outcomes } = cursor.outcome? :=
    hlookup cursor.pos (Nat.le_refl _)
  cases h with
  | fresh h => exact .fresh (IsFresh.congr h hlookup)
  | word h => exact .word h
  | refused h =>
    refine .refused ⟨h.sees_eq, hkept.trans h.kept, h.plain, ?_⟩
    apply h.next.imp _ hinside
    intro hfresh
    exact IsFresh.congr hfresh fun pos hpos => hlookup pos (Nat.le_trans (Nat.le_add_right _ _) hpos)
  | matched h =>
    refine .matched ⟨h.sees_eq, hkept.trans h.kept, h.plain, h.pos_le, ?_⟩
    apply h.settled.imp _ id
    intro hfresh
    exact IsFresh.congr hfresh fun pos hpos => hlookup pos (Nat.le_trans h.pos_le hpos)

/-- Whatever is kept for places behind the cursor does not matter. -/
theorem Known.congr (h : Known levels cursor)
    (hlookup : ∀ pos, cursor.pos ≤ pos → outcomes.lookup pos = cursor.outcomes.lookup pos) :
    Known levels { cursor with outcomes } := by
  induction levels generalizing cursor with
  | zero => exact KnownBy.congr h hlookup id
  | succ levels ih =>
    apply KnownBy.congr h hlookup
    intro hinside
    exact ih hinside fun pos hpos => hlookup pos (Nat.le_trans (Nat.le_add_right _ _) hpos)

theorem KnownInside.congr (h : KnownInside levels cursor)
    (hlookup : ∀ pos, cursor.pos ≤ pos → outcomes.lookup pos = cursor.outcomes.lookup pos) :
    KnownInside levels { cursor with outcomes } := by
  cases levels with
  | zero => exact h
  | succ levels => exact Known.congr h hlookup

end Known

section Opening

/-- Where a rule matches, it leaves a settled cursor. -/
def OpensAt {α : Type} (rule : Rule (Option α)) (cursor : Cursor) : Prop :=
  rule.AgreesAt cursor fun value after =>
    after.Follows cursor ∧ (value.isSome → after.IsSettled)

/-- Rules that leave a settled cursor wherever they start from one. -/
def IsSteady {α : Type} (rule : Rule α) : Prop :=
  ∀ cursor, cursor.IsSettled →
    rule.AgreesAt cursor fun _ after => after.IsSettled ∧ after.Follows cursor

variable {α β : Type} {rule : Rule (Option α)} {cursor : Cursor}

theorem AgreesAt_of_apply {rule : Rule α} {value : α} {post : α → Cursor → Prop}
    (h : rule cursor = .ok value cursor)
    (hplain : rule cursor.forgetful = .ok value cursor.forgetful) (hpost : post value cursor) :
    rule.AgreesAt cursor post := by
  unfold AgreesAt
  rw [h, hplain]
  exact ⟨rfl, hpost⟩

theorem isSteady_of_declines (h : rule.IsOptional)
    (hblocked : ∀ cursor : Cursor, cursor.IsBlocked → rule.Declines cursor) : IsSteady rule := by
  rintro cursor (hfresh | hblock)
  · exact (h cursor hfresh).mono fun _ _ hafter => ⟨.inl hafter.1, hafter.2.1⟩
  · exact AgreesAt_of_apply (hblocked cursor hblock) (hblocked cursor.forgetful hblock)
      ⟨.inr hblock, .refl cursor⟩

theorem isSteady_many_of_declines (h : rule.IsOptional)
    (hblocked : ∀ cursor : Cursor, cursor.IsBlocked → rule.Declines cursor) :
    IsSteady (many rule) := by
  rintro cursor (hfresh | hblock)
  · exact (h.many cursor hfresh).mono fun _ _ hafter => ⟨.inl hafter.1, hafter.2⟩
  · exact AgreesAt_of_apply (hblocked cursor hblock).many (hblocked cursor.forgetful hblock).many
      ⟨.inr hblock, .refl cursor⟩

theorem OpensAt.of_declines (h : rule.Declines cursor) (hplain : rule.Declines cursor.forgetful) :
    OpensAt rule cursor :=
  AgreesAt_of_apply h hplain ⟨.refl cursor, fun hsome => absurd hsome (by simp)⟩

theorem IsSteady.pure (value : α) : IsSteady (Pure.pure value : Rule α) :=
  fun cursor hsettled => .pure ⟨hsettled, .refl cursor⟩

theorem IsSteady.bind {first : Rule β} {next : β → Rule α} (h : IsSteady first)
    (hnext : ∀ value, IsSteady (next value)) : IsSteady (first >>= next) := by
  intro cursor hsettled
  apply (h cursor hsettled).bind
  intro value after hafter
  exact (hnext value after hafter.1).mono fun _ _ hlast => ⟨hlast.1, hlast.2.trans hafter.2⟩

/-- A match followed by a steady rule. -/
theorem OpensAt.bind {first : Rule (Option β)} {next : Option β → Rule (Option α)}
    (h : OpensAt first cursor) (hsome : ∀ value, IsSteady (next (some value)))
    (hnone : next none = Pure.pure none) : OpensAt (first >>= next) cursor := by
  apply AgreesAt.bind h
  intro value after hafter
  cases value with
  | none =>
    rw [hnone]
    exact .pure ⟨hafter.1, fun hsome => absurd hsome (by simp)⟩
  | some value =>
    apply (hsome value after (hafter.2 rfl)).mono
    intro _ _ hlast
    exact ⟨hlast.2.trans hafter.1, fun _ => hlast.1⟩

theorem opensAt_leftAssoc {operand? : Rule (Option Expr)} {op? : Rule (Option BinaryOp)}
    (hoperand : operand?.IsOptional) (hop : op?.IsQuiet)
    (hblocked : ∀ cursor : Cursor, cursor.IsBlocked → op?.Declines cursor)
    (h : OpensAt operand? cursor) : OpensAt (leftAssoc operand? op?) cursor := by
  apply h.bind
  · intro first
    apply IsSteady.bind _ fun _ => .pure _
    apply isSteady_many_of_declines (Nested.IsTame.isOptional_operatorTail hoperand hop)
    intro other hother
    exact bind_of_ok (hblocked other hother)
  · rfl

namespace Nested

variable {nested : Nested}

theorem opensAt_primary?_of_word (h : cursor.seesAny ["SELECT", "WITH"] = true)
    (unary? : Rule (Option Expr)) : OpensAt (nested.primary? unary?) cursor := by
  have hdeclines {other : Cursor} (hother : other.seesAny ["SELECT", "WITH"] = true) :
      (nested.primary? unary?).Declines other := by
    have hfirst := @firstOf_primaries_of_start other nested (seesAny_queryStarts_of_word hother)
      [nested.special? unary?, nameExpr?]
    rw [(special?_declines_of_word hother unary?).firstOf_cons,
      (nameExpr?_declines_of_word hother).firstOf_cons] at hfirst
    exact bind_of_ok hfirst
  have hplain : cursor.forgetful.seesAny ["SELECT", "WITH"] = true := h
  exact .of_declines (hdeclines h) (hdeclines hplain)

/-- An expression that is no bare name was read, and the cursor after it is settled. -/
structure IsForm (cursor : Cursor) (expr : Expr) (after : Cursor) : Prop where
  follows : after.Follows cursor
  settled : after.IsSettled
  ne_name : ∀ name, expr ≠ .name name

theorem opensAt_primary?_of_paren (h : nested.IsTame) (hsees : cursor.sees "(" = true)
    (hparen : nested.parenExpr.AgreesAt cursor (IsForm cursor))
    (unary? : Rule (Option Expr)) : OpensAt (nested.primary? unary?) cursor := by
  have hspecial : (nested.special? unary?).AgreesAt cursor fun value after =>
      ∃ expr, value = some expr ∧ IsForm cursor expr after := by
    have hread : AgreesAt (do return some (← nested.parenExpr)) cursor fun value after =>
        ∃ expr, value = some expr ∧ IsForm cursor expr after := by
      apply hparen.bind
      intro expr after hafter
      exact .pure ⟨expr, rfl, hafter⟩
    apply hread.of_eq
    · refine (bind_of_ok (sees_apply _ _)).trans ?_
      rw [hsees]
      rfl
    · have hplain : cursor.forgetful.sees "(" = true := hsees
      refine (bind_of_ok (sees_apply _ _)).trans ?_
      rw [hplain]
      rfl
  have hfirst {other : Cursor} (hother : other.sees "(" = true) :
      firstOf [Option.map Expr.constant <$> constant?, nested.array?, nested.arrayAgg?,
        nested.stringAgg?, nested.arrayQuery?, nested.special? unary?, nameExpr?] other =
      firstOf [nested.special? unary?, nameExpr?] other :=
    firstOf_primaries_of_start (List.any_eq_true.mpr ⟨"(", by decide, hother⟩) _
  have hplain : cursor.forgetful.sees "(" = true := hsees
  have hfound : AgreesAt (firstOf [nested.special? unary?, nameExpr?]) cursor fun value after =>
      ∃ expr, value = some expr ∧ IsForm cursor expr after := by
    apply AgreesAt.bind (hspecial.attempt _)
    · rintro _ after ⟨expr, rfl, hafter⟩
      exact .pure ⟨expr, rfl, hafter⟩
    · rintro _ after ⟨expr, rfl, -⟩
      rfl
  apply (hfound.of_eq (hfirst hsees) (hfirst hplain)).bind
  rintro _ after ⟨expr, rfl, hform⟩
  have hwindow : (nested.windowed? expr).AgreesAt after fun value last =>
        last.Follows cursor ∧ (value.isSome → last.IsSettled) := by
    apply AgreesAt.bind (isSteady_of_declines h.window?
      (fun _ => window?_declines_of_isBlocked nested) after hform.settled)
    intro window last hlast
    cases window with
    | none => exact .pure ⟨hlast.2.trans hform.follows, fun _ => hlast.1⟩
    | some window => exact .pure ⟨hlast.2.trans hform.follows, fun _ => hlast.1⟩
  cases expr
  case name name => exact absurd rfl (hform.ne_name name)
  all_goals exact hwindow

/-- Every level of operators goes on from where its first operand stops. -/
theorem opensAt_or? (h : nested.IsTame) (hparen : nested.parenExpr.IsTame)
    (hstart : cursor.seesAny queryStarts = true)
    (hprimary : ∀ unary?, OpensAt (nested.primary? unary?) cursor) : OpensAt nested.or? cursor := by
  have hops (ops : List (String × BinaryOp))
      (hops : ∀ op ∈ ops, ∀ word ∈ Cursor.continuations, Cursor.excludes word op.1 = true)
      (other : Cursor) (hother : other.IsBlocked) : (opOf? ops).Declines other :=
    opOf?_declines_of_isBlocked hother hops
  have hsign {other : Cursor} (hother : other.seesAny queryStarts = true) :
      sign?.Declines other := by
    have hexcludes : ∀ sign ∈ ["-", "+", "~"], ∀ word ∈ queryStarts, Cursor.excludes word sign = true := by
      decide
    exact sign?_declines fun sign hsign => sees_eq_false_of_start hother (hexcludes sign hsign)
  have hoperand (unary? : Rule (Option Expr)) : OpensAt (nested.operand? unary?) cursor := by
    apply (hprimary unary?).bind
    · intro base
      exact (isSteady_many_of_declines h.postfix? fun _ hother =>
        postfix?_declines_of_isBlocked nested hother).bind fun _ => .pure _
    · rfl
  have hupTo (steps : Nat) : OpensAt (nested.unaryUpTo? (steps + 1)) cursor := by
    have hplain : sign?.Declines cursor.forgetful := hsign hstart
    rw [unaryUpTo?]
    exact AgreesAt.bind_known (hsign hstart) hplain (hoperand _)
  have hunary : OpensAt nested.unary? cursor :=
    AgreesAt.of_eq (hupTo cursor.remaining) rfl rfl
  have hunary' := h.unary? hparen
  have hproduct : OpensAt nested.product? cursor :=
    opensAt_leftAssoc hunary' (isQuiet_opOf? _) (hops _ (by decide)) hunary
  have hproduct' : nested.product?.IsOptional := IsTame.isOptional_leftAssoc hunary' (isQuiet_opOf? _)
  have hsum : OpensAt nested.sum? cursor :=
    opensAt_leftAssoc hproduct' (isQuiet_opOf? _) (hops _ (by decide)) hproduct
  have hsum' : nested.sum?.IsOptional := IsTame.isOptional_leftAssoc hproduct' (isQuiet_opOf? _)
  have hshift : OpensAt nested.shift? cursor :=
    opensAt_leftAssoc hsum' isQuiet_shiftOp? (fun _ => shiftOp?_declines_of_isBlocked) hsum
  have hshift' : nested.shift?.IsOptional := IsTame.isOptional_leftAssoc hsum' isQuiet_shiftOp?
  have hbitAnd : OpensAt nested.bitAnd? cursor :=
    opensAt_leftAssoc hshift' (isQuiet_opOf? _) (hops _ (by decide)) hshift
  have hbitAnd' : nested.bitAnd?.IsOptional := IsTame.isOptional_leftAssoc hshift' (isQuiet_opOf? _)
  have hbitXor : OpensAt nested.bitXor? cursor :=
    opensAt_leftAssoc hbitAnd' (isQuiet_opOf? _) (hops _ (by decide)) hbitAnd
  have hbitXor' : nested.bitXor?.IsOptional := IsTame.isOptional_leftAssoc hbitAnd' (isQuiet_opOf? _)
  have hbitOr : OpensAt nested.bitOr? cursor :=
    opensAt_leftAssoc hbitXor' (isQuiet_opOf? _) (hops _ (by decide)) hbitXor
  have hcompared : OpensAt nested.compared? cursor := by
    apply hbitOr.bind
    · intro left
      exact (isSteady_many_of_declines (h.comparison? hparen) fun _ hother =>
        comparison?_declines_of_isBlocked nested hother).bind fun _ => .pure _
    · rfl
  have hnot : OpensAt nested.not? cursor := by
    have hplain : cursor.forgetful.seesAny queryStarts = true := hstart
    exact AgreesAt.bind_known (skip_of_start hstart "NOT" (by decide))
      (skip_of_start hplain "NOT" (by decide)) hcompared
  have hnot' := h.not? hparen
  have hand : OpensAt nested.and? cursor :=
    opensAt_leftAssoc hnot' (isQuiet_opOf? _) (hops _ (by decide)) hnot
  have hand' : nested.and?.IsOptional := IsTame.isOptional_leftAssoc hnot' (isQuiet_opOf? _)
  exact opensAt_leftAssoc hand' (isQuiet_opOf? _) (hops _ (by decide)) hand

end Nested

end Opening

section Levels

/-- What agreement means for the rules with a number of levels left. -/
structure Agreement (levels : Nat) : Prop where
  tame : (nestedAt levels).IsTame
  query? : ∀ cursor : Cursor, cursor.IsFresh → cursor.seesAny queryStarts = true →
    (nestedAt levels).query?.AgreesAt cursor fun value after =>
      after.Follows cursor ∧ (value.isSome → after.IsFresh) ∧
        KnownInside levels { cursor with depth := cursor.depth + 1, outcomes := after.outcomes }
  expr? : ∀ cursor : Cursor, KnownInside levels { cursor with depth := cursor.depth + 1 } →
    OpensAt (nestedAt levels).expr? cursor

/-- What becomes of a parenthesised query that is tried for the first time. -/
inductive IsTried (levels : Nat) (cursor : Cursor) : Option Query → Cursor → Prop
  | elsewhere (hsees : cursor.sees "(" = false) : IsTried levels cursor none cursor
  | refused {after : Cursor} (hafter : after = { cursor with outcomes := after.outcomes })
    (hfollows : after.Follows cursor)
    (h : IsRefused levels (KnownInside levels) after) : IsTried levels cursor none after
  | matched {query : Query} {after : Cursor} (hfollows : after.Follows cursor)
    (hfresh : after.IsFresh) (hpos : cursor.pos < after.pos)
    (hkept : after.outcomes.lookup cursor.pos = some (some (query, after.mark))) :
    IsTried levels cursor (some query) after

theorem IsTried.follows {levels : Nat} {cursor after : Cursor} {value : Option Query}
    (h : IsTried levels cursor value after) : after.Follows cursor := by
  cases h with
  | elsewhere hsees => exact .refl cursor
  | refused hafter hfollows h => exact hfollows
  | matched hfollows hfresh hpos hkept => exact hfollows

variable {levels : Nat} {cursor : Cursor}

theorem Agreement.enclosedQuery? (h : Agreement levels) (hfresh : cursor.IsFresh)
    (hsees : cursor.sees "(" = true) :
    (nestedAt levels).enclosedQuery?.AgreesAt cursor fun value after =>
      after.Follows (cursor.advance 1) ∧ (value.isSome → after.IsFresh) ∧
        (Cursor.IsFresh { cursor.advance 1 with outcomes := after.outcomes } ∨
          KnownInside levels { cursor.advance 1 with
            depth := cursor.depth + 1, outcomes := after.outcomes }) := by
  have hnext : (cursor.advance 1).IsFresh := (cursor.passes_advance 1).isFresh hfresh
  have hplain : cursor.forgetful.sees "(" = true := hsees
  apply AgreesAt.bind_known (discard_bump_of_sees hsees) (discard_bump_of_sees hplain)
  unfold Nested.queryHere?
  rw [bind_assoc]
  apply AgreesAt.bind_known (ask_apply _ _) (ask_apply _ _)
  by_cases hstart : (cursor.advance 1).seesAny queryStarts = true
  · rw [if_pos hstart]
    apply (h.query? _ hnext hstart).bind
    rintro found after ⟨hfollows, hmatch, hinside⟩
    cases found with
    | none => exact .pure ⟨hfollows, fun hsome => absurd hsome (by simp), .inr hinside⟩
    | some query =>
      apply (isQuiet_skip ")" after).bind
      intro isClosed last hlast
      refine .pure ⟨hlast.follows.trans hfollows, fun _ => hlast.isFresh (hmatch rfl), ?_⟩
      rw [hlast.outcomes_eq]
      exact .inr hinside
  · rw [if_neg hstart]
    exact AgreesAt.pure ⟨.refl _, fun hsome => absurd hsome (by simp), .inl hnext⟩

theorem Agreement.parenQuery? (h : Agreement levels) (hfresh : cursor.IsFresh) :
    (nestedAt levels).parenQuery?.AgreesAt cursor (IsTried levels cursor) := by
  by_cases hsees : cursor.sees "(" = true
  · suffices htried : (nestedAt levels).parenQuery?.AgreesAt cursor fun value after =>
        after.Follows cursor ∧
        (∀ query, value = some query → after.IsFresh ∧ cursor.pos < after.pos ∧
          after.outcomes.lookup cursor.pos = some (some (query, after.mark))) ∧
        (value = none → after = { cursor with outcomes := after.outcomes } ∧
          after.outcome? = some none ∧
          ((after.advance 1).IsFresh ∨
            KnownInside levels { after.advance 1 with depth := after.depth + 1 })) by
      apply htried.recall.mono
      rintro value after ⟨⟨hfollows, hsome, hnone⟩, hplain⟩
      cases value with
      | some query =>
        obtain ⟨hafter, hpos, hkept⟩ := hsome query rfl
        exact .matched hfollows hafter hpos hkept
      | none =>
        obtain ⟨hafter, hkept, hnext⟩ := hnone rfl
        have hsame : after.forgetful = cursor.forgetful := by
          rw [hafter]
          rfl
        have hsees' : after.sees "(" = true := by
          rw [hafter]
          exact hsees
        rw [← hsame] at hplain
        exact .refused hafter hfollows ⟨hsees', hkept, hplain, hnext⟩
    unfold Nested.parenQuery?
    apply AgreesAt.bind_known (sees_apply _ _) (sees_apply _ _)
    rw [if_pos hsees]
    apply AgreesAt.once hfresh (h.enclosedQuery? hfresh hsees)
    · intro value after hafter
      exact hafter.1.trans (cursor.passes_advance 1).follows
    · rintro query after ⟨hfollows, hmatch, -⟩
      have hpos : cursor.pos < after.pos := hfollows.pos_le
      have hfollows' := hfollows.trans (cursor.passes_advance 1).follows
      refine ⟨hfollows'.keep (Nat.le_refl _) _, ?_, fun hnone => absurd hnone (by simp)⟩
      rintro _ ⟨⟩
      exact ⟨(hmatch rfl).keep hpos _, hpos, List.lookup_cons_self⟩
    · rintro after ⟨hfollows, -, hnext⟩
      have hfollows' := hfollows.trans (cursor.passes_advance 1).follows
      have hlookup (pos : Nat) (hpos : cursor.pos + 1 ≤ pos) :
          ((after.reset cursor.mark).keep cursor.pos none).outcomes.lookup pos =
            after.outcomes.lookup pos :=
        Cursor.lookup_keep (Nat.ne_of_gt hpos)
      refine ⟨hfollows'.back.keep (Nat.le_refl _) _, fun _ hsome => absurd hsome (by simp), fun _ => ?_⟩
      rw [hfollows'.reset_eq] at hlookup ⊢
      refine ⟨rfl, List.lookup_cons_self, ?_⟩
      exact hnext.imp (fun hfresh => IsFresh.congr hfresh hlookup)
        (fun hinside => KnownInside.congr hinside hlookup)
  · have hsees : cursor.sees "(" = false := by simpa using hsees
    unfold Nested.parenQuery?
    apply AgreesAt.bind_known (sees_apply _ _) (sees_apply _ _)
    rw [hsees]
    exact .pure (.elsewhere hsees)

theorem Agreement.closedExpr (h : Agreement levels)
    (hinside : KnownInside levels { cursor with depth := cursor.depth + 1 }) :
    (nestedAt levels).closedExpr.AgreesAt cursor fun _ after =>
      after.IsFresh ∧ after.Follows cursor := by
  have hexpr : (nestedAt levels).expr.AgreesAt cursor fun _ after =>
      after.Follows cursor ∧ after.IsSettled := by
    apply AgreesAt.bind (h.expr? cursor hinside)
    rintro value after ⟨hfollows, hsettled⟩
    cases value with
    | none => exact .expected _
    | some value => exact .pure ⟨hfollows, hsettled rfl⟩
  apply hexpr.bind
  rintro expr after ⟨hfollows, hfresh | hblocked⟩
  · apply ((isQuiet_expect ")").discard after).bind
    intro _ last hlast
    exact .pure ⟨hlast.isFresh hfresh, hlast.follows.trans hfollows⟩
  · -- the query goes on, so the parenthesis of the expression is not closed
    exact AgreesAt.missing (hblocked.sees_eq_false (by decide))

/-- A parenthesis that starts no query is read as that of an expression. -/
theorem Agreement.refused (h : Agreement levels)
    (hrefused : IsRefused levels (KnownInside levels) cursor) :
    AgreesAt (do
      discard <| expect "("
      return Expr.paren (← (nestedAt levels).closedExpr)) cursor fun expr after =>
        after.IsFresh ∧ Nested.IsForm cursor expr after := by
  have hplain : cursor.forgetful.sees "(" = true := hrefused.sees_eq
  have hclosed : (nestedAt levels).closedExpr.AgreesAt (cursor.advance 1) fun _ after =>
      after.IsFresh ∧ after.Follows (cursor.advance 1) := by
    rcases hrefused.next with hfresh | hinside
    · exact h.tame.closedExpr _ hfresh
    · exact h.closedExpr hinside
  apply AgreesAt.bind_known (discard_expect_of_sees hrefused.sees_eq) (discard_expect_of_sees hplain)
  apply hclosed.bind
  rintro expr after ⟨hfresh, hfollows⟩
  exact .pure ⟨hfresh, hfollows.trans (cursor.passes_advance 1).follows, .inl hfresh, by simp⟩

theorem Agreement.parenExpr_of_isFresh (h : Agreement levels) (hfresh : cursor.IsFresh) :
    (nestedAt levels).parenExpr.AgreesAt cursor fun expr after =>
      after.IsFresh ∧ Nested.IsForm cursor expr after := by
  apply (h.parenQuery? hfresh).bind
  rintro _ after htried
  cases htried with
  | elsewhere hsees => exact AgreesAt.missing hsees
  | refused hafter hfollows hrefused =>
    apply (h.refused hrefused).mono
    rintro expr last ⟨hlast, hform⟩
    exact ⟨hlast, hform.follows.trans hfollows, hform.settled, hform.ne_name⟩
  | matched hfollows hafter hpos hkept =>
    exact .pure ⟨hafter, hfollows, .inl hafter, by simp⟩

theorem Agreement.parenExpr_isTame (h : Agreement levels) : (nestedAt levels).parenExpr.IsTame := by
  intro cursor hfresh
  apply (h.parenExpr_of_isFresh hfresh).mono
  rintro expr after ⟨hafter, hform⟩
  exact ⟨hafter, hform.follows⟩

theorem Agreement.parenExpr (h : Agreement levels) (hknown : Known levels cursor)
    (hsees : cursor.sees "(" = true) :
    (nestedAt levels).parenExpr.AgreesAt cursor (Nested.IsForm cursor) := by
  rw [known_eq] at hknown
  cases hknown with
  | fresh hfresh => exact (h.parenExpr_of_isFresh hfresh).mono fun _ _ hafter => hafter.2
  | word hword =>
    obtain ⟨word, hmem, hsees'⟩ := List.any_eq_true.mp hword
    have hexcludes : ∀ word ∈ ["SELECT", "WITH"], Cursor.excludes word "(" = true := by decide
    rw [Cursor.sees, Cursor.seesAt_eq_false hsees' (hexcludes word hmem)] at hsees
    exact absurd hsees (by decide)
  | refused hrefused =>
    have hquery : (nestedAt levels).parenQuery? cursor = .ok none cursor := by
      unfold Nested.parenQuery?
      rw [bind_of_ok (sees_apply _ _), if_pos hsees, once_apply, hrefused.kept]
    apply AgreesAt.bind_known hquery hrefused.plain
    exact (h.refused hrefused).mono fun _ _ hafter => hafter.2
  | @matched query stop hmatched =>
    have hquery : (nestedAt levels).parenQuery? cursor = .ok (some query) (cursor.reset stop) := by
      unfold Nested.parenQuery?
      rw [bind_of_ok (sees_apply _ _), if_pos hsees, once_apply, hmatched.kept]
    apply AgreesAt.bind_known hquery hmatched.plain
    exact .pure ⟨⟨hmatched.pos_le, rfl, fun _ _ => rfl, rfl⟩, hmatched.settled, by simp⟩

theorem Agreement.or? (h : Agreement levels) (hknown : Known levels cursor) :
    OpensAt (nestedAt levels).or? cursor := by
  have hfresh' (hfresh : cursor.IsFresh) : OpensAt (nestedAt levels).or? cursor :=
    (h.tame.or? h.parenExpr_isTame cursor hfresh).mono fun _ _ hafter =>
      ⟨hafter.2.1, fun _ => .inl hafter.1⟩
  have hparen (hsees : cursor.sees "(" = true) : OpensAt (nestedAt levels).or? cursor := by
    have hstart : cursor.seesAny queryStarts = true :=
      List.any_eq_true.mpr ⟨"(", by decide, hsees⟩
    exact Nested.opensAt_or? h.tame h.parenExpr_isTame hstart
      (Nested.opensAt_primary?_of_paren h.tame hsees (h.parenExpr hknown hsees))
  have hcases := hknown
  rw [known_eq] at hcases
  cases hcases with
  | fresh hfresh => exact hfresh' hfresh
  | word hword =>
    have hstart : cursor.seesAny queryStarts = true := seesAny_queryStarts_of_word hword
    exact Nested.opensAt_or? h.tame h.parenExpr_isTame hstart
      (Nested.opensAt_primary?_of_word hword)
  | refused hrefused => exact hparen hrefused.sees_eq
  | matched hmatched => exact hparen hmatched.sees_eq

theorem Agreement.parenQuery?_isTentative (h : Agreement levels) :
    (nestedAt levels).parenQuery?.IsTentative := by
  intro cursor hfresh
  apply (h.parenQuery? hfresh).mono
  intro value after htried
  refine ⟨htried.follows, fun hsome => ?_⟩
  cases htried with
  | elsewhere hsees => exact hfresh
  | refused hafter hfollows hrefused => exact absurd hsome (by simp)
  | matched hfollows hafter hpos hkept => exact hafter

theorem qualifiedName?_declines_of_paren (hsees : cursor.sees "(" = true) :
    qualifiedName?.Declines cursor := by
  obtain ⟨token, htoken, hfits⟩ := Cursor.token_of_seesAt hsees
  have hkind : token.kind.isSymbol = true := by
    have hsymbol : Cursor.isWordPattern "(" = false := by decide
    rw [Cursor.fits, hsymbol, if_neg (by decide), Bool.and_eq_true] at hfits
    exact hfits.1
  have hname : identifier?.Declines cursor := by
    unfold Declines identifier?
    rw [htoken]
    cases hcase : token.kind <;> simp_all [Token.Kind.isSymbol]
  exact bind_of_ok hname

theorem Agreement.tableFactor? (h : Agreement levels) :
    (nestedAt levels).tableFactor?.IsTentative := by
  apply (isQuiet_skipAll _).isTame.bind_tentative
  intro isUnnest
  cases isUnnest with
  | true => exact (h.tame.unnested.bind_committed fun _ => .some _).isOptional.isTentative
  | false =>
    have hname : namedTable?.IsQuiet := by
      apply isQuiet_qualifiedName?.bind
      intro name
      cases name with
      | none => exact .pure none
      | some name => exact isQuiet_aliasName?.bind fun _ => .pure _
    intro cursor hfresh
    apply (h.parenQuery? hfresh).bind
    intro value after htried
    cases htried with
    | elsewhere hsees =>
      apply (hname cursor).mono
      intro _ _ hafter
      exact ⟨hafter.follows, fun _ => hafter.isFresh hfresh⟩
    | refused hafter hfollows hrefused =>
      have hplain : after.forgetful.sees "(" = true := hrefused.sees_eq
      apply AgreesAt.bind_known (qualifiedName?_declines_of_paren hrefused.sees_eq)
        (qualifiedName?_declines_of_paren hplain)
      exact .pure ⟨hfollows, fun hsome => absurd hsome (by simp)⟩
    | matched hfollows hafter hpos hkept =>
      apply (isQuiet_aliasName? after).bind
      intro aliasName last hlast
      exact .pure ⟨hlast.follows.trans hfollows, fun _ => hlast.isFresh hafter⟩

end Levels

section Queries

variable {levels : Nat} {cursor : Cursor}

/-- A later cursor with nothing kept ahead, the same one unless a query goes on at the earlier one. -/
structure GoesOn (earlier later : Cursor) : Prop where
  fresh : later.IsFresh
  follows : later.Follows earlier
  eq : ¬ earlier.IsBlocked → later = earlier

theorem sees_eq_false_of_not_isBlocked (h : ¬ cursor.IsBlocked) {word : String}
    (hword : word ∈ Cursor.continuations) : cursor.sees word = false := by
  rw [← Bool.not_eq_true]
  intro hsees
  exact h (List.any_eq_true.mpr ⟨word, hword, hsees⟩)

theorem setTail?_declines (nested : Nested) (h : ¬ cursor.IsBlocked) :
    nested.setTail?.Declines cursor := by
  have hskip (word : String) (hword : word ∈ Cursor.continuations) :
      skip word cursor = .ok false cursor :=
    skip_of_not (sees_eq_false_of_not_isBlocked h hword)
  have hoperator : setOperator?.Declines cursor := by
    refine (bind_of_ok (hskip "UNION" (by decide))).trans ?_
    refine (bind_of_ok (hskip "INTERSECT" (by decide))).trans ?_
    exact bind_of_ok (hskip "EXCEPT" (by decide))
  exact bind_of_ok hoperator

theorem rowOrder?_declines (nested : Nested) (h : ¬ cursor.IsBlocked) :
    nested.rowOrder?.Declines cursor := by
  have hskip (word : String) (hword : word ∈ Cursor.continuations) :
      skip word cursor = .ok false cursor :=
    skip_of_not (sees_eq_false_of_not_isBlocked h hword)
  have horder : nested.orderBy cursor = .ok [] cursor := bind_of_ok (hskip "ORDER" (by decide))
  have hlimit : (nested.exprAfter? "LIMIT").Declines cursor := bind_of_ok (hskip "LIMIT" (by decide))
  refine (bind_of_ok horder).trans ?_
  exact bind_of_ok hlimit

/-- What goes on with a query leaves the cursor alone unless one of its words is next. -/
theorem goesOn_of_isTame {α : Type} {rule : Rule α} {value : α} (h : rule.IsTame)
    (hfresh : cursor.IsFresh)
    (hdeclines : ∀ cursor : Cursor, ¬ cursor.IsBlocked → rule cursor = .ok value cursor) :
    rule.AgreesAt cursor fun _ after => GoesOn cursor after := by
  by_cases hblocked : cursor.IsBlocked
  · apply (h cursor hfresh).mono
    rintro _ after ⟨hafter, hfollows⟩
    exact ⟨hafter, hfollows, fun hnot => absurd hblocked hnot⟩
  · exact AgreesAt_of_apply (hdeclines cursor hblocked) (hdeclines cursor.forgetful hblocked)
      ⟨hfresh, .refl cursor, fun _ => rfl⟩

/-- A query whose first operand is the parenthesised query at the cursor. -/
structure IsContinued (levels : Nat) (cursor last : Cursor) (first : Query) (after : Cursor) :
    Prop where
  tried : IsTried levels cursor (some first) after
  plain : (nestedAt levels).parenQuery? cursor.forgetful = .ok (some first) after.forgetful
  goesOn : GoesOn after last

theorem IsContinued.known {last after : Cursor} {first : Query}
    (h : IsContinued levels cursor last first after) (hsees : cursor.sees "(" = true) :
    Known levels { cursor with outcomes := last.outcomes } := by
  cases h.tried with
  | matched hfollows hfresh hpos hkept =>
    have hreplay : Cursor.forgetful (Cursor.reset { cursor with outcomes := last.outcomes }
        after.mark) = after.forgetful := hfollows.replay_eq
    rw [known_eq]
    refine .matched ⟨hsees, (h.goesOn.follows.lookup_eq _ hpos).trans hkept, ?_, hfollows.pos_le, ?_⟩
    · exact h.plain.trans (by rw [hreplay])
    · by_cases hblocked : after.IsBlocked
      · have hsame : Cursor.IsBlocked after.forgetful := hblocked
        rw [← hreplay] at hsame
        exact .inr hsame
      · rw [h.goesOn.eq hblocked]
        exact .inl ⟨(congrArg Cursor.keepsOutcomes hfollows.reset_eq).symm.trans hfresh.keeps_eq,
          hfresh.lookup_eq⟩

theorem Agreement.queryBody?_of_paren (h : Agreement levels) (hfresh : cursor.IsFresh)
    (hsees : cursor.sees "(" = true) :
    (nestedAt levels).queryBody?.AgreesAt cursor fun value last =>
      (value = none ∧ IsTried levels cursor none last) ∨
        ∃ first after, value.isSome ∧ IsContinued levels cursor last first after := by
  have hdeclines {other : Cursor} (hother : other.sees "(" = true) :
      (nestedAt levels).commonTables?.Declines other ∧ (nestedAt levels).select?.Declines other :=
    ⟨bind_of_ok (skip_of_not (Cursor.sees_eq_false hother (by decide))),
      bind_of_ok (skip_of_not (Cursor.sees_eq_false hother (by decide)))⟩
  have hplain : cursor.forgetful.sees "(" = true := hsees
  have hoperand : (nestedAt levels).setOperand?.AgreesAt cursor fun value after =>
      ∃ first, value = first.map SetExpr.paren ∧ IsTried levels cursor first after ∧
        (nestedAt levels).parenQuery? cursor.forgetful = .ok first after.forgetful := by
    apply AgreesAt.bind_known (hdeclines hsees).2 (hdeclines hplain).2
    apply (h.parenQuery? hfresh).recall.bind
    rintro first after ⟨htried, hrun⟩
    exact .pure ⟨first, rfl, htried, hrun⟩
  have hexpr : (nestedAt levels).setExpr?.AgreesAt cursor fun value last =>
      (value = none ∧ IsTried levels cursor none last) ∨
        ∃ first after, value.isSome ∧ IsContinued levels cursor last first after := by
    apply hoperand.bind
    rintro _ after ⟨first, rfl, htried, hrun⟩
    cases first with
    | none => exact .pure (.inl ⟨rfl, htried⟩)
    | some first =>
      have hafter : after.IsFresh := by
        cases htried with
        | matched hfollows hafter hpos hkept => exact hafter
      have htails := (h.tame.setTail? h.tableFactor? h.parenQuery?_isTentative).many
      apply (goesOn_of_isTame htails hafter fun _ hother =>
        (setTail?_declines _ hother).many).bind
      intro tails last hlast
      exact .pure (.inr ⟨first, after, rfl, htried, hrun, hlast⟩)
  apply AgreesAt.bind_known (hdeclines hsees).1 (hdeclines hplain).1
  apply hexpr.bind
  rintro value last (⟨rfl, htried⟩ | ⟨first, after, hsome, htried, hrun, hlast⟩)
  · exact .pure (.inl ⟨rfl, htried⟩)
  · obtain ⟨body, rfl⟩ := Option.isSome_iff_exists.mp hsome
    apply (goesOn_of_isTame h.tame.rowOrder? hlast.fresh fun _ => rowOrder?_declines _).bind
    intro order final hfinal
    refine .pure (.inr ⟨first, after, rfl, htried, hrun, hfinal.fresh,
      hfinal.follows.trans hlast.follows, ?_⟩)
    intro hblocked
    have hsame := hlast.eq hblocked
    rw [← hsame] at hblocked
    exact (hfinal.eq hblocked).trans hsame

theorem Agreement.queryBody? (h : Agreement levels) (hfresh : cursor.IsFresh)
    (hstart : cursor.seesAny queryStarts = true) :
    (nestedAt levels).queryBody?.AgreesAt cursor fun value last =>
      last.Follows cursor ∧ (value.isSome → last.IsFresh) ∧
        Known levels { cursor with outcomes := last.outcomes } := by
  by_cases hsees : cursor.sees "(" = true
  · apply (h.queryBody?_of_paren hfresh hsees).mono
    rintro value last (⟨rfl, htried⟩ | ⟨first, after, -, hcontinued⟩)
    · refine ⟨htried.follows, fun hsome => absurd hsome (by simp), ?_⟩
      cases htried with
      | elsewhere hnot =>
        rw [known_eq]
        exact .fresh hfresh
      | refused hafter hfollows hrefused =>
        rw [← hafter, known_eq]
        exact .refused hrefused
    · exact ⟨hcontinued.goesOn.follows.trans hcontinued.tried.follows,
        fun _ => hcontinued.goesOn.fresh, hcontinued.known hsees⟩
  · have hword : cursor.seesAny ["SELECT", "WITH"] = true := by
      have hsees : cursor.seesAt 0 "(" = false := by simpa [Cursor.sees] using hsees
      simpa [Cursor.seesAny, Cursor.seesAnyAt, queryStarts, hsees] using hstart
    apply (h.tame.queryBody? h.tableFactor? h.parenQuery?_isTentative cursor hfresh).mono
    rintro value last ⟨hfollows, hlast⟩
    refine ⟨hfollows, hlast, ?_⟩
    rw [known_eq]
    exact .word hword

theorem isTentative_queryHere? {nested : Nested}
    (h : ∀ cursor : Cursor, cursor.IsFresh → cursor.seesAny queryStarts = true →
      nested.query?.AgreesAt cursor fun value after =>
        after.Follows cursor ∧ (value.isSome → after.IsFresh)) :
    nested.queryHere?.IsTentative := by
  intro cursor hfresh
  apply AgreesAt.bind_known (ask_apply _ _) (ask_apply _ _)
  by_cases hstart : cursor.seesAny queryStarts = true
  · rw [if_pos hstart]
    exact h cursor hfresh hstart
  · rw [if_neg hstart]
    exact .pure ⟨.refl cursor, fun hsome => absurd hsome (by simp)⟩

theorem Agreement.queryHere? (h : Agreement levels) : (nestedAt levels).queryHere?.IsTentative := by
  apply isTentative_queryHere?
  intro cursor hfresh hstart
  apply (h.query? cursor hfresh hstart).mono
  rintro _ _ ⟨hfollows, hafter, -⟩
  exact ⟨hfollows, hafter⟩

theorem agreement_zero : Agreement 0 where
  tame :=
    { expr? := fun _ _ => .tooDeep
      notOperand := fun _ _ => .tooDeep
      signOperand := fun _ _ => .tooDeep
      query := (isTentative_queryHere? fun _ _ _ => .tooDeep).require _
      type? := isQuiet_typeAt? 0
      fields := isQuiet_fieldsAt 0 }
  query? _ _ _ := .tooDeep
  expr? _ _ := .tooDeep

theorem Agreement.succ (h : Agreement levels) : Agreement (levels + 1) := by
  have hquery (cursor : Cursor) (hfresh : cursor.IsFresh)
      (hstart : cursor.seesAny queryStarts = true) :
      (nestedAt (levels + 1)).query?.AgreesAt cursor fun value after =>
        after.Follows cursor ∧ (value.isSome → after.IsFresh) ∧
          KnownInside (levels + 1) { cursor with
            depth := cursor.depth + 1, outcomes := after.outcomes } := by
    have hstart' : Cursor.seesAny { cursor with depth := cursor.depth + 1 } queryStarts = true :=
      hstart
    have hbody := h.queryBody? hfresh.descend hstart'
    have hattempt : (attempt (nestedAt levels).queryBody?).AgreesAt
        { cursor with depth := cursor.depth + 1 } fun value after =>
          after.Follows { cursor with depth := cursor.depth + 1 } ∧ (value.isSome → after.IsFresh) ∧
            Known levels { cursor with depth := cursor.depth + 1, outcomes := after.outcomes } := by
      apply hbody.keepIf
      · intro _ _ hafter _
        exact hafter
      · rintro value after ⟨hfollows, -, hknown⟩ hvalue
        refine ⟨hfollows.back, fun hsome => ?_, hknown⟩
        rw [hvalue] at hsome
        exact absurd hsome (by decide)
    apply hattempt.descend
    rintro value after ⟨hfollows, hafter, hknown⟩
    exact ⟨hfollows.ascend, fun hsome => (hafter hsome).ascend, hknown⟩
  have hnot := h.tame.not? h.parenExpr_isTame
  have hunary := h.tame.unary? h.parenExpr_isTame
  constructor
  · constructor
    · exact (h.tame.or? h.parenExpr_isTame).descend
    · exact (hnot.require _).descend
    · exact (hunary.require _).descend
    · apply IsTentative.require (isTentative_queryHere? _)
      intro cursor hfresh hstart
      apply (hquery cursor hfresh hstart).mono
      rintro _ _ ⟨hfollows, hafter, -⟩
      exact ⟨hfollows, hafter⟩
    · exact isQuiet_typeAt? (levels + 1)
    · exact isQuiet_fieldsAt (levels + 1)
  · exact hquery
  · intro cursor hknown
    apply AgreesAt.descend (h.or? hknown)
    rintro value after ⟨hfollows, hafter⟩
    refine ⟨hfollows.ascend, fun hsome => ?_⟩
    exact (hafter hsome).imp (fun hfresh => hfresh.ascend) id

theorem agreement (levels : Nat) : Agreement levels := by
  induction levels with
  | zero => exact agreement_zero
  | succ levels ih => exact ih.succ

theorem isTame_script (levels : Nat) : (nestedAt levels).script.IsTame :=
  (agreement levels).tame.script (agreement levels).queryHere?

end Queries

section Sources

variable {α : Type}

theorem isTame_atDepth {rule : Nested → Rule α} (h : ∀ levels, (rule (nestedAt levels)).IsTame) :
    (atDepth rule).IsTame :=
  fun cursor hfresh => (h (Cursor.maxDepth - cursor.depth) cursor hfresh).of_eq rfl rfl

theorem isTame_wholeExpr : wholeExpr.IsTame := by
  apply (isTame_atDepth fun levels => (agreement levels).tame.expr).bind
  intro expr
  apply (isQuiet_ask fun _ => rfl).isTame.bind
  intro _
  exact (IsQuiet.pure _).isTame.ite (isQuiet_expected _).isTame

theorem isFresh_ofSource {source : String} {cursor : Cursor}
    (h : Cursor.ofSource source = .ok cursor) : cursor.IsFresh := by
  unfold Cursor.ofSource at h
  cases hstream : TokenStream.ofSource source with
  | error failure =>
    rw [hstream] at h
    cases h
  | ok stream =>
    rw [hstream] at h
    cases h
    exact ⟨rfl, fun _ _ => rfl⟩

/-- Runs a rule from the start of a source and keeps no outcomes, so that every parenthesised query is
attempted again each time it is come to. -/
def runAfreshOn (rule : Rule α) (source : String) : Except Failure α := do
  match rule (← Cursor.ofSource source).forgetful with
  | .ok value _ => return value
  | .error failure _ => throw failure

/-- A value that is read afresh is what the rule gives at the start of the stream. -/
theorem exists_run_of_runAfreshOn {rule : Rule α} {source : String} {value : α}
    (h : runAfreshOn rule source = .ok value) :
    ∃ stream after, TokenStream.ofSource source = .ok stream ∧
      rule (Cursor.ofStream source.utf8ByteSize stream).forgetful = .ok value after := by
  rw [runAfreshOn, Cursor.ofSource] at h
  cases hstream : TokenStream.ofSource source with
  | error failure =>
    rw [hstream] at h
    cases h
  | ok stream =>
    rw [hstream] at h
    simp only [bind, Except.bind, pure, Except.pure] at h
    cases hrun : rule (Cursor.ofStream source.utf8ByteSize stream).forgetful with
    | error failure after =>
      rw [hrun] at h
      cases h
    | ok found after =>
      rw [hrun] at h
      cases h
      exact ⟨stream, after, rfl, hrun⟩

theorem runOn_eq_runAfreshOn {rule : Rule α} (h : rule.IsTame) (source : String) :
    rule.runOn source = runAfreshOn rule source := by
  unfold runOn runAfreshOn
  cases hsource : Cursor.ofSource source with
  | error failure => rfl
  | ok cursor =>
    have hagrees := h cursor (isFresh_ofSource hsource)
    unfold AgreesAt at hagrees
    simp only [bind, Except.bind]
    cases hrun : rule cursor with
    | ok value after =>
      rw [hrun] at hagrees
      rw [hagrees.1]
    | error failure after =>
      rw [hrun] at hagrees
      obtain ⟨other, hother⟩ := hagrees
      rw [hother]

theorem isTentative_enclosedQuery? (levels : Nat) :
    (nestedAt levels).enclosedQuery?.IsTentative := by
  apply isQuiet_bump.discard.isTame.bind_tentative
  intro _
  apply (agreement levels).queryHere?.bind
  · intro query
    exact ((isQuiet_skip ")").bind fun _ => .pure _).isTame
  · rfl

/-- Without kept outcomes, a parenthesised query is attempted each time. -/
theorem once_enclosedQuery?_forgetful (levels : Nat) (cursor : Cursor) :
    once (nestedAt levels).enclosedQuery? cursor.forgetful =
      attempt (nestedAt levels).enclosedQuery? cursor.forgetful := by
  apply once_of_not_keeps rfl
  intro value after hrun
  have hfresh : Cursor.IsFresh { cursor with keepsOutcomes := true, outcomes := [] } :=
    ⟨rfl, fun _ _ => rfl⟩
  have hagrees := isTentative_enclosedQuery? levels _ hfresh
  have hsame : Cursor.forgetful { cursor with keepsOutcomes := true, outcomes := [] } =
      cursor.forgetful := rfl
  unfold AgreesAt at hagrees
  rw [hsame, hrun] at hagrees
  split at hagrees
  · cases hagrees.1
    rfl
  · obtain ⟨other, hother⟩ := hagrees
    cases hother

end Sources

end Grammar

theorem exists_of_isOk {ε α : Type} {result : Except ε α} (h : result.isOk) : ∃ a, result = .ok a := by
  cases result with
  | error failure => cases h
  | ok a => exact ⟨a, rfl⟩

/-- Keeping outcomes changes nothing. The second run keeps none, and there a parenthesised query is
attempted afresh each time. -/
theorem Script.ofSource_eq_runAfreshOn :
    (∀ (levels : Nat) (cursor : Cursor),
      once (Grammar.nestedAt levels).enclosedQuery? cursor.forgetful =
        attempt (Grammar.nestedAt levels).enclosedQuery? cursor.forgetful) ∧
    ∀ source : String,
      Script.ofSource source = Grammar.runAfreshOn (Grammar.atDepth Grammar.Nested.script) source :=
  ⟨Grammar.once_enclosedQuery?_forgetful, fun source =>
    Grammar.runOn_eq_runAfreshOn (Grammar.isTame_atDepth Grammar.isTame_script) source⟩

/-- The same for an expression. -/
theorem Expr.ofSource_afresh (source : String) :
    Expr.ofSource source = Grammar.runAfreshOn Grammar.wholeExpr source :=
  Grammar.runOn_eq_runAfreshOn Grammar.isTame_wholeExpr source

end SqlLayout
