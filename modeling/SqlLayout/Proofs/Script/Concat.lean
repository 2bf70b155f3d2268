import SqlLayout.Proofs.Cursor.Local
import SqlLayout.Proofs.Script.Alike
import SqlLayout.Proofs.Script.Comments
import SqlLayout.Proofs.Token.Newline

/-!
# Scripts One after the Other

The statements of a script are read independently of each other. Where two sources that can be read stand
one after the other with a semicolon on a line of its own between them, the statements are those of the
first one and then those of the second one, and so are the comments. The rule for a statement is local, so
it stops at a semicolon and does not look past it; and because the first source is read to its end, no
comment in it was left open.
-/

namespace SqlLayout

namespace Cursor

variable {cursor other : Cursor}

theorem not_sees_of_atEnd (pattern : String) (h : cursor.atEnd = true) : cursor.sees pattern = false := by
  by_contra hsees
  have hremaining := lt_remaining_of_seesAt (Bool.of_not_eq_false hsees)
  rw [atEnd, decide_eq_true_eq] at h
  rw [remaining] at hremaining
  omega

/-- A place where an item may end. -/
def Closes (cursor : Cursor) : Prop :=
  cursor.sees ";" = true ∨ cursor.atEnd = true

theorem Closes.of_stopsWithin (hstops : cursor.StopsWithin other) (h : cursor.Closes) : other.Closes := by
  rcases hstops.look?_cases (Nat.zero_le _) with ⟨look, hlook, hother⟩ | ⟨-, hother | hother⟩
  · left
    rcases h with hsees | hend
    · rw [Cursor.sees, seesAt_eq_fitsLook, hother, ← hlook, ← seesAt_eq_fitsLook]
      exact hsees
    · rw [atEnd_eq_look?, hlook] at hend
      cases hend
  · right
    rw [atEnd_eq_look?, hother]
    rfl
  · left
    rw [Cursor.sees, seesAt_eq_fitsLook, hother]
    rfl

section Starting

variable {source : String} {stream : TokenStream}

/-- The first cursor of a source that is read without keeping anything. -/
def startOf (source : String) (stream : TokenStream) : Cursor :=
  (ofStream source.utf8ByteSize stream).forgetful

theorem tokens_startOf :
    (startOf source stream).tokens.toList.drop (startOf source stream).pos = stream.tokens := by
  simp [startOf, ofStream, forgetful]

theorem remaining_startOf : (startOf source stream).remaining = stream.tokens.length := by
  rw [remaining_eq_length, tokens_startOf]

theorem seesAt_startOf (hstream : TokenStream.ofSource source = .ok stream) {symbol : Token.Kind × String}
    (hsymbol : symbol ∈ Token.Kind.symbols) {ahead : Nat} (hahead : ahead < stream.tokens.length)
    (hkind : stream.tokens[ahead].kind = symbol.1) :
    (startOf source stream).seesAt ahead symbol.2 = true := by
  have hspelled : ∀ symbol ∈ Token.Kind.symbols, ∀ other ∈ Token.Kind.symbols, symbol.1 = other.1 →
      symbol.2 = other.2 := by decide
  have hplain : ∀ symbol ∈ Token.Kind.symbols, isWordPattern symbol.2 = false := by decide
  have hisSymbol : stream.tokens[ahead].kind.isSymbol = true :=
    (Token.Kind.mem_symbols_iff _).mp (hkind ▸ List.mem_map_of_mem hsymbol)
  have hgenuine := (TokenStream.isGenuine_of_mem_tokens hstream (List.getElem_mem hahead)).1
  have htext := hspelled _ (Glyph.mem_symbols_of_isGenuine hgenuine hisSymbol) _ hsymbol hkind
  rw [seesAt, token?_eq_drop, tokens_startOf, List.getElem?_eq_getElem hahead]
  dsimp only
  rw [fits, hplain symbol hsymbol, if_neg (by simp), hisSymbol, Bool.true_and, beq_iff_eq]
  exact htext

/-- A slash before a star in the stream is one before the first cursor. -/
theorem isChain_of_opensAt (hstream : TokenStream.ofSource source = .ok stream)
    (h : ∀ ahead < (startOf source stream).remaining, (startOf source stream).opensAt ahead = false) :
    stream.tokens.IsChain fun token next => ¬(token.kind = .slash ∧ next.kind = .star) := by
  have hslashes : (Token.Kind.slash, "/") ∈ Token.Kind.symbols := by decide
  have hstars : (Token.Kind.star, "*") ∈ Token.Kind.symbols := by decide
  rw [List.isChain_iff_getElem]
  rintro ahead hahead ⟨hslash, hstar⟩
  have hopens := h ahead (by rw [remaining_startOf]; omega)
  rw [opensAt, seesAt_startOf hstream hslashes (by omega) hslash,
    seesAt_startOf hstream hstars hahead hstar] at hopens
  cases hopens

end Starting

end Cursor

namespace Rule

variable {α : Type} {rule : Rule (Option α)} {cursor other after : Cursor}

theorem many_of_none (h : rule cursor = .ok none after) : many rule cursor = .ok [] after := by
  rw [many, repeatUpTo, bind_of_ok h]
  rfl

theorem Progresses.many_of_some (hprogress : rule.Progresses) (hplain : cursor.forgetful = cursor) {value : α}
    (h : rule cursor = .ok (some value) after) :
    many rule cursor = ((value :: ·) <$> many rule) after := by
  obtain ⟨hafter, hless⟩ := hprogress cursor value after hplain h
  have hsteps := hprogress.repeatUpTo_eq_of_le hafter (Nat.lt_succ_self _) (Nat.succ_le_of_lt hless)
  rw [many, repeatUpTo, bind_of_ok h, map_eq_bind]
  dsimp only
  rw [bind_apply, bind_apply, hsteps]
  rfl

/-- A repetition goes by what its rule does first. -/
theorem Progresses.many_congr (hprogress : rule.Progresses) (hplain : cursor.forgetful = cursor)
    (hplain' : other.forgetful = other) (h : rule cursor = rule other) :
    many rule cursor = many rule other := by
  cases hfirst : rule other with
  | error failure after =>
    rw [many, many, repeatUpTo, repeatUpTo, bind_apply, bind_apply, h, hfirst]
  | ok found after =>
    cases found with
    | none => rw [many_of_none (h.trans hfirst), many_of_none hfirst]
    | some value => rw [hprogress.many_of_some hplain (h.trans hfirst), hprogress.many_of_some hplain' hfirst]

end Rule

namespace Grammar

open Rule Cursor

section Items

variable {α : Type} {rule : Rule (Option α)} {cursor other after : Cursor}

theorem itemOf_progresses (h : rule.IsBuilt) : (itemOf rule).Progresses := by
  have hdelivers : rule.Delivers fun value => value.toList.flatMap fun _ => ([] : List String) := by
    intro cursor hplain value after hrun
    have htexts : value.toList.flatMap (fun _ => []) = ([] : List String) := by cases value <;> rfl
    dsimp only
    rw [htexts]
    exact h.handsOver hplain hrun
  intro cursor value after hplain hrun
  exact ⟨(itemOf_delivers hdelivers cursor hplain _ after hrun).plain,
    (itemOf_progress hdelivers hplain hrun).2 rfl⟩

theorem semicolon?_of_sees (h : cursor.sees ";" = true) :
    semicolon? cursor = .ok (some ()) (cursor.advance 1) := by
  rw [semicolon?, bind_of_ok (skip_of_sees h)]
  rfl

theorem semicolon?_of_not (h : cursor.sees ";" = false) : semicolon? cursor = .ok none cursor := by
  rw [semicolon?, bind_of_ok (skip_of_not h)]
  rfl

theorem semicolon?_progresses : semicolon?.Progresses := by
  intro cursor value after hplain hrun
  cases hsees : cursor.sees ";" with
  | false =>
    rw [semicolon?_of_not hsees] at hrun
    cases hrun
  | true =>
    rw [semicolon?_of_sees hsees] at hrun
    cases hrun
    have hremaining := lt_remaining_of_seesAt hsees
    refine ⟨congrArg (Cursor.advance · 1) hplain, ?_⟩
    rw [remaining_advance]
    omega

/-- A semicolon before an item makes no difference. -/
theorem itemOf_of_sees (hplain : cursor.forgetful = cursor) (h : cursor.sees ";" = true) :
    itemOf rule cursor = itemOf rule (cursor.advance 1) := by
  have hskipped := semicolon?_progresses.many_of_some hplain (semicolon?_of_sees h)
  have hdiscard : Functor.discard (many semicolon?) cursor =
      Functor.discard (many semicolon?) (cursor.advance 1) := by
    rw [discard_eq_bind, bind_apply, bind_apply, hskipped, map_eq_bind, bind_apply]
    cases many semicolon? (cursor.advance 1) <;> rfl
  rw [itemOf, bind_apply, bind_apply, hdiscard]

theorem itemOf_of_not (h : cursor.sees ";" = false) :
    itemOf rule cursor =
      if cursor.atEnd = true then .ok none cursor else (require "a statement" rule >>= itemEnd) cursor := by
  have hdiscard : Functor.discard (many semicolon?) cursor = .ok PUnit.unit cursor := by
    rw [discard_eq_bind, bind_of_ok (many_of_none (semicolon?_of_not h))]
    rfl
  rw [itemOf, bind_of_ok hdiscard, bind_of_ok (ask_apply _ _)]
  cases cursor.atEnd <;> rfl

theorem many_itemOf_of_atEnd (h : cursor.atEnd = true) : many (itemOf rule) cursor = .ok [] cursor := by
  apply many_of_none
  rw [itemOf_of_not (not_sees_of_atEnd ";" h), if_pos h]

theorem many_itemOf_of_sees (hprogress : (itemOf rule).Progresses) (hplain : cursor.forgetful = cursor)
    (h : cursor.sees ";" = true) : many (itemOf rule) cursor = many (itemOf rule) (cursor.advance 1) :=
  hprogress.many_congr hplain (congrArg (Cursor.advance · 1) hplain) (itemOf_of_sees hplain h)

/-- Items start with what the rule gives. Whether the semicolon after it is taken now or later makes no
difference. -/
theorem many_itemOf_of_ok (hprogress : (itemOf rule).Progresses) (hplain : cursor.forgetful = cursor)
    (hplain' : after.forgetful = after) (hsees : cursor.sees ";" = false) (hend : cursor.atEnd = false)
    {value : α} (hrule : rule cursor = .ok (some value) after) (hcloses : after.Closes) :
    many (itemOf rule) cursor = ((value :: ·) <$> many (itemOf rule)) after := by
  have hrequire : require "a statement" rule cursor = .ok value after := by
    rw [require, bind_of_ok hrule]
    rfl
  have hitem : itemOf rule cursor = itemEnd value after := by
    rw [itemOf_of_not hsees, hend, if_neg (by simp), bind_of_ok hrequire]
  cases hclosed : after.sees ";" with
  | true =>
    rw [itemEnd_of_sees hclosed] at hitem
    rw [hprogress.many_of_some hplain hitem, map_eq_bind, bind_apply, bind_apply,
      many_itemOf_of_sees hprogress hplain' hclosed]
  | false =>
    have hdone : after.atEnd = true := hcloses.resolve_left (by simp [hclosed])
    rw [itemEnd_of_atEnd hclosed hdone] at hitem
    rw [hprogress.many_of_some hplain hitem]

/-- Where items are read, the first one is what the rule gives, up to a place where it may end. -/
theorem exists_of_many_itemOf {values : List α} (hsees : cursor.sees ";" = false)
    (hend : cursor.atEnd = false) (h : many (itemOf rule) cursor = .ok values after) :
    ∃ value middle, rule cursor = .ok (some value) middle ∧ middle.Closes := by
  rw [many, repeatUpTo, bind_apply, itemOf_of_not hsees, hend, if_neg (by simp), require, bind_assoc,
    bind_apply] at h
  cases hrule : rule cursor with
  | error failure middle =>
    rw [hrule] at h
    cases h
  | ok found middle =>
    cases found with
    | none =>
      rw [hrule] at h
      cases h
    | some value =>
      refine ⟨value, middle, rfl, ?_⟩
      rw [hrule] at h
      dsimp only at h
      rw [pure_bind] at h
      cases hitem : itemEnd value middle with
      | error failure last =>
        rw [hitem] at h
        cases h
      | ok found last =>
        rcases (itemEnd_of_ok hitem).2 with ⟨hclosed, -⟩ | ⟨-, hdone, -⟩
        · exact .inl hclosed
        · exact .inr hdone

/-- The other cursor reads the items of the first one, then goes on where that one ends; and the first one
opens no comment. -/
structure ReadsOn (rule : Rule (Option α)) (cursor other : Cursor) (values : List α) : Prop where
  opens : ∀ ahead < cursor.remaining, cursor.opensAt ahead = false
  run : many (itemOf rule) other = ((values ++ ·) <$> many (itemOf rule)) (other.advance cursor.remaining)

theorem ReadsOn.of_atEnd (hend : cursor.atEnd = true) : ReadsOn rule cursor other [] := by
  have hnone : cursor.remaining = 0 := by
    rw [atEnd, decide_eq_true_eq] at hend
    exact Nat.sub_eq_zero_of_le hend
  constructor
  · intro ahead hahead
    rw [hnone] at hahead
    exact absurd hahead (Nat.not_lt_zero ahead)
  · rw [hnone]
    simp [advance_zero]

theorem ReadsOn.skip (hprogress : (itemOf rule).Progresses) (hstops : cursor.StopsWithin other)
    (hsees : cursor.sees ";" = true) {values : List α}
    (h : ReadsOn rule (cursor.advance 1) (other.advance 1) values) : ReadsOn rule cursor other values := by
  have hremaining := lt_remaining_of_seesAt hsees
  have hother : other.sees ";" = true := by
    rwa [Cursor.sees, seesAt_eq_fitsLook, hstops.look?_eq hremaining, ← seesAt_eq_fitsLook]
  have hlength := Nat.add_sub_cancel' hremaining
  have hopens := h.opens
  have hrun := h.run
  rw [remaining_advance] at hopens hrun
  constructor
  · have hfirst : ∀ ahead < 1, cursor.opensAt ahead = false := by
      intro ahead hahead
      obtain rfl := Nat.lt_one_iff.mp hahead
      rw [opensAt, seesAt_eq_false hsees (excludes_slash (by decide)), Bool.false_and]
    rw [← hlength]
    exact opensAt_of_advance hfirst hopens
  · rw [many_itemOf_of_sees hprogress hstops.plain' hother, hrun, advance_advance, hlength]

theorem ReadsOn.cons (hprogress : (itemOf rule).Progresses) (hstops : cursor.StopsWithin other)
    (hsees : cursor.sees ";" = false) {value : α} {values : List α} {count : Nat}
    (hcount : rule.Takes cursor other (some value) count) (hpos : 0 < count)
    (hcloses : (cursor.advance count).Closes)
    (h : ReadsOn rule (cursor.advance count) (other.advance count) values) :
    ReadsOn rule cursor other (value :: values) := by
  have hle := hcount.count_le
  have hmiddle := hstops.advance hle
  have hfirst : other.look? 0 = cursor.look? 0 := hstops.look?_eq (Nat.lt_of_lt_of_le hpos hle)
  have hsees' : other.sees ";" = false := by
    rwa [Cursor.sees, seesAt_eq_fitsLook, hfirst, ← seesAt_eq_fitsLook]
  have hend' : other.atEnd = false := by
    rw [atEnd_eq_look?, hfirst, Option.isNone_eq_false_iff, Option.isSome_iff_ne_none, ne_eq,
      look?_eq_none_iff]
    omega
  have hlength := Nat.add_sub_cancel' hle
  have hopens := h.opens
  have hrun := h.run
  rw [remaining_advance] at hopens hrun
  constructor
  · rw [← hlength]
    exact opensAt_of_advance hcount.opens hopens
  · rw [many_itemOf_of_ok hprogress hstops.plain' hmiddle.plain' hsees' hend' hcount.run'
      (hcloses.of_stopsWithin hmiddle), map_eq_bind, bind_apply, hrun, advance_advance, hlength, map_eq_bind,
      bind_apply, map_eq_bind, bind_apply]
    cases many (itemOf rule) (other.advance cursor.remaining) <;> rfl

/-- A local rule reads the same items where anything may come after a semicolon. -/
theorem readsOn_of_many_itemOf (hbuilt : rule.IsBuilt) (hlocal : rule.IsLocal ifFound)
    (hstops : cursor.StopsWithin other) {values : List α}
    (hrun : many (itemOf rule) cursor = .ok values after) :
    ReadsOn rule cursor other values := by
  have hprogress := itemOf_progresses hbuilt
  -- Each item, and each semicolon before one, leaves fewer tokens.
  induction hremaining : cursor.remaining using Nat.strong_induction_on
    generalizing cursor other values after with
  | _ remaining ih =>
    subst hremaining
    cases hend : cursor.atEnd with
    | true =>
      rw [many_itemOf_of_atEnd hend] at hrun
      cases hrun
      exact .of_atEnd hend
    | false =>
      cases hsees : cursor.sees ";" with
      | true =>
        have hremaining := lt_remaining_of_seesAt hsees
        rw [many_itemOf_of_sees hprogress hstops.plain hsees] at hrun
        exact .skip hprogress hstops hsees (ih _ (Nat.sub_lt hremaining Nat.one_pos)
          (hstops.advance hremaining) hrun (remaining_advance cursor 1))
      | false =>
        obtain ⟨value, middle, hrule, hcloses⟩ := exists_of_many_itemOf hsees hend hrun
        obtain ⟨count, hcount, htakes⟩ := hlocal cursor other (some value) middle hstops hrule
        obtain rfl := hcount.after_eq hrule
        have hpos : 0 < count := htakes rfl
        have hle := hcount.count_le
        have hmiddle := hstops.advance hle
        rw [many_itemOf_of_ok hprogress hstops.plain hmiddle.plain hsees hend hrule hcloses, map_eq_bind,
          bind_apply] at hrun
        cases hmany : many (itemOf rule) (cursor.advance count) with
        | error failure last =>
          rw [hmany] at hrun
          cases hrun
        | ok rest last =>
          rw [hmany] at hrun
          cases hrun
          exact .cons hprogress hstops hsees hcount hpos hcloses
            (ih _ (by omega) hmiddle hmany (remaining_advance cursor count))

end Items

section Scripts

variable {nested : Nested} {cursor other : Cursor}

/-- Handing out comments has no counterpart on the other side. -/
theorem comments_bindBeside {α β : Type} {related : α → β → Prop} {next : List String → Rule α}
    {rule : Rule β} (htwins : cursor.Twins other)
    (hnext : ∀ texts after, after.Twins other → RunsBeside Twins related (next texts) rule after other) :
    RunsBeside Twins related (comments >>= next) rule cursor other := by
  have hafter := twins_comments htwins (cursor.drained + cursor.pending.length) other.drained
  cases hnext (cursor.pending.map Comment.text) _ hafter with
  | gives value value' after after' hrelated hrun hrun' hpair hspan hspan' =>
    exact .gives value value' after after' hrelated hrun hrun' hpair hspan hspan'
  | fails cause index after after' hrun hrun' => exact .fails cause index after after' hrun hrun'

theorem statement?_runsBeside_action? (h : nested.IsBuilt) (htwins : cursor.Twins other) :
    RunsBeside Twins (Option.Rel fun statement action => statement.action = action) nested.statement?
      nested.action? cursor other := by
  rw [← bind_pure nested.action?]
  apply h.action?.bindBeside arePaired_twins htwins
  intro action after after' htwins
  cases action with
  | none => exact .pure .none htwins
  | some action => exact comments_bindBeside htwins fun texts after htwins => .pure (.some rfl) htwins

/-- A script is its actions but for the comments. -/
theorem script_runsBeside_actions (h : nested.IsBuilt) (htwins : cursor.Twins other) :
    RunsBeside Twins (fun script actions => script.statements.map Statement.action = actions) nested.script
      (many (itemOf nested.action?)) cursor other := by
  rw [← bind_pure (many (itemOf nested.action?))]
  have hitems (cursor other : Cursor) (htwins : cursor.Twins other) :
      RunsBeside Twins (Option.Rel fun statement action => statement.action = action) nested.scriptItem?
        (itemOf nested.action?) cursor other := by
    rw [scriptItem?_eq]
    exact itemOf_runsBeside arePaired_twins (fun _ _ htwins => statement?_runsBeside_action? h htwins) htwins
  apply (RunsBeside.many arePaired_twins hitems htwins).bind
  intro statements actions after after' hstatements htwins
  refine comments_bindBeside htwins fun texts after htwins => .pure ?_ htwins
  rw [← List.forall₂_eq_eq_eq, List.forall₂_map_left_iff]
  exact hstatements

end Scripts

section Actions

variable {source other : String} {stream stream' joined : TokenStream} {found found' : List Action}
  {after after' : Cursor}

/-- A script read without its comments. -/
def actions : Rule (List Action) :=
  many (itemOf (nestedAt maxDepth).action?)

theorem isBuilt_action? : (nestedAt maxDepth).action?.IsBuilt :=
  (Nested.isBuilt_nestedAt maxDepth).action?

theorem isLocal_action? : (nestedAt maxDepth).action?.IsLocal ifFound :=
  (Nested.satisfies_nestedAt isClosed_isLocal maxDepth).action? isClosed_isLocal

theorem opensAt_startOf (h : actions (startOf source stream) = .ok found after) :
    ∀ ahead < (startOf source stream).remaining, (startOf source stream).opensAt ahead = false :=
  (readsOn_of_many_itemOf isBuilt_action? isLocal_action? (.refl rfl) h).opens

/-- The actions read from tokens with a semicolon between them are those of the tokens before it and those of
the tokens after it. -/
theorem actions_append (text : String) {offset bytes : Nat}
    (hrun : actions (startOf source stream) = .ok found after)
    (hrun' : actions (startOf other stream') = .ok found' after')
    (htokens : joined.tokens =
      stream.tokens ++ ⟨.semicolon, ";", offset⟩ :: stream'.tokens.map (Token.moved · bytes)) :
    ∃ last, actions (startOf text joined) = .ok (found ++ found') last := by
  have hmoved : stream.tokens.map (Token.moved · 0) = stream.tokens := List.map_id stream.tokens
  have hdrop (count : Nat) : ((startOf text joined).advance count).tokens.toList.drop
      ((startOf text joined).advance count).pos = joined.tokens.drop count := by
    simp [startOf, ofStream, forgetful, Cursor.advance]
  have hrest : joined.tokens.drop (stream.tokens.length + 1) = stream'.tokens.map (Token.moved · bytes) := by
    rw [htokens, ← List.drop_drop, List.drop_left, List.drop_succ_cons, List.drop_zero]
  have hleft : (startOf source stream).StopsWithin (startOf text joined) := by
    have hall : (startOf text joined).tokens.toList.drop (startOf text joined).pos =
        ((startOf source stream).tokens.toList.drop (startOf source stream).pos).map (Token.moved · 0) ++
          ⟨.semicolon, ";", offset⟩ :: stream'.tokens.map (Token.moved · bytes) := by
      rw [tokens_startOf, tokens_startOf, hmoved, htokens]
    exact .of_drop hall (by simp [semicolon]) rfl rfl rfl
  have hright : (startOf other stream').StopsWithin
      ((startOf text joined).advance (stream.tokens.length + 1)) := by
    have hall : ((startOf text joined).advance (stream.tokens.length + 1)).tokens.toList.drop
          ((startOf text joined).advance (stream.tokens.length + 1)).pos =
        ((startOf other stream').tokens.toList.drop (startOf other stream').pos).map
          (Token.moved · bytes) ++ [] := by
      rw [hdrop, hrest, tokens_startOf, List.append_nil]
    exact .of_drop hall (by simp) rfl rfl rfl
  have hsees : ((startOf text joined).advance stream.tokens.length).sees ";" = true := by
    rw [Cursor.sees, seesAt, token?_eq_drop, hdrop, htokens, List.drop_left]
    rfl
  have hend :
      ((startOf text joined).advance (stream.tokens.length + 1 + stream'.tokens.length)).atEnd = true := by
    rw [atEnd_eq_look?, look?, token?_eq_drop, hdrop, ← List.drop_drop, hrest]
    simp
  have hfirst := (readsOn_of_many_itemOf isBuilt_action? isLocal_action? hleft hrun).run
  have hsecond := (readsOn_of_many_itemOf isBuilt_action? isLocal_action? hright hrun').run
  have hprogress := itemOf_progresses isBuilt_action?
  rw [remaining_startOf] at hfirst
  rw [remaining_startOf, advance_advance, map_eq_bind, bind_apply, many_itemOf_of_atEnd hend] at hsecond
  dsimp only at hsecond
  rw [pure_apply, List.append_nil] at hsecond
  rw [map_eq_bind, bind_apply, many_itemOf_of_sees hprogress rfl hsees, advance_advance, hsecond] at hfirst
  exact ⟨_, hfirst⟩

end Actions

end Grammar

namespace Script

open Cursor Rule

variable {source other : String} {stream : TokenStream} {script script' : Script}

/-- The actions of a source are read independently of its comments. -/
theorem exists_ofSource_iff (h : TokenStream.ofSource source = .ok stream) (found : List Action) :
    (∃ script, Script.ofSource source = .ok script ∧ script.statements.map Statement.action = found) ↔
      ∃ after, Grammar.actions (startOf source stream) = .ok found after := by
  have htwins : (startOf source stream).Twins (startOf source stream) := ⟨.refl _, rfl, rfl⟩
  have hread := ofSource_of_stream h
  have hdepth : Grammar.atDepth Grammar.Nested.script (startOf source stream) =
      (Grammar.nestedAt maxDepth).script (startOf source stream) := rfl
  rw [← startOf, hdepth] at hread
  cases Grammar.script_runsBeside_actions (Grammar.Nested.isBuilt_nestedAt maxDepth) htwins with
  | gives script found' last last' hsame hscript hactions _ _ _ =>
    rw [hscript] at hread
    rw [Grammar.actions, hactions]
    constructor
    · rintro ⟨other, hother, rfl⟩
      rw [hread] at hother
      cases hother
      exact ⟨last', by rw [hsame]⟩
    · rintro ⟨after, hafter⟩
      cases hafter
      exact ⟨script, hread, hsame⟩
  | fails cause index last last' hscript hactions =>
    rw [hscript] at hread
    rw [Grammar.actions, hactions]
    constructor
    · rintro ⟨other, hother, -⟩
      rw [hread] at hother
      cases hother
    · rintro ⟨after, hafter⟩
      cases hafter

theorem exists_stream_of_ofSource (h : Script.ofSource source = .ok script) :
    ∃ stream after, TokenStream.ofSource source = .ok stream ∧
      Grammar.actions (startOf source stream) = .ok (script.statements.map Statement.action) after := by
  have hrun := h
  rw [Script.ofSource, Grammar.runOn_eq_runAfreshOn (Grammar.isTame_atDepth Grammar.isTame_script)] at hrun
  obtain ⟨stream, -, hstream, -⟩ := Grammar.exists_run_of_runAfreshOn hrun
  obtain ⟨after, hactions⟩ := (exists_ofSource_iff hstream _).mp ⟨script, h, rfl⟩
  exact ⟨stream, after, hstream, hactions⟩

/-- The comments of a script are those of the stream. -/
theorem comments_eq_of_stream (h : Script.ofSource source = .ok script)
    (hstream : TokenStream.ofSource source = .ok stream) :
    script.comments = stream.comments.map Comment.text := by
  obtain ⟨rfl, -⟩ := TokenStream.eq_sort_of_ofSource hstream
  rw [comments_of_ofSource h, TokenStream.sort_comments_text]

theorem statements_withoutComments (script : Script) :
    script.withoutComments.statements =
      (script.statements.map Statement.action).map fun action => ⟨[], action⟩ := by
  rw [List.map_map]
  rfl

/-- The statements of two sources are read independently of each other, and all comments are kept. -/
theorem exists_ofSource_append (h : Script.ofSource source = .ok script)
    (h' : Script.ofSource other = .ok script') :
    ∃ joined, Script.ofSource (source ++ "\n;\n" ++ other) = .ok joined ∧
      joined.withoutComments.statements =
        script.withoutComments.statements ++ script'.withoutComments.statements ∧
      joined.comments = script.comments ++ script'.comments := by
  obtain ⟨stream, after, hstream, hactions⟩ := exists_stream_of_ofSource h
  obtain ⟨stream', after', hstream', hactions'⟩ := exists_stream_of_ofSource h'
  have hopen := isChain_of_opensAt hstream (Grammar.opensAt_startOf hactions)
  obtain ⟨joined, hjoined, htokens, hcomments⟩ := TokenStream.ofSource_append hstream hstream' hopen
  obtain ⟨last, hlast⟩ := Grammar.actions_append (source ++ "\n;\n" ++ other) hactions hactions' htokens
  obtain ⟨script'', hscript, hstatements⟩ := (exists_ofSource_iff hjoined _).mpr ⟨last, hlast⟩
  refine ⟨script'', hscript, ?_, ?_⟩
  · rw [statements_withoutComments, statements_withoutComments, statements_withoutComments, hstatements,
      List.map_append]
  · rw [comments_eq_of_stream hscript hjoined, comments_eq_of_stream h hstream,
      comments_eq_of_stream h' hstream', hcomments]

/-- An open block comment in a line comment does not reach the next source. -/
theorem exists_ofSource_append_open :
    ∃ script script', Script.ofSource "SELECT 1 / 2 -- /*" = .ok script ∧
      Script.ofSource ";SELECT 3; SELECT * FROM t # */" = .ok script' ∧
      ∃ joined,
        Script.ofSource ("SELECT 1 / 2 -- /*" ++ "\n;\n" ++ ";SELECT 3; SELECT * FROM t # */") = .ok joined ∧
        joined.withoutComments.statements =
          script.withoutComments.statements ++ script'.withoutComments.statements ∧
        joined.comments = script.comments ++ script'.comments := by
  have hread : (Script.ofSource "SELECT 1 / 2 -- /*").isOk := by decide +kernel
  have hread' : (Script.ofSource ";SELECT 3; SELECT * FROM t # */").isOk := by decide +kernel
  obtain ⟨script, hscript⟩ := exists_of_isOk hread
  obtain ⟨script', hscript'⟩ := exists_of_isOk hread'
  exact ⟨script, script', hscript, hscript', exists_ofSource_append hscript hscript'⟩

end Script

end SqlLayout
