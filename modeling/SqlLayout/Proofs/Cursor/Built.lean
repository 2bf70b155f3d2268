import SqlLayout.Proofs.Cursor.Agreement
import SqlLayout.Proofs.Token.Angles

/-!
# Rules Built from Looking and Taking

A rule is built when it does nothing but look at the kinds and texts of tokens, take tokens, try
alternatives and go a level deeper. Offsets, blanks and comments play no part in it, but for the closing
angle brackets that touch, and neither does what has been handed out. So a built rule reads two streams
that look alike in the same way, and leaves everything but the place of the cursor as it was.
-/

namespace SqlLayout

namespace Cursor

/-- The same cursor at another place. -/
def moveTo (cursor : Cursor) (pos : Nat) : Cursor :=
  { cursor with pos }

/-- The kind and the text of the token some steps ahead. -/
def look? (cursor : Cursor) (ahead : Nat) : Option (Token.Kind × String) :=
  (cursor.token? ahead).map fun token => (token.kind, token.text)

/-- The span of the token with a number, or the empty one at the end. -/
def spanAt (cursor : Cursor) (index : Nat) : Span :=
  match cursor.tokens[index]? with
  | some token => token.span
  | none => { start := cursor.size, stop := cursor.size }

/-- Two cursors at the same place of streams that differ in their layout alone. -/
structure LooksLike (cursor other : Cursor) : Prop where
  tokens : cursor.tokens.toList.map (fun token => (token.kind, token.text)) =
    other.tokens.toList.map fun token => (token.kind, token.text)
  joined : ∀ pos, (cursor.moveTo pos).seesJoined [">", ">"] = (other.moveTo pos).seesJoined [">", ">"]
  pos_eq : cursor.pos = other.pos
  depth_eq : cursor.depth = other.depth

/-- A question about what can be seen of the tokens. -/
def IsLook {α : Type} (question : Cursor → α) : Prop :=
  ∀ cursor other : Cursor, cursor.LooksLike other → question cursor = question other

namespace LooksLike

variable {cursor other : Cursor}

theorem refl (cursor : Cursor) : cursor.LooksLike cursor :=
  ⟨rfl, fun _ => rfl, rfl, rfl⟩

theorem moveTo (h : cursor.LooksLike other) (pos : Nat) :
    (cursor.moveTo pos).LooksLike (other.moveTo pos) :=
  ⟨h.tokens, h.joined, rfl, h.depth_eq⟩

theorem deeper (h : cursor.LooksLike other) :
    LooksLike { cursor with depth := cursor.depth + 1 } { other with depth := other.depth + 1 } :=
  ⟨h.tokens, h.joined, h.pos_eq, congrArg (· + 1) h.depth_eq⟩

theorem look?_eq (h : cursor.LooksLike other) (ahead : Nat) :
    cursor.look? ahead = other.look? ahead := by
  have htokens := congrArg (fun tokens => tokens[cursor.pos + ahead]?) h.tokens
  simp only [List.getElem?_map, Array.getElem?_toList] at htokens
  rw [look?, look?, token?, token?, htokens, h.pos_eq]

theorem size_eq (h : cursor.LooksLike other) : cursor.tokens.size = other.tokens.size := by
  have hlength := congrArg List.length h.tokens
  simpa using hlength

end LooksLike

section Looking

variable {cursor other : Cursor}

theorem isLook_look? (ahead : Nat) : IsLook (·.look? ahead) :=
  fun _ _ h => h.look?_eq ahead

theorem IsLook.comp {α β : Type} {question : Cursor → α} (h : IsLook question) (change : α → β) :
    IsLook fun cursor => change (question cursor) :=
  fun cursor other halike => congrArg change (h cursor other halike)

theorem kind?_eq_look? (cursor : Cursor) (ahead : Nat) :
    cursor.kind? ahead = (cursor.look? ahead).map Prod.fst := by
  simp [kind?, look?, Function.comp_def]

theorem text?_eq_look? (cursor : Cursor) : cursor.text? = (cursor.look? 0).map Prod.snd := by
  simp [text?, look?, Function.comp_def]

theorem isLook_text? : IsLook text? := by
  have htext := (isLook_look? 0).comp (Option.map Prod.snd)
  intro cursor other h
  rw [text?_eq_look?, text?_eq_look?]
  exact htext cursor other h

theorem seesAt_eq_look? (cursor : Cursor) (ahead : Nat) (pattern : String) :
    cursor.seesAt ahead pattern = (cursor.look? ahead).any fun look => fits pattern ⟨look.1, look.2, 0⟩ := by
  unfold seesAt look?
  cases cursor.token? ahead <;> rfl

theorem isLook_seesAt (ahead : Nat) (pattern : String) : IsLook (·.seesAt ahead pattern) := by
  simp only [seesAt_eq_look?]
  exact (isLook_look? ahead).comp _

theorem isLook_sees (pattern : String) : IsLook (·.sees pattern) :=
  isLook_seesAt 0 pattern

theorem isLook_seesAll (patterns : List String) : IsLook (·.seesAll patterns) := by
  intro cursor other h
  suffices hall : ∀ ahead, cursor.seesAllAt ahead patterns = other.seesAllAt ahead patterns from hall 0
  induction patterns with
  | nil => exact fun _ => rfl
  | cons pattern patterns ih =>
    intro ahead
    have hsees : cursor.seesAt ahead pattern = other.seesAt ahead pattern :=
      isLook_seesAt ahead pattern cursor other h
    rw [seesAllAt, seesAllAt, hsees, ih]

/-- The texts of some tokens ahead. -/
def texts (cursor : Cursor) (count : Nat) : List String :=
  ((List.range count).filterMap cursor.token?).map Token.text

theorem isLook_texts (count : Nat) : IsLook (·.texts count) := by
  have htexts (cursor : Cursor) : cursor.texts count =
      (List.range count).filterMap fun ahead => (cursor.look? ahead).map Prod.snd := by
    simp [texts, look?, List.map_filterMap, Function.comp_def]
  intro cursor other h
  simp only [htexts, h.look?_eq]

theorem isLook_remaining : IsLook remaining :=
  fun _ _ h => by rw [remaining, remaining, h.size_eq, h.pos_eq]

theorem isLook_atEnd : IsLook atEnd :=
  fun _ _ h => by rw [atEnd, atEnd, h.size_eq, h.pos_eq]

theorem isLook_depth : IsLook depth :=
  fun _ _ h => h.depth_eq

theorem isLook_seesJoined : IsLook (·.seesJoined [">", ">"]) := by
  intro cursor other h
  calc
    cursor.seesJoined [">", ">"] = (other.moveTo cursor.pos).seesJoined [">", ">"] :=
      h.joined cursor.pos
    _ = other.seesJoined [">", ">"] := by rw [h.pos_eq, moveTo]

end Looking

end Cursor

namespace Rule

/-- Rules put together from looking at the next tokens and taking them. -/
inductive IsBuilt : {α : Type} → Rule α → Prop
  | pure {α : Type} (value : α) : IsBuilt (pure value : Rule α)
  | bind {α β : Type} {rule : Rule α} {next : α → Rule β} (h : IsBuilt rule)
    (hnext : ∀ value, IsBuilt (next value)) : IsBuilt (rule >>= next)
  | expected {α : Type} (what : String) : IsBuilt (expected what : Rule α)
  | tooDeep {α : Type} : IsBuilt (tooDeep : Rule α)
  | ask {α : Type} {question : Cursor → α} (h : Cursor.IsLook question) : IsBuilt (ask question)
  | advance (count : Nat) : IsBuilt (fun cursor => .ok () (cursor.advance count) : Rule Unit)
  | attempt {α : Type} {rule : Rule (Option α)} (h : IsBuilt rule) : IsBuilt (attempt rule)
  | descend {α : Type} {rule : Rule α} (h : IsBuilt rule) : IsBuilt (descend rule)
  | once {rule : Rule (Option Query)} (h : IsBuilt rule) : IsBuilt (once rule)

/-- Two runs of a rule from cursors that look alike: both give the same value and go on to the same
place, leaving the rest of the cursor as it was, or both fail at the same token for the same reason. -/
inductive RunsAlike {α : Type} (rule : Rule α) (cursor other : Cursor) : Prop
  | gives (value : α) (pos : Nat) (hpos : cursor.pos ≤ pos)
    (h : rule cursor = .ok value (cursor.moveTo pos))
    (hother : rule other = .ok value (other.moveTo pos))
  | fails (cause : Cause) (index : Nat) (after after' : Cursor)
    (h : rule cursor = .error ⟨cursor.spanAt index, cause⟩ after)
    (hother : rule other = .error ⟨other.spanAt index, cause⟩ after')

section Runs

variable {α β : Type} {cursor other : Cursor}

theorem RunsAlike.of_eq {rule rule' : Rule α} (h : rule'.RunsAlike cursor other)
    (heq : rule cursor = rule' cursor) (hother : rule other = rule' other) :
    rule.RunsAlike cursor other := by
  cases h with
  | gives value pos hpos h h' => exact .gives value pos hpos (heq.trans h) (hother.trans h')
  | fails cause index after after' h h' =>
    exact .fails cause index after after' (heq.trans h) (hother.trans h')

theorem RunsAlike.bind {rule : Rule α} {next : α → Rule β} (h : rule.RunsAlike cursor other)
    (hnext : ∀ value pos, (next value).RunsAlike (cursor.moveTo pos) (other.moveTo pos)) :
    (rule >>= next).RunsAlike cursor other := by
  cases h with
  | fails cause index after after' h h' =>
    refine .fails cause index after after' ?_ ?_
    · rw [bind_apply, h]
    · rw [bind_apply, h']
  | gives value pos hpos h h' =>
    cases hnext value pos with
    | gives last stop hstop hlast hlast' =>
      refine .gives last stop (Nat.le_trans hpos hstop) ?_ ?_
      · rw [bind_of_ok h, hlast, Cursor.moveTo]
        rfl
      · rw [bind_of_ok h', hlast']
        rfl
    | fails cause index after after' hlast hlast' =>
      refine .fails cause index after after' ?_ ?_
      · rw [bind_of_ok h]
        exact hlast
      · rw [bind_of_ok h']
        exact hlast'

theorem RunsAlike.attempt {rule : Rule (Option α)} (h : rule.RunsAlike cursor other)
    (hpos : cursor.pos = other.pos) : (Rule.attempt rule).RunsAlike cursor other := by
  cases h with
  | fails cause index after after' h h' =>
    refine .fails cause index after after' ?_ ?_
    · rw [attempt_apply, h]
    · rw [attempt_apply, h']
  | gives value pos hle h h' =>
    cases value with
    | none =>
      refine .gives none cursor.pos (Nat.le_refl _) ?_ ?_
      · rw [attempt_apply, h]
        rfl
      · rw [attempt_apply, h', hpos]
        rfl
    | some value =>
      refine .gives (some value) pos hle ?_ ?_
      · rw [attempt_apply, h]
      · rw [attempt_apply, h']

theorem once_of_forgetful {rule : Rule (Option Query)} (hplain : cursor.forgetful = cursor)
    (hkeeps : ∀ value after, rule cursor = .ok value after → after.keepsOutcomes = false) :
    once rule cursor = Rule.attempt rule cursor := by
  apply once_of_not_keeps _ hkeeps
  rw [← hplain]
  rfl

/-- A built rule cannot tell apart two streams that differ in their layout alone, as long as nothing is
kept. -/
theorem IsBuilt.runsAlike {rule : Rule α} (h : rule.IsBuilt) (hlook : cursor.LooksLike other)
    (hplain : cursor.forgetful = cursor) (hplain' : other.forgetful = other) :
    rule.RunsAlike cursor other := by
  induction h generalizing cursor other with
  | pure value => exact .gives value cursor.pos (Nat.le_refl _) rfl (by rw [hlook.pos_eq]; rfl)
  | bind _ _ ih ihnext =>
    apply (ih hlook hplain hplain').bind
    intro value pos
    apply ihnext value (hlook.moveTo pos)
    · exact congrArg (Cursor.moveTo · pos) hplain
    · exact congrArg (Cursor.moveTo · pos) hplain'
  | expected what =>
    refine .fails (.expected what cursor.text?) cursor.pos cursor other rfl ?_
    rw [Cursor.isLook_text? cursor other hlook, hlook.pos_eq]
    rfl
  | tooDeep =>
    refine .fails (.tooDeep Cursor.maxDepth) cursor.pos cursor other rfl ?_
    rw [hlook.pos_eq]
    rfl
  | @ask _ question h =>
    refine .gives (question cursor) cursor.pos (Nat.le_refl _) rfl ?_
    rw [ask_apply, h cursor other hlook, hlook.pos_eq]
    rfl
  | advance count =>
    refine .gives () (cursor.pos + count) (Nat.le_add_right _ _) rfl ?_
    rw [hlook.pos_eq]
    rfl
  | attempt _ ih => exact (ih hlook hplain hplain').attempt hlook.pos_eq
  | @descend _ rule _ ih =>
    by_cases hdepth : Cursor.maxDepth ≤ cursor.depth
    · refine .fails (.tooDeep Cursor.maxDepth) cursor.pos cursor other ?_ ?_
      · rw [Rule.descend, if_pos hdepth]
        rfl
      · rw [Rule.descend, if_pos (hlook.depth_eq ▸ hdepth), hlook.pos_eq]
        rfl
    · have hdepth' : ¬Cursor.maxDepth ≤ other.depth := hlook.depth_eq ▸ hdepth
      have hinner := ih hlook.deeper
        (congrArg (fun cursor : Cursor => { cursor with depth := cursor.depth + 1 }) hplain)
        (congrArg (fun cursor : Cursor => { cursor with depth := cursor.depth + 1 }) hplain')
      cases hinner with
      | gives value pos hpos h h' =>
        refine .gives value pos hpos ?_ ?_
        · rw [Rule.descend, if_neg hdepth, h]
          rfl
        · rw [Rule.descend, if_neg hdepth', h']
          rfl
      | fails cause index after after' h h' =>
        refine .fails cause index { after with depth := after.depth - 1 }
          { after' with depth := after'.depth - 1 } ?_ ?_
        · rw [Rule.descend, if_neg hdepth, h]
          rfl
        · rw [Rule.descend, if_neg hdepth', h']
          rfl
  | once _ ih =>
    have hattempt := (ih hlook hplain hplain').attempt hlook.pos_eq
    have hinner := ih hlook hplain hplain'
    apply hattempt.of_eq
    · apply once_of_forgetful hplain
      intro value after hrun
      cases hinner with
      | gives value pos hpos h h' =>
        rw [h] at hrun
        cases hrun
        exact congrArg Cursor.keepsOutcomes hplain.symm
      | fails cause index after after' h h' =>
        rw [h] at hrun
        cases hrun
    · apply once_of_forgetful hplain'
      intro value after hrun
      cases hinner with
      | gives value pos hpos h h' =>
        rw [h'] at hrun
        cases hrun
        exact congrArg Cursor.keepsOutcomes hplain'.symm
      | fails cause index after after' h h' =>
        rw [h'] at hrun
        cases hrun

end Runs

namespace IsBuilt

variable {α β : Type} {rule : Rule α}

theorem ite {condition : Prop} [Decidable condition] {other : Rule α} (h : rule.IsBuilt)
    (hother : other.IsBuilt) : (if condition then rule else other).IsBuilt := by
  split
  · exact h
  · exact hother

theorem map (h : rule.IsBuilt) (change : α → β) : (change <$> rule).IsBuilt := by
  rw [map_eq_bind]
  exact h.bind fun value => .pure _

theorem discard (h : rule.IsBuilt) : (Functor.discard rule).IsBuilt := by
  rw [discard_eq_bind]
  exact h.bind fun _ => .pure _

theorem many {rule : Rule (Option α)} (h : rule.IsBuilt) : (Rule.many rule).IsBuilt := by
  have hrepeat (steps : Nat) : (repeatUpTo steps rule).IsBuilt := by
    induction steps with
    | zero => exact .pure []
    | succ steps ih =>
      apply h.bind
      intro value
      cases value with
      | none => exact .pure []
      | some value => exact ih.bind fun _ => .pure _
  have hsteps : IsBuilt (Rule.ask fun cursor => cursor.remaining + 1) :=
    .ask (Cursor.isLook_remaining.comp (· + 1))
  exact hsteps.bind hrepeat

end IsBuilt

section Taking

theorem isBuilt_sees (pattern : String) : (sees pattern).IsBuilt :=
  .ask (Cursor.isLook_sees pattern)

/-- To take a token is to look at its text and to go on by one. -/
theorem bump_eq : bump = (ask Cursor.text? >>= fun text =>
    match text with
    | some text => (do (fun cursor => .ok () (cursor.advance 1) : Rule Unit); return some text)
    | none => return none) := by
  funext cursor
  rw [bind_of_ok (ask_apply _ _), bump]
  cases cursor.text? <;> rfl

theorem isBuilt_bump : bump.IsBuilt := by
  rw [bump_eq]
  apply (IsBuilt.ask Cursor.isLook_text?).bind
  intro text
  cases text with
  | none => exact .pure none
  | some text => exact (IsBuilt.advance 1).bind fun _ => .pure _

theorem isBuilt_take? (pattern : String) : (take? pattern).IsBuilt :=
  (isBuilt_sees pattern).bind fun _ => (isBuilt_bump).ite (.pure none)

theorem isBuilt_skip (pattern : String) : (skip pattern).IsBuilt :=
  (isBuilt_take? pattern).map _

theorem isBuilt_takeAll? (patterns : List String) : (takeAll? patterns).IsBuilt := by
  have htake : takeAll? patterns = (ask (·.seesAll patterns) >>= fun areThere =>
      if patterns.isEmpty || !areThere then return none
      else do
        let text ← ask Cursor.text?
        (fun cursor => .ok () (cursor.advance patterns.length) : Rule Unit)
        return text) := by
    funext cursor
    rw [bind_of_ok (ask_apply _ _), takeAll?]
    split <;> rfl
  rw [htake]
  apply (IsBuilt.ask (Cursor.isLook_seesAll patterns)).bind
  intro areThere
  apply (IsBuilt.pure none).ite
  exact (IsBuilt.ask Cursor.isLook_text?).bind fun _ => (IsBuilt.advance _).bind fun _ => .pure _

theorem isBuilt_takeJoined? : (takeJoined? [">", ">"]).IsBuilt := by
  have htake : takeJoined? [">", ">"] = (ask (·.seesJoined [">", ">"]) >>= fun areThere =>
      if !areThere then return none
      else do
        let text ← ask fun cursor => String.join (cursor.texts 2)
        (fun cursor => .ok () (cursor.advance 2) : Rule Unit)
        return some text) := by
    funext cursor
    rw [bind_of_ok (ask_apply _ _), takeJoined?]
    simp only [List.isEmpty_cons, Bool.false_or, List.length_cons, List.length_nil]
    split <;> rfl
  rw [htake]
  apply (IsBuilt.ask Cursor.isLook_seesJoined).bind
  intro areThere
  apply (IsBuilt.pure none).ite
  apply (IsBuilt.ask ((Cursor.isLook_texts 2).comp String.join)).bind
  intro text
  exact (IsBuilt.advance 2).bind fun _ => .pure _

end Taking

end Rule

end SqlLayout
