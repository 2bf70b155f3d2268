import SqlLayout.Proofs.Grammar.Replay
import SqlLayout.Proofs.Script.Item
import SqlLayout.Proofs.Token.Stream

/-!
# Sources that Look Alike

Two sources with the same significant tokens, in which the same angle brackets touch, are read in the same
way: blanks and comments have no say in it. Up to the end of a statement this holds of every built rule;
there the comments are handed out, which may differ, and so may the places they have been drained to.
-/

namespace SqlLayout

/-- A statement without the comments handed out with it. -/
def Statement.withoutComments (statement : Statement) : Statement :=
  { statement with comments := [] }

/-- A script without any comments. -/
def Script.withoutComments (script : Script) : Script :=
  { statements := script.statements.map Statement.withoutComments, trailingComments := [] }

section Touching

/-- Whether angle brackets touch says it of any two of them in a row. -/
theorem touches_of_anglesTouch {tokens others : List Token}
    (hkinds : tokens.map Token.kind = others.map Token.kind)
    (htouch : anglesTouch tokens = anglesTouch others) {pos : Nat} {first next first' next' : Token}
    (hfirst : tokens[pos]? = some first) (hnext : tokens[pos + 1]? = some next)
    (hfirst' : others[pos]? = some first') (hnext' : others[pos + 1]? = some next')
    (hangle : first.kind = .gt) (hangle' : next.kind = .gt) :
    first.touches next = first'.touches next' := by
  induction tokens generalizing others pos with
  | nil => cases hfirst
  | cons token tokens ih =>
    cases others with
    | nil => cases hfirst'
    | cons other others =>
      obtain ⟨hkind, hkinds⟩ := List.cons_eq_cons.mp hkinds
      cases tokens with
      | nil => cases hnext
      | cons token' tokens =>
        cases others with
        | nil => cases hnext'
        | cons other' others =>
          obtain ⟨hkind', -⟩ := List.cons_eq_cons.mp hkinds
          rw [anglesTouch_cons, anglesTouch_cons, ← hkind, ← hkind'] at htouch
          cases pos with
          | zero =>
            cases hfirst
            cases hnext
            cases hfirst'
            cases hnext'
            rw [hangle, hangle'] at htouch
            exact (List.cons_eq_cons.mp htouch).1
          | succ pos =>
            apply ih hkinds _ hfirst hnext hfirst' hnext'
            split at htouch
            · exact (List.cons_eq_cons.mp htouch).2
            · exact htouch

end Touching

namespace Cursor

theorem kind_of_fits_angle {token : Token} (h : token.glyph.IsGenuine) (hfits : fits ">" token = true) :
    token.kind = .gt := by
  have hangle : ∀ symbol ∈ Token.Kind.symbols, symbol.2 = ">" → symbol.1 = .gt := by decide
  have hpattern : isWordPattern ">" = false := by decide
  simp only [fits, hpattern, Bool.false_eq_true, if_false, Bool.and_eq_true, beq_iff_eq] at hfits
  exact hangle _ (Glyph.mem_symbols_of_isGenuine h hfits.1) hfits.2

theorem token?_moveTo_ofStream (size pos ahead : Nat) (stream : TokenStream) :
    ((ofStream size stream).moveTo pos).token? ahead = stream.tokens[pos + ahead]? := by
  simp [token?, moveTo, ofStream]

/-- Streams with the same tokens and the same touching brackets look alike from the start on. -/
theorem LooksLike.of_streams {size size' : Nat} {stream other : TokenStream}
    (htokens : stream.tokens.map (fun token => (token.kind, token.text)) =
      other.tokens.map fun token => (token.kind, token.text))
    (htouch : anglesTouch stream.tokens = anglesTouch other.tokens)
    (hgenuine : ∀ token ∈ stream.tokens, token.glyph.IsGenuine)
    (hgenuine' : ∀ token ∈ other.tokens, token.glyph.IsGenuine) :
    (ofStream size stream).LooksLike (ofStream size' other) := by
  have hkinds : stream.tokens.map Token.kind = other.tokens.map Token.kind := by
    have hmap := congrArg (List.map Prod.fst) htokens
    simpa [Function.comp_def] using hmap
  -- What one cursor sees joined the other one sees joined as well.
  have hjoined {size size' : Nat} {stream other : TokenStream}
      (htokens : stream.tokens.map (fun token => (token.kind, token.text)) =
        other.tokens.map fun token => (token.kind, token.text))
      (hkinds : stream.tokens.map Token.kind = other.tokens.map Token.kind)
      (htouch : anglesTouch stream.tokens = anglesTouch other.tokens)
      (hgenuine : ∀ token ∈ stream.tokens, token.glyph.IsGenuine) {pos : Nat}
      (h : ((ofStream size stream).moveTo pos).seesJoined [">", ">"] = true) :
      ((ofStream size' other).moveTo pos).seesJoined [">", ">"] = true := by
    obtain ⟨first, next, hfirst, hnext, hfits, hfits', htouches⟩ := seesJoined_iff.mp h
    rw [token?_moveTo_ofStream] at hfirst hnext
    have hlook (index : Nat) : (stream.tokens[index]?).map (fun token => (token.kind, token.text)) =
        (other.tokens[index]?).map fun token => (token.kind, token.text) := by
      rw [← List.getElem?_map, ← List.getElem?_map, htokens]
    have hsame {index : Nat} {token : Token} (htoken : stream.tokens[index]? = some token) :
        ∃ token', other.tokens[index]? = some token' ∧ token'.kind = token.kind ∧
          token'.text = token.text := by
      have hother := hlook index
      rw [htoken, Option.map_some] at hother
      obtain ⟨token', htoken', heq⟩ := Option.map_eq_some_iff.mp hother.symm
      exact ⟨token', htoken', congrArg Prod.fst heq, congrArg Prod.snd heq⟩
    obtain ⟨first', hfirst', hkind, htext⟩ := hsame hfirst
    obtain ⟨next', hnext', hkind', htext'⟩ := hsame hnext
    have hangle := kind_of_fits_angle (hgenuine first (List.mem_of_getElem? hfirst)) hfits
    have hangle' := kind_of_fits_angle (hgenuine next (List.mem_of_getElem? hnext)) hfits'
    refine seesJoined_iff.mpr ⟨first', next', ?_, ?_, ?_, ?_, ?_⟩
    · rw [token?_moveTo_ofStream, hfirst']
    · rw [token?_moveTo_ofStream, hnext']
    · rw [← hfits, fits, fits, hkind, htext]
    · rw [← hfits', fits, fits, hkind', htext']
    · rw [← touches_of_anglesTouch hkinds htouch hfirst hnext hfirst' hnext' hangle hangle']
      exact htouches
  refine ⟨by simpa [ofStream] using htokens, fun pos => ?_, rfl, rfl⟩
  rw [Bool.eq_iff_iff]
  exact ⟨hjoined htokens hkinds htouch hgenuine,
    hjoined htokens.symm hkinds.symm htouch.symm hgenuine'⟩

/-- Two cursors that look alike and keep nothing. -/
structure Twins (cursor other : Cursor) : Prop extends cursor.LooksLike other where
  plain : cursor.forgetful = cursor
  plain' : other.forgetful = other

theorem Twins.moveTo {cursor other : Cursor} (h : cursor.Twins other) (pos : Nat) :
    (cursor.moveTo pos).Twins (other.moveTo pos) :=
  ⟨h.toLooksLike.moveTo pos, congrArg (Cursor.moveTo · pos) h.plain,
    congrArg (Cursor.moveTo · pos) h.plain'⟩

/-- Pairs of cursors that stay pairs wherever both are moved. -/
structure ArePaired (pair : Cursor → Cursor → Prop) : Prop where
  twins : ∀ {cursor other}, pair cursor other → cursor.Twins other
  moveTo : ∀ {cursor other}, pair cursor other → ∀ pos, pair (cursor.moveTo pos) (other.moveTo pos)

theorem arePaired_twins : ArePaired Twins where
  twins := id
  moveTo := Twins.moveTo

end Cursor

namespace Rule

variable {α β γ δ : Type} {pair : Cursor → Cursor → Prop} {cursor other : Cursor}

/-- Two rules run side by side: both give values that are related and go on at places that are a pair, or
both fail at the same token for the same reason. -/
inductive RunsBeside (pair : Cursor → Cursor → Prop) (related : α → β → Prop) (rule : Rule α)
    (rule' : Rule β) (cursor other : Cursor) : Prop
  | gives (value : α) (value' : β) (after after' : Cursor) (hrelated : related value value')
    (h : rule cursor = .ok value after) (h' : rule' other = .ok value' after')
    (hpair : pair after after') (hspan : after.spanAt = cursor.spanAt)
    (hspan' : after'.spanAt = other.spanAt)
  | fails (cause : Cause) (index : Nat) (after after' : Cursor)
    (h : rule cursor = .error ⟨cursor.spanAt index, cause⟩ after)
    (h' : rule' other = .error ⟨other.spanAt index, cause⟩ after')

theorem IsBuilt.runsBeside {rule : Rule α} (h : rule.IsBuilt) (hpaired : Cursor.ArePaired pair)
    (hpair : pair cursor other) : RunsBeside pair Eq rule rule cursor other := by
  have htwins := hpaired.twins hpair
  cases h.runsAlike htwins.toLooksLike htwins.plain htwins.plain' with
  | gives value pos hpos hrun hrun' =>
    exact .gives value value _ _ rfl hrun hrun' (hpaired.moveTo hpair pos) rfl rfl
  | fails cause index after after' hrun hrun' => exact .fails cause index after after' hrun hrun'

theorem RunsBeside.pure {related : α → β → Prop} {value : α} {value' : β} (h : related value value')
    (hpair : pair cursor other) :
    RunsBeside pair related (Pure.pure value) (Pure.pure value') cursor other :=
  .gives value value' cursor other h rfl rfl hpair rfl rfl

theorem RunsBeside.expected {related : α → β → Prop} (hpaired : Cursor.ArePaired pair) (what : String)
    (hpair : pair cursor other) :
    RunsBeside pair related (Rule.expected what) (Rule.expected what) cursor other := by
  have hlook := (hpaired.twins hpair).toLooksLike
  refine .fails (.expected what cursor.text?) cursor.pos cursor other rfl ?_
  rw [Cursor.isLook_text? cursor other hlook, hlook.pos_eq]
  rfl

theorem RunsBeside.bind {related : α → β → Prop} {goal : γ → δ → Prop} {rule : Rule α} {rule' : Rule β}
    {next : α → Rule γ} {next' : β → Rule δ} (h : RunsBeside pair related rule rule' cursor other)
    (hnext : ∀ value value' after after', related value value' → pair after after' →
      RunsBeside pair goal (next value) (next' value') after after') :
    RunsBeside pair goal (rule >>= next) (rule' >>= next') cursor other := by
  cases h with
  | fails cause index after after' h h' =>
    refine .fails cause index after after' ?_ ?_
    · rw [bind_apply, h]
    · rw [bind_apply, h']
  | gives value value' after after' hrelated h h' hpair hspan hspan' =>
    cases hnext value value' after after' hrelated hpair with
    | gives last last' stop stop' hlast hrun hrun' hstop hstopSpan hstopSpan' =>
      refine .gives last last' stop stop' hlast ?_ ?_ hstop (hstopSpan.trans hspan)
        (hstopSpan'.trans hspan')
      · rw [bind_of_ok h, hrun]
      · rw [bind_of_ok h', hrun']
    | fails cause index stop stop' hrun hrun' =>
      refine .fails cause index stop stop' ?_ ?_
      · rw [bind_of_ok h, hrun, hspan]
      · rw [bind_of_ok h', hrun', hspan']

/-- A built rule runs first; what it gives is the same on both sides. -/
theorem IsBuilt.bindBeside {goal : γ → δ → Prop} {rule : Rule α} {next : α → Rule γ}
    {next' : α → Rule δ} (h : rule.IsBuilt) (hpaired : Cursor.ArePaired pair)
    (hpair : pair cursor other)
    (hnext : ∀ value after after', pair after after' →
      RunsBeside pair goal (next value) (next' value) after after') :
    RunsBeside pair goal (rule >>= next) (rule >>= next') cursor other := by
  apply (h.runsBeside hpaired hpair).bind
  rintro value _ after after' rfl hpair
  exact hnext value after after' hpair

/-- Both cursors of a pair hand out comments that are the same in some respect. -/
def HandsOut (pair : Cursor → Cursor → Prop) (same : List String → List String → Prop) : Prop :=
  ∀ cursor other, pair cursor other → RunsBeside pair same comments comments cursor other

/-- Handing out comments moves nothing else. -/
theorem twins_comments (htwins : cursor.Twins other) (count count' : Nat) :
    Cursor.Twins { cursor with drained := count } { other with drained := count' } := by
  obtain ⟨hlook, hplain, hplain'⟩ := htwins
  refine ⟨⟨hlook.tokens, hlook.joined, hlook.pos_eq, hlook.depth_eq⟩, ?_, ?_⟩
  · exact congrArg (fun plain : Cursor => { plain with drained := count }) hplain
  · exact congrArg (fun plain : Cursor => { plain with drained := count' }) hplain'

theorem handsOut_twins : HandsOut Cursor.Twins fun _ _ => True :=
  fun _ _ htwins => .gives _ _ _ _ trivial rfl rfl (twins_comments htwins _ _) rfl rfl

theorem RunsBeside.many {related : α → β → Prop} {rule : Rule (Option α)} {rule' : Rule (Option β)}
    (hpaired : Cursor.ArePaired pair)
    (h : ∀ cursor other, pair cursor other → RunsBeside pair (Option.Rel related) rule rule' cursor other)
    (hpair : pair cursor other) :
    RunsBeside pair (List.Forall₂ related) (Rule.many rule) (Rule.many rule') cursor other := by
  have hrepeat (steps : Nat) {cursor other : Cursor} (hpair : pair cursor other) :
      RunsBeside pair (List.Forall₂ related) (repeatUpTo steps rule) (repeatUpTo steps rule') cursor
        other := by
    induction steps generalizing cursor other with
    | zero => exact .pure .nil hpair
    | succ steps ih =>
      apply (h cursor other hpair).bind
      rintro value value' after after' hrelated hpair
      cases hrelated with
      | none => exact .pure .nil hpair
      | some hrelated =>
        apply (ih hpair).bind
        intro values values' last last' hvalues hpair
        exact .pure (.cons hrelated hvalues) hpair
  have hremaining : cursor.remaining = other.remaining :=
    Cursor.isLook_remaining cursor other (hpaired.twins hpair).toLooksLike
  have hsteps := hrepeat (cursor.remaining + 1) hpair
  cases hsteps with
  | gives values values' after after' hrelated h h' hpair hspan hspan' =>
    rw [hremaining] at h'
    exact .gives values values' after after' hrelated h h' hpair hspan hspan'
  | fails cause index after after' h h' =>
    rw [hremaining] at h'
    exact .fails cause index after after' h h'

end Rule

namespace Grammar

open Rule

/-- Two statements do the same, and their comments are the same in some respect. -/
structure SaysSame (same : List String → List String → Prop) (statement statement' : Statement) : Prop where
  action : statement.action = statement'.action
  comments : same statement.comments statement'.comments

/-- The same for two scripts. -/
structure ScriptsSame (same : List String → List String → Prop) (script script' : Script) : Prop where
  statements : List.Forall₂ (SaysSame same) script.statements script'.statements
  comments : same script.trailingComments script'.trailingComments

section Scripts

variable {nested : Nested} {pair : Cursor → Cursor → Prop} {same : List String → List String → Prop}
  {cursor other : Cursor}

theorem statement?_runsBeside (h : nested.IsBuilt) (hpaired : Cursor.ArePaired pair)
    (hcomments : HandsOut pair same) (hpair : pair cursor other) :
    RunsBeside pair (Option.Rel (SaysSame same)) nested.statement? nested.statement? cursor other := by
  apply h.action?.bindBeside hpaired hpair
  intro action after after' hpair
  cases action with
  | none => exact .pure .none hpair
  | some action =>
    apply (hcomments after after' hpair).bind
    intro comments comments' last last' hsame hpair
    exact .pure (.some ⟨rfl, hsame⟩) hpair

theorem itemOf_runsBeside {α β : Type} {related : α → β → Prop} {rule : Rule (Option α)}
    {rule' : Rule (Option β)} (hpaired : Cursor.ArePaired pair)
    (h : ∀ cursor other, pair cursor other → RunsBeside pair (Option.Rel related) rule rule' cursor other)
    (hpair : pair cursor other) :
    RunsBeside pair (Option.Rel related) (itemOf rule) (itemOf rule') cursor other := by
  apply (isBuilt_semicolons).discard.bindBeside hpaired hpair
  rintro - after after' hpair
  apply (isBuilt_atEnd).bindBeside hpaired hpair
  intro isDone after after' hpair
  cases isDone with
  | true => exact .pure .none hpair
  | false =>
    have hrequire : RunsBeside pair related (require "a statement" rule) (require "a statement" rule')
        after after' := by
      apply (h after after' hpair).bind
      rintro value value' after after' hsame hpair
      cases hsame with
      | none => exact .expected hpaired _ hpair
      | some hsame => exact .pure hsame hpair
    apply hrequire.bind
    intro value value' after after' hsame hpair
    apply (isBuilt_skip ";").bindBeside hpaired hpair
    intro isClosed after after' hpair
    cases isClosed with
    | true => exact .pure (.some hsame) hpair
    | false =>
      apply (isBuilt_atEnd).bindBeside hpaired hpair
      intro isDone after after' hpair
      cases isDone with
      | true => exact .pure (.some hsame) hpair
      | false => exact .expected hpaired _ hpair

theorem script_runsBeside (h : nested.IsBuilt) (hpaired : Cursor.ArePaired pair)
    (hcomments : HandsOut pair same) (hpair : pair cursor other) :
    RunsBeside pair (ScriptsSame same) nested.script nested.script cursor other := by
  have hitems (cursor other : Cursor) (hpair : pair cursor other) :
      RunsBeside pair (Option.Rel (SaysSame same)) nested.scriptItem? nested.scriptItem? cursor other := by
    rw [scriptItem?_eq]
    exact itemOf_runsBeside hpaired (fun _ _ hpair => statement?_runsBeside h hpaired hcomments hpair) hpair
  apply (RunsBeside.many hpaired hitems hpair).bind
  intro statements statements' after after' hstatements hpair
  apply (hcomments after after' hpair).bind
  intro comments comments' last last' hsame hpair
  exact .pure ⟨hstatements, hsame⟩ hpair

theorem ScriptsSame.withoutComments_eq {script script' : Script} (h : ScriptsSame same script script') :
    script.withoutComments = script'.withoutComments := by
  have hstatements : List.Forall₂ Eq (script.statements.map Statement.withoutComments)
      (script'.statements.map Statement.withoutComments) := by
    rw [List.forall₂_map_left_iff, List.forall₂_map_right_iff]
    refine h.statements.imp fun statement statement' hsame => ?_
    rw [Statement.withoutComments, Statement.withoutComments, hsame.action]
  rw [List.forall₂_eq_eq_eq] at hstatements
  rw [Script.withoutComments, Script.withoutComments, hstatements]

theorem ScriptsSame.eq {script script' : Script} (h : ScriptsSame Eq script script') : script = script' := by
  have hstatements : List.Forall₂ Eq script.statements script'.statements := by
    refine h.statements.imp fun statement statement' hsame => ?_
    cases statement
    cases statement'
    cases hsame.action
    cases hsame.comments
    rfl
  rw [List.forall₂_eq_eq_eq] at hstatements
  cases script
  cases script'
  cases hstatements
  cases h.comments
  rfl

end Scripts

end Grammar

section Sources

variable {source other : String} {stream stream' : TokenStream}

theorem Cursor.Twins.of_streams (h : TokenStream.ofSource source = .ok stream)
    (h' : TokenStream.ofSource other = .ok stream')
    (htokens : stream.tokens.map (fun token => (token.kind, token.text)) =
      stream'.tokens.map fun token => (token.kind, token.text))
    (htouch : anglesTouch stream.tokens = anglesTouch stream'.tokens) :
    (Cursor.ofStream source.utf8ByteSize stream).forgetful.Twins
      (Cursor.ofStream other.utf8ByteSize stream').forgetful := by
  have hlook : (Cursor.ofStream source.utf8ByteSize stream).LooksLike
      (Cursor.ofStream other.utf8ByteSize stream') :=
    .of_streams htokens htouch (fun _ hmem => (TokenStream.isGenuine_of_mem_tokens h hmem).1)
      fun _ hmem => (TokenStream.isGenuine_of_mem_tokens h' hmem).1
  exact ⟨⟨hlook.tokens, hlook.joined, hlook.pos_eq, hlook.depth_eq⟩, rfl, rfl⟩

/-- A source is read by one run on its stream, which may as well keep nothing. -/
theorem Script.ofSource_of_stream (h : TokenStream.ofSource source = .ok stream) :
    Script.ofSource source = match Grammar.atDepth Grammar.Nested.script
        (Cursor.ofStream source.utf8ByteSize stream).forgetful with
      | .ok script _ => .ok script
      | .error failure _ => .error failure := by
  rw [Script.ofSource, Grammar.runOn_eq_runAfreshOn (Grammar.isTame_atDepth Grammar.isTame_script),
    Grammar.runAfreshOn, Cursor.ofSource, h]
  simp only [bind, Except.bind, pure, Except.pure]
  cases Grammar.atDepth Grammar.Nested.script
    (Cursor.ofStream source.utf8ByteSize stream).forgetful <;> rfl

/-- Of two sources whose first cursors are a pair, both are read and say the same, or both are refused at
the same token for the same reason. -/
theorem Script.ofSource_beside {pair : Cursor → Cursor → Prop} {same : List String → List String → Prop}
    (hpaired : Cursor.ArePaired pair) (hcomments : Rule.HandsOut pair same)
    (h : TokenStream.ofSource source = .ok stream) (h' : TokenStream.ofSource other = .ok stream')
    (hpair : pair (Cursor.ofStream source.utf8ByteSize stream).forgetful
      (Cursor.ofStream other.utf8ByteSize stream').forgetful) :
    (∃ script script' : Script, Script.ofSource source = .ok script ∧
      Script.ofSource other = .ok script' ∧ Grammar.ScriptsSame same script script') ∨
    ∃ (cause : Cause) (index : Nat),
      Script.ofSource source =
        .error ⟨(Cursor.ofStream source.utf8ByteSize stream).spanAt index, cause⟩ ∧
      Script.ofSource other =
        .error ⟨(Cursor.ofStream other.utf8ByteSize stream').spanAt index, cause⟩ := by
  have hruns : Rule.RunsBeside pair (Grammar.ScriptsSame same)
      (Grammar.atDepth Grammar.Nested.script) (Grammar.atDepth Grammar.Nested.script)
      (Cursor.ofStream source.utf8ByteSize stream).forgetful
      (Cursor.ofStream other.utf8ByteSize stream').forgetful := by
    have hdepth : (Rule.ask fun cursor : Cursor => Cursor.maxDepth - cursor.depth).IsBuilt :=
      .ask (Cursor.isLook_depth.comp (Cursor.maxDepth - ·))
    exact hdepth.bindBeside hpaired hpair fun levels _ _ hpair =>
      Grammar.script_runsBeside (Grammar.Nested.isBuilt_nestedAt levels) hpaired hcomments hpair
  rw [ofSource_of_stream h, ofSource_of_stream h']
  cases hruns with
  | gives script script' after after' hsame hrun hrun' =>
    rw [hrun, hrun']
    exact .inl ⟨script, script', rfl, rfl, hsame⟩
  | fails cause index after after' hrun hrun' =>
    rw [hrun, hrun']
    exact .inr ⟨cause, index, rfl, rfl⟩

end Sources

/-- Reading depends on the tokens alone and on which closing angle brackets touch: of two sources with the
same, both are read and say the same but for their comments, or both are refused at the same token for the
same reason. -/
theorem Script.ofSource_alike {source other : String} {stream stream' : TokenStream}
    (h : TokenStream.ofSource source = .ok stream) (h' : TokenStream.ofSource other = .ok stream')
    (htokens : stream.tokens.map (fun token => (token.kind, token.text)) =
      stream'.tokens.map fun token => (token.kind, token.text))
    (htouch : anglesTouch stream.tokens = anglesTouch stream'.tokens) :
    (∃ script script' : Script, Script.ofSource source = .ok script ∧
      Script.ofSource other = .ok script' ∧ script.withoutComments = script'.withoutComments) ∨
    ∃ (cause : Cause) (index : Nat),
      Script.ofSource source =
        .error ⟨(Cursor.ofStream source.utf8ByteSize stream).spanAt index, cause⟩ ∧
      Script.ofSource other =
        .error ⟨(Cursor.ofStream other.utf8ByteSize stream').spanAt index, cause⟩ := by
  have htwins := Cursor.Twins.of_streams h h' htokens htouch
  rcases Script.ofSource_beside Cursor.arePaired_twins Rule.handsOut_twins h h' htwins with hread | hfails
  · obtain ⟨script, script', hscript, hscript', hsame⟩ := hread
    exact .inl ⟨script, script', hscript, hscript', hsame.withoutComments_eq⟩
  · exact .inr hfails

theorem Script.ofSource_alike_shift :
    ∃ stream stream' : TokenStream,
      TokenStream.ofSource "SELECT a>>1" = .ok stream ∧
      TokenStream.ofSource "SELECT a\n>> 1 -- half" = .ok stream' ∧
      stream.tokens.map (fun token => (token.kind, token.text)) =
        stream'.tokens.map (fun token => (token.kind, token.text)) ∧
      anglesTouch stream.tokens = anglesTouch stream'.tokens ∧
      ((∃ script script' : Script, Script.ofSource "SELECT a>>1" = .ok script ∧
        Script.ofSource "SELECT a\n>> 1 -- half" = .ok script' ∧
        script.withoutComments = script'.withoutComments) ∨
      ∃ (cause : Cause) (index : Nat),
        Script.ofSource "SELECT a>>1" =
          .error ⟨(Cursor.ofStream "SELECT a>>1".utf8ByteSize stream).spanAt index, cause⟩ ∧
        Script.ofSource "SELECT a\n>> 1 -- half" =
          .error ⟨(Cursor.ofStream "SELECT a\n>> 1 -- half".utf8ByteSize stream').spanAt index, cause⟩) := by
  have hsource : TokenStream.ofSource "SELECT a>>1" = .ok (.sort 0 (Token.lex "SELECT a>>1")) :=
    TokenStream.ofSource_of_lex (by decide +kernel)
  have hother : TokenStream.ofSource "SELECT a\n>> 1 -- half" =
      .ok (.sort 0 (Token.lex "SELECT a\n>> 1 -- half")) :=
    TokenStream.ofSource_of_lex (by decide +kernel)
  have htokens : (TokenStream.sort 0 (Token.lex "SELECT a>>1")).tokens.map
        (fun token => (token.kind, token.text)) =
      (TokenStream.sort 0 (Token.lex "SELECT a\n>> 1 -- half")).tokens.map
        fun token => (token.kind, token.text) := by
    decide +kernel
  have htouch : anglesTouch (TokenStream.sort 0 (Token.lex "SELECT a>>1")).tokens =
      anglesTouch (TokenStream.sort 0 (Token.lex "SELECT a\n>> 1 -- half")).tokens := by
    decide +kernel
  exact ⟨_, _, hsource, hother, htokens, htouch, Script.ofSource_alike hsource hother htokens htouch⟩

end SqlLayout
