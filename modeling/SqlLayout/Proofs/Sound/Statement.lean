import Mathlib.Data.List.DropRight
import SqlLayout.Proofs.Sound.Query
import SqlLayout.Proofs.Token.Stream

/-!
# Scripts Are Sound

What is read from a source is a sound tree, whatever the source: its names, constants and comments are
tokens of the source, and every node is one that could have been read where it stands.
-/

namespace SqlLayout

open Rule

/-- What is shown of a genuine comment is a comment. -/
theorem Comment.isComment_text {comment : Comment} (h : comment.token.glyph.IsGenuine)
    (hkind : comment.token.kind.isComment) : IsComment comment.text := by
  have hagain (text : String) : Text.trimEnd (Text.trimEnd text) = Text.trimEnd text := by
    simp only [Text.trimEnd, String.toList_ofList, List.reverse_reverse, List.dropWhile_idempotent _]
  have hgenuine := h
  unfold Glyph.IsGenuine at hgenuine
  simp only [Token.glyph] at hgenuine
  refine ⟨?_, hagain _⟩
  unfold Comment.text
  cases hcase : comment.token.kind with
  | lineComment =>
    rw [hcase] at hgenuine
    exact .inl (Token.Scan.IsLineComment.trimEnd hgenuine)
  | blockComment =>
    rw [hcase] at hgenuine
    rw [Token.Scan.IsBlockComment.trimEnd hgenuine]
    exact .inr hgenuine
  | _ => simp [hcase, Token.Kind.isComment] at hkind

namespace Grammar

theorem gives_comments : comments.Gives fun texts => ∀ text ∈ texts, IsComment text := by
  intro cursor hclean texts after hrun
  cases hrun
  refine ⟨⟨Nat.le_refl _, rfl⟩, ?_⟩
  simp only [List.forall_mem_map]
  intro comment hcomment
  have hmem : comment ∈ cursor.comments.toList :=
    List.mem_of_mem_drop ((List.takeWhile_sublist _).subset hcomment)
  obtain ⟨hgenuine, hkind⟩ := hclean.comments comment (by simpa using hmem)
  exact Comment.isComment_text hgenuine hkind

namespace Nested.IsSound

variable {nested : Nested} (h : nested.IsSound)

include h

theorem gives_declaration : nested.declaration.Gives Declaration.IsSound :=
  (gives_declarationWith? h.type?).require _

theorem gives_options :
    nested.options.Gives fun items => (∀ item ∈ items, item.IsSound) ∧
      ∀ child ∈ Node.optionValues items, child.IsSound := by
  have hitem : nested.optionItem.Gives fun item => item.IsSound ∧ (Node.expr item.value).IsSound := by
    apply gives_identifier.bind
    intro name hname
    apply (isQuiet_expect "=").discard.gives_bind
    intro _
    apply h.gives_expr.bind
    intro value hvalue
    exact .pure ⟨⟨hname, hvalue.level_le⟩, hvalue.sound⟩
  apply (isQuiet_skip "OPTIONS").gives_bind
  intro _
  apply Gives.ite
  · intro _
    apply hitem.parenthesized.mono
    intro items hitems
    refine ⟨fun item hmem => (hitems item hmem).1, ?_⟩
    simp only [Node.optionValues, List.forall_mem_map]
    exact fun item hmem => (hitems item hmem).2
  · intro _
    exact .pure ⟨by simp, by simp [Node.optionValues]⟩

theorem gives_functionBody :
    nested.functionBody.Gives fun body => body.IsSound ∧ ∀ child ∈ Node.ofBody body, child.IsSound := by
  have hforeign : nested.foreignBody.Gives fun body =>
      body.IsSound ∧ ∀ child ∈ Node.ofBody body, child.IsSound := by
    intro cursor
    apply (gives_identifier _).bind
    intro language middle hlanguage
    apply Ensures.expect
    intro _
    have hkind : kind?.Ensures (middle.advance 1) fun kind after =>
        kind = (middle.advance 1).kind? 0 ∧ middle.advance 1 = after := .ask ⟨rfl, rfl⟩
    apply hkind.bind
    rintro kind _ ⟨rfl, rfl⟩
    apply Ensures.ite
    · intro hstring
      apply (ensures_constant hstring).bind
      rintro code after ⟨hcode, hcodeKind⟩
      apply (h.gives_options _).bind
      rintro options _ ⟨hoptions, hvalues⟩
      exact .pure ⟨⟨hlanguage, hcode, hcodeKind, hoptions⟩, hvalues⟩
    · intro _
      exact ensures_expected _
  apply (isQuiet_skip "LANGUAGE").gives_bind
  intro _
  apply Gives.ite fun _ => hforeign
  intro _
  apply (isQuiet_expect "AS").discard.gives_bind
  intro _
  apply h.gives_expr.bind
  intro body hbody
  exact .pure ⟨hbody.level_le, by simpa [Node.ofBody] using hbody.sound⟩

/-- An action and everything inside it. -/
def IsAction (action : Action) : Prop :=
  action.IsSound ∧ ∀ child ∈ Node.ofAction action, child.IsSound

theorem gives_createFunction? :
    nested.createFunction?.Gives fun value => ∀ action ∈ value, IsAction action := by
  apply (IsTame.isQuiet_createHead? _).gives_bind
  intro head
  cases head with
  | none => exact .pure (by simp)
  | some head =>
    apply gives_qualifiedName.bind
    intro name hname
    apply h.gives_declaration.parenthesized.bind
    intro params hparams
    have hrest (returns : Option SqlType) (hreturns : ∀ type ∈ returns, type.IsSound) : Gives (do
        let body ← nested.functionBody
        return some (Action.createFunction
          { orReplace := head.1, temporary := head.2, name, params, returns, body }))
        fun value => ∀ action ∈ value, IsAction action := by
      apply h.gives_functionBody.bind
      rintro body ⟨hbody, hchildren⟩
      apply Gives.pure
      rintro _ ⟨⟩
      have hlocal : FunctionDef.IsLocallySound
          { orReplace := head.1, temporary := head.2, name, params, returns, body } :=
        ⟨hname, hparams, hreturns, hbody⟩
      refine ⟨trivial, ?_⟩
      simp only [Node.ofAction, List.forall_mem_singleton]
      exact Node.isSound_iff.mpr ⟨hlocal, hchildren⟩
    apply (isQuiet_skip "RETURNS").gives_bind
    intro _
    apply Gives.ite
    · intro _
      rw [map_eq_bind, bind_assoc]
      apply h.gives_type.bind
      intro type htype
      exact hrest _ (by simpa using htype)
    · intro _
      exact hrest _ (by simp)

theorem gives_query : nested.query.Gives fun query => (Node.query query).IsSound :=
  h.gives_queryHere?.require _

theorem gives_createTable? :
    nested.createTable?.Gives fun value => ∀ action ∈ value, IsAction action := by
  apply (IsTame.isQuiet_createHead? _).gives_bind
  intro head
  cases head with
  | none => exact .pure (by simp)
  | some head =>
    apply (isQuiet_skipAll _).gives_bind
    intro ifNotExists
    apply gives_qualifiedName.bind
    intro name hname
    have hrest (columns : List Declaration) (hcolumns : ∀ column ∈ columns, column.IsSound) : Gives (do
        let options ← nested.options
        let query ← if ← skip "AS" then some <$> nested.query else pure none
        return some (Action.createTable
          { orReplace := head.1, temporary := head.2, ifNotExists, name, columns, options, query }))
        fun value => ∀ action ∈ value, IsAction action := by
      apply h.gives_options.bind
      rintro options ⟨hoptions, hvalues⟩
      have hquery (query : Option Query) (hquery : ∀ inner ∈ query, (Node.query inner).IsSound) :
          Gives (pure (some (Action.createTable
            { orReplace := head.1, temporary := head.2, ifNotExists, name, columns, options, query })))
            fun value => ∀ action ∈ value, IsAction action := by
        apply Gives.pure
        rintro _ ⟨⟩
        refine ⟨⟨hname, hcolumns, hoptions⟩, ?_⟩
        simp only [Node.ofAction, List.forall_mem_append, List.forall_mem_map, Option.mem_toList]
        exact ⟨hvalues, hquery⟩
      apply (isQuiet_skip "AS").gives_bind
      intro _
      apply Gives.ite
      · intro _
        rw [map_eq_bind, bind_assoc]
        apply h.gives_query.bind
        intro query hsound
        exact hquery _ (by simpa using hsound)
      · intro _
        exact hquery _ (by simp)
    apply (isQuiet_sees "(").gives_bind
    intro _
    apply Gives.ite
    · intro _
      exact h.gives_declaration.parenthesized.bind hrest
    · intro _
      exact hrest [] (by simp)

theorem gives_createView? :
    nested.createView?.Gives fun value => ∀ action ∈ value, IsAction action := by
  apply (IsTame.isQuiet_createHead? _).gives_bind
  intro head
  rcases head with _ | ⟨orReplace, _ | word⟩
  · exact .pure (by simp)
  · apply (isQuiet_skipAll _).gives_bind
    intro ifNotExists
    apply gives_qualifiedName.bind
    intro name hname
    apply h.gives_options.bind
    rintro options ⟨hoptions, hvalues⟩
    apply (isQuiet_expect "AS").discard.gives_bind
    intro _
    apply h.gives_query.bind
    intro query hquery
    apply Gives.pure
    rintro _ ⟨⟩
    refine ⟨⟨hname, hoptions⟩, ?_⟩
    simp only [Node.ofAction, List.forall_mem_append, List.forall_mem_singleton]
    exact ⟨hvalues, hquery⟩
  · exact .pure (by simp)

theorem gives_insert? : nested.insert?.Gives fun value => ∀ action ∈ value, IsAction action := by
  have hcolumns : insertColumns.Gives fun names => ∀ name ∈ names, name.IsSound := by
    apply (isQuiet_ask fun _ => rfl).gives_bind
    intro _
    exact .ite (fun _ => gives_identifier.parenthesized) fun _ => .pure (by simp)
  have hsource : nested.insertSource.Gives fun source =>
      source.IsSound ∧ ∀ child ∈ Node.ofInsertSource source, child.IsSound := by
    apply (isQuiet_skip "VALUES").gives_bind
    intro _
    apply Gives.ite
    · intro _
      apply h.gives_expr.parenthesized.commaSeparated.bind
      rintro rows ⟨hne, hrows⟩
      refine .pure ⟨⟨hne, fun row hrow item hitem => (hrows row hrow item hitem).level_le⟩, ?_⟩
      simp only [Node.ofInsertSource, List.mem_flatMap]
      rintro child ⟨row, hrow, hchild⟩
      exact Node.forall_exprs (fun item hitem => (hrows row hrow item hitem).sound) child hchild
    · intro _
      apply h.gives_query.bind
      intro query hquery
      exact .pure ⟨trivial, by simpa [Node.ofInsertSource] using hquery⟩
  apply (isQuiet_skip "INSERT").gives_bind
  intro _
  apply Gives.ite
  · intro _
    apply (isQuiet_skip "INTO").discard.gives_bind
    intro _
    apply gives_qualifiedName.bind
    intro table htable
    apply hcolumns.bind
    intro columns hcolumns
    apply hsource.bind
    rintro source ⟨hsource, hchildren⟩
    apply Gives.pure
    rintro _ ⟨⟩
    exact ⟨⟨htable, hcolumns, hsource⟩, hchildren⟩
  · intro _
    exact .pure (by simp)

theorem gives_action? : nested.action?.Gives fun value => ∀ action ∈ value, IsAction action := by
  have hquery : (Option.map Action.query <$> nested.queryHere?).Gives fun value =>
      ∀ action ∈ value, IsAction action := by
    apply h.gives_queryHere?.map
    intro query hquery action haction
    obtain ⟨query, rfl, rfl⟩ := Option.map_eq_some_iff.mp haction
    exact ⟨trivial, by simpa [Node.ofAction] using hquery query rfl⟩
  apply Gives.firstOf
  simp only [List.forall_mem_cons, List.not_mem_nil, IsEmpty.forall_iff, implies_true, and_true]
  exact ⟨h.gives_createFunction?, h.gives_createTable?, h.gives_createView?, h.gives_insert?, hquery⟩

theorem gives_statement? :
    nested.statement?.Gives fun value => ∀ statement ∈ value, (Node.statement statement).IsSound := by
  apply h.gives_action?.bind
  intro action haction
  cases action with
  | none => exact .pure (by simp)
  | some action =>
    obtain ⟨hsound, hchildren⟩ := haction action rfl
    apply (gives_comments).bind
    intro texts htexts
    apply Gives.pure
    rintro _ ⟨⟩
    have hlocal : Statement.IsLocallySound { comments := texts, action } := ⟨htexts, hsound⟩
    exact Node.isSound_iff.mpr ⟨hlocal, hchildren⟩

theorem gives_script : nested.script.Gives fun script => (Node.script script).IsSound := by
  have hitem : nested.scriptItem?.Gives fun value =>
      ∀ statement ∈ value, (Node.statement statement).IsSound := by
    have hsemicolons : IsQuiet (do return if ← skip ";" then some () else none) :=
      (isQuiet_skip ";").bind fun _ => .pure _
    apply hsemicolons.many.discard.gives_bind
    intro _
    apply (isQuiet_ask fun _ => rfl).gives_bind
    intro isDone
    apply Gives.ite fun _ => .pure (by simp)
    intro _
    apply (h.gives_statement?.require _).bind
    intro statement hstatement
    apply (isQuiet_skip ";").gives_bind
    intro isClosed
    have hsome : Gives (pure (some statement)) fun value =>
        ∀ statement ∈ value, (Node.statement statement).IsSound :=
      .pure (by simpa using hstatement)
    apply Gives.ite _ fun _ => hsome
    intro _
    apply (isQuiet_ask fun _ => rfl).gives_bind
    intro isDone
    exact .ite (fun _ => gives_expected _) fun _ => hsome
  apply hitem.many.bind
  intro statements hstatements
  apply (gives_comments).bind
  intro texts htexts
  apply Gives.pure
  have hlocal : (Node.script { statements, trailingComments := texts }).IsLocallySound := htexts
  refine Node.isSound_iff.mpr ⟨hlocal, ?_⟩
  simpa only [Node.children, List.forall_mem_map] using hstatements

end Nested.IsSound

section Sources

variable {α : Type}

theorem isClean_ofStream {source : String} {stream : TokenStream}
    (h : TokenStream.ofSource source = .ok stream) :
    (Cursor.ofStream source.utf8ByteSize stream).forgetful.IsClean := by
  refine ⟨rfl, rfl, ?_, ?_⟩
  · intro token htoken
    exact (TokenStream.isGenuine_of_mem_tokens h
      (by simpa [Cursor.forgetful, Cursor.ofStream] using htoken)).1
  · intro comment hcomment
    exact TokenStream.isGenuine_of_mem_comments h
      (by simpa [Cursor.forgetful, Cursor.ofStream] using hcomment)

theorem gives_atDepth {rule : Nested → Rule α} {good : α → Prop}
    (h : ∀ levels, (rule (nestedAt levels)).Gives good) : (atDepth rule).Gives good := by
  intro cursor hclean value after hrun
  exact h (Cursor.maxDepth - cursor.depth) cursor hclean value after hrun

/-- What a rule gives at every cursor it gives on every source. -/
theorem good_of_runAfreshOn {rule : Rule α} {good : α → Prop} (h : rule.Gives good) {source : String}
    {value : α} (hrun : runAfreshOn rule source = .ok value) : good value := by
  obtain ⟨stream, after, hstream, hrule⟩ := exists_run_of_runAfreshOn hrun
  exact (h _ (isClean_ofStream hstream) _ _ hrule).2

end Sources

end Grammar

/-- Every script that is read is a sound tree. -/
theorem Script.isSound_of_ofSource {source : String} {script : Script}
    (h : Script.ofSource source = .ok script) : (Node.script script).IsSound := by
  have hgives : (Grammar.atDepth Grammar.Nested.script).Gives fun script =>
      (Node.script script).IsSound :=
    Grammar.gives_atDepth fun levels => (Grammar.isSound_nestedAt levels).gives_script
  apply Grammar.good_of_runAfreshOn hgives
  rw [← Grammar.runOn_eq_runAfreshOn (Grammar.isTame_atDepth Grammar.isTame_script)]
  exact h

/-- The same for an expression. -/
theorem Expr.isOperand_of_ofSource {source : String} {expr : Expr}
    (h : Expr.ofSource source = .ok expr) : expr.IsOperand 1 := by
  have hgives : Grammar.wholeExpr.Gives fun expr => expr.IsOperand 1 := by
    have hexpr : (Grammar.atDepth Grammar.Nested.expr).Gives fun expr => expr.IsOperand 1 :=
      Grammar.gives_atDepth fun levels => (Grammar.isSound_nestedAt levels).gives_expr
    apply hexpr.bind
    intro expr hexpr
    apply (isQuiet_ask fun _ => rfl).gives_bind
    intro isDone
    exact .ite (fun _ => .pure hexpr) fun _ => gives_expected _
  apply Grammar.good_of_runAfreshOn hgives
  rw [← Expr.ofSource_afresh]
  exact h

end SqlLayout
