import SqlLayout.Proofs.Echo.Statement
import SqlLayout.Proofs.Grammar.Replay
import SqlLayout.Proofs.Sound.Statement

/-!
# Scripts in Another Case

It makes no difference in which case the words of a source are written. The rules read two sources that
differ in it like one source with all words in capitals, which is the same for both.
-/

namespace SqlLayout

namespace Grammar

variable {α : Type} {rule : Rule α} {change : α → α} {source other : String}

theorem echoes_atDepth {rule : Nested → Rule α} (h : ∀ levels, (rule (nestedAt levels)).Echoes change) :
    (atDepth rule).Echoes change :=
  fun cursor hclean => (h (Cursor.maxDepth - cursor.depth) cursor hclean).of_eq rfl rfl

theorem echoes_wholeExpr : wholeExpr.Echoes Expr.capital := by
  have hexpr : (atDepth Nested.expr).Echoes Expr.capital :=
    echoes_atDepth fun levels => (Nested.isEchoing_nestedAt levels).expr
  apply Rule.EchoesAs.bind hexpr
  intro expr
  apply Rule.echoesSame_atEnd.bind
  intro isDone
  exact Rule.EchoesAs.ite (.pure rfl) (Rule.echoes_expected _)

theorem capital_ofStream (size : Nat) (stream : TokenStream) :
    (Cursor.ofStream size stream).forgetful.capital =
      (Cursor.ofStream size stream.capital).forgetful := by
  simp [Cursor.ofStream, Cursor.forgetful, Cursor.capital, TokenStream.capital]

theorem runAfreshOn_of_stream {source : String} {stream : TokenStream}
    (h : TokenStream.ofSource source = .ok stream) :
    runAfreshOn rule source =
      match rule (Cursor.ofStream source.utf8ByteSize stream).forgetful with
      | .ok value _ => .ok value
      | .error failure _ => .error failure := by
  rw [runAfreshOn, Cursor.ofSource, h]
  simp only [bind, Except.bind, pure, Except.pure]
  cases rule (Cursor.ofStream source.utf8ByteSize stream).forgetful <;> rfl

/-- A rule that echoes reads sources in two cases alike: with names in capitals both values are the same,
and so are both failures but for the case of the token they mention. -/
theorem runAfreshOn_of_recases (hrule : rule.Echoes change) (h : Recases source other) :
    (∃ value value', runAfreshOn rule source = .ok value ∧ runAfreshOn rule other = .ok value' ∧
      change value' = change value) ∨
    ∃ failure failure', runAfreshOn rule source = .error failure ∧
      runAfreshOn rule other = .error failure' ∧ failure'.span = failure.span ∧
      failure'.cause.capital = failure.cause.capital := by
  have hrefused {source : String} {failure : Failure}
      (h : TokenStream.ofSource source = .error failure) : runAfreshOn rule source = .error failure := by
    rw [runAfreshOn, Cursor.ofSource, h]
    rfl
  rcases h.ofSource with ⟨stream, stream', hstream, hstream', hcapital⟩ | ⟨failure, hsource, hother⟩
  · have hsize : other.utf8ByteSize = source.utf8ByteSize := by
      rw [← Token.utf8ByteSize_upper, h.upper_eq, Token.utf8ByteSize_upper]
    have hsame : (Cursor.ofStream other.utf8ByteSize stream').forgetful.capital =
        (Cursor.ofStream source.utf8ByteSize stream).forgetful.capital := by
      rw [capital_ofStream, capital_ofStream, hsize, hcapital]
    rw [runAfreshOn_of_stream hstream, runAfreshOn_of_stream hstream']
    -- Both sources are read as the capitalised one is.
    cases hrule _ (isClean_ofStream hstream) with
    | gives value after hrun hecho =>
      cases hrule _ (isClean_ofStream hstream') with
      | gives value' after' hrun' hecho' =>
        rw [hsame, hecho] at hecho'
        rw [hrun, hrun']
        exact .inl ⟨value, value', rfl, rfl, (EStateM.Result.ok.inj hecho').1.symm⟩
      | fails failure failure' after last hrun' hecho' =>
        rw [hsame, hecho] at hecho'
        cases hecho'
    | fails failure failure' after last hrun hecho halike =>
      cases hrule _ (isClean_ofStream hstream') with
      | gives value' after' hrun' hecho' =>
        rw [hsame, hecho] at hecho'
        cases hecho'
      | fails failure₂ failure₂' after' last' hrun' hecho' halike' =>
        rw [hsame, hecho] at hecho'
        cases hecho'
        rw [hrun, hrun']
        exact .inr ⟨failure, failure₂, rfl, rfl, Failure.mk.inj (halike'.symm.trans halike)⟩
  · exact .inr ⟨failure, failure, hrefused hsource, hrefused hother, rfl, rfl⟩

end Grammar

section Sources

variable {source other : String}

/-- Two sources that differ in the case of words have tokens of the same kinds at the same places. Either
both are read, as scripts that differ in the case of unquoted names at most, or both are refused at the same
place for the same reason, up to the case of the token that is mentioned. -/
theorem Script.ofSource_of_recases (h : Recases source other) :
    (Token.lex other).map (fun token => (token.kind, token.span)) =
      (Token.lex source).map (fun token => (token.kind, token.span)) ∧
    ((∃ script script', Script.ofSource source = .ok script ∧ Script.ofSource other = .ok script' ∧
      script'.capital = script.capital) ∨
    ∃ failure failure', Script.ofSource source = .error failure ∧
      Script.ofSource other = .error failure' ∧ failure'.span = failure.span ∧
      failure'.cause.capital = failure.cause.capital) := by
  constructor
  · have hcapital (tokens : List Token) : tokens.map (fun token => (token.kind, token.span)) =
        (tokens.map Token.capital).map fun token => (token.kind, token.span) := by
      simp only [List.map_map, Function.comp_def, Token.kind_capital, Token.span_capital]
    rw [hcapital, h.map_capital_lex, ← hcapital]
  · have hscript : (Grammar.atDepth Grammar.Nested.script).Echoes Script.capital :=
      Grammar.echoes_atDepth fun levels => (Grammar.Nested.isEchoing_nestedAt levels).script
    have hread (source : String) : Script.ofSource source = Grammar.runAfreshOn _ source :=
      Grammar.runOn_eq_runAfreshOn (Grammar.isTame_atDepth Grammar.isTame_script) source
    rw [hread, hread]
    exact Grammar.runAfreshOn_of_recases hscript h

theorem Script.ofSource_of_recases_select :
    Recases "SELECT a FROM t" "select A From t" ∧
    (Token.lex "select A From t").map (fun token => (token.kind, token.span)) =
      (Token.lex "SELECT a FROM t").map (fun token => (token.kind, token.span)) ∧
    ((∃ script script', Script.ofSource "SELECT a FROM t" = .ok script ∧
      Script.ofSource "select A From t" = .ok script' ∧ script'.capital = script.capital) ∨
    ∃ failure failure', Script.ofSource "SELECT a FROM t" = .error failure ∧
      Script.ofSource "select A From t" = .error failure' ∧ failure'.span = failure.span ∧
      failure'.cause.capital = failure.cause.capital) := by
  have hlex : Token.lex "SELECT a FROM t" =
      [⟨.word, "SELECT", 0⟩, ⟨.whitespace, " ", 6⟩, ⟨.word, "a", 7⟩, ⟨.whitespace, " ", 8⟩,
        ⟨.word, "FROM", 9⟩, ⟨.whitespace, " ", 13⟩, ⟨.word, "t", 14⟩] := by
    decide +kernel
  have h : Recases "SELECT a FROM t" "select A From t" := by
    refine ⟨["select", " ", "A", " ", "From", " ", "t"], ?_, by decide +kernel⟩
    have hword {text other : String} (start : Nat) (h : Text.sameWord text other) :
        Token.Admits ⟨.word, text, start⟩ other := .inr ⟨rfl, h⟩
    have hsame (token : Token) : token.Admits token.text := .inl rfl
    rw [hlex]
    exact .cons (hword 0 (by decide +kernel)) (.cons (hsame _) (.cons (hword 7 (by decide +kernel))
      (.cons (hsame _) (.cons (hword 9 (by decide +kernel)) (.cons (hsame _) (.cons (hsame _) .nil))))))
  exact ⟨h, Script.ofSource_of_recases h⟩

/-- The same for an expression. -/
theorem Expr.ofSource_recased (h : Recases source other) :
    (∃ expr expr', Expr.ofSource source = .ok expr ∧ Expr.ofSource other = .ok expr' ∧
      expr'.capital = expr.capital) ∨
    ∃ failure failure', Expr.ofSource source = .error failure ∧ Expr.ofSource other = .error failure' ∧
      failure'.span = failure.span ∧ failure'.cause.capital = failure.cause.capital := by
  rw [Expr.ofSource_afresh, Expr.ofSource_afresh]
  exact Grammar.runAfreshOn_of_recases Grammar.echoes_wholeExpr h

end Sources

end SqlLayout
