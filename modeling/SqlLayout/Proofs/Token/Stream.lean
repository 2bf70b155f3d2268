import SqlLayout.Proofs.Token.Lexing

/-!
# Tokens of a Stream

What is in a stream comes from the source: its tokens and comments are genuine, and its comments are all
the comments of the source in their order, each after the tokens that stand before it.
-/

namespace SqlLayout

open Token Token.Scan

section Genuine

variable {token : Token} {tokens : List Token}

theorem isGenuine_take_of_next {cs : List Char} {kind : Kind} {length start : Nat}
    (h : next cs = ⟨kind, length⟩) (hgarbage : kind ≠ .garbage) (hblank : kind ≠ .whitespace) :
    (Token.glyph ⟨kind, String.ofList (cs.take length), start⟩).IsGenuine := by
  rcases next_cases h hgarbage with ⟨rfl, -⟩ | ⟨rfl, -⟩ | ⟨rfl, -⟩ | ⟨rfl, -⟩ | ⟨rfl, -⟩ | ⟨rfl, -⟩ |
    ⟨rfl, -⟩ | ⟨hsymbol, text, hmem, hleading, rfl⟩
  · simpa [Glyph.IsGenuine, Token.glyph] using isWord_of_next h
  · simpa [Glyph.IsGenuine, Token.glyph] using isQuotedName_of_next h
  · simpa [Glyph.IsGenuine, Token.glyph] using isLiteral_of_next h
  · simpa [Glyph.IsGenuine, Token.glyph] using isNumber_of_next h
  · exact absurd rfl hblank
  · simpa [Glyph.IsGenuine, Token.glyph] using isLineComment_of_next h
  · simpa [Glyph.IsGenuine, Token.glyph] using isBlockComment_of_next h
  · obtain ⟨rest, rfl⟩ := hleading
    have htake : String.ofList ((text.toList ++ rest).take text.length) = text := by
      rw [← String.length_toList, List.take_left, String.ofList_toList]
    rw [htake]
    unfold Glyph.IsGenuine Token.glyph
    split <;> simp_all [Kind.isSymbol]

theorem isGenuine_of_mem_scan {steps start : Nat} {cs : List Char} (h : token ∈ scan steps start cs)
    (hgarbage : token.kind ≠ .garbage) (hblank : token.kind ≠ .whitespace) :
    token.glyph.IsGenuine := by
  induction steps generalizing start cs with
  | zero => cases h
  | succ steps ih =>
    cases cs with
    | nil => cases h
    | cons c cs =>
      rcases List.mem_cons.mp h with rfl | h
      · exact isGenuine_take_of_next rfl hgarbage hblank
      · exact ih h

/-- Covering changes nothing but garbage. -/
theorem mem_of_mem_foldr_cover (h : token ∈ tokens.foldr cover []) (hgarbage : token.kind ≠ .garbage) :
    token ∈ tokens := by
  induction tokens with
  | nil => cases h
  | cons first tokens ih =>
    rw [List.foldr_cons] at h
    cases hrest : tokens.foldr cover [] with
    | nil =>
      rw [hrest] at h
      exact List.mem_cons.mpr (.inl (List.mem_singleton.mp h))
    | cons next rest =>
      rw [hrest, cover] at h
      rw [hrest] at ih
      split at h
      · rename_i hboth
        simp only [Bool.and_eq_true, decide_eq_true_eq] at hboth
        rcases List.mem_cons.mp h with rfl | h
        · exact absurd hboth.1 hgarbage
        · exact List.mem_cons_of_mem _ (ih (List.mem_cons_of_mem _ h))
      · rcases List.mem_cons.mp h with rfl | h
        · exact List.mem_cons_self
        · exact List.mem_cons_of_mem _ (ih h)

theorem isGenuine_of_mem_lex {source : String} (h : token ∈ lex source)
    (hgarbage : token.kind ≠ .garbage) (hblank : token.kind ≠ .whitespace) :
    token.glyph.IsGenuine :=
  isGenuine_of_mem_scan (mem_of_mem_foldr_cover h hgarbage) hgarbage hblank

end Genuine

namespace TokenStream

variable {tokens : List Token}

/-- The significant tokens are all that are no blanks and no comments. -/
theorem tokens_sort (count : Nat) :
    (sort count tokens).tokens = tokens.filter fun token => !token.kind.isTrivia := by
  induction tokens generalizing count with
  | nil => rfl
  | cons first tokens ih =>
    rw [sort, List.filter_cons]
    split
    · rename_i hcomment
      rw [if_neg (by simp [Kind.isTrivia_of_isComment _ hcomment]), ih]
    · split
      · rename_i htrivia
        rw [if_neg (by simp [htrivia]), ih]
      · rename_i htrivia
        rw [if_pos (by simp [htrivia])]
        exact congrArg (first :: ·) (ih (count + 1))

theorem mem_of_mem_sort {token : Token} {count : Nat} (h : token ∈ (sort count tokens).tokens) :
    token ∈ tokens ∧ token.kind.isTrivia = false := by
  rw [tokens_sort, List.mem_filter] at h
  simpa using h

/-- The comments set aside are all of them. -/
theorem sort_comments_token (count : Nat) :
    (sort count tokens).comments.map Comment.token = tokens.filter fun token => token.kind.isComment := by
  induction tokens generalizing count with
  | nil => rfl
  | cons first tokens ih =>
    rw [sort]
    split
    · rename_i hcomment
      rw [List.filter_cons, if_pos hcomment, List.map_cons, ih]
    · rename_i hcomment
      rw [List.filter_cons, if_neg hcomment]
      split
      · exact ih count
      · exact ih (count + 1)

theorem sort_comments_text (count : Nat) :
    (sort count tokens).comments.map Comment.text =
      (tokens.filter fun token => token.kind.isComment).map fun token => Text.trimEnd token.text := by
  rw [← sort_comments_token count, List.map_map]
  rfl

/-- No comment stands after more tokens than there are. -/
theorem before_le_of_mem_sort {comment : Comment} {count : Nat}
    (h : comment ∈ (sort count tokens).comments) :
    comment.before ≤ count + (sort count tokens).tokens.length := by
  induction tokens generalizing count with
  | nil => cases h
  | cons first tokens ih =>
    rw [sort] at h ⊢
    split at h
    · rename_i hcomment
      rw [if_pos hcomment]
      rcases List.mem_cons.mp h with rfl | h
      · exact Nat.le_add_right _ _
      · exact ih h
    · rename_i hcomment
      rw [if_neg hcomment]
      split at h
      · rename_i htrivia
        rw [if_pos htrivia]
        exact ih h
      · rename_i htrivia
        rw [if_neg htrivia]
        have hle := ih h
        simp only [List.length_cons]
        omega

section Sources

variable {source : String} {stream : TokenStream}

/-- A source without garbage has the stream of its tokens. -/
theorem eq_sort_of_ofSource (h : ofSource source = .ok stream) :
    stream = sort 0 (lex source) ∧ ∀ token ∈ lex source, token.kind ≠ .garbage := by
  unfold ofSource at h
  dsimp only at h
  split at h
  · cases h
  · rename_i hnone
    cases h
    exact ⟨rfl, by simpa using hnone⟩

theorem ofSource_of_lex (h : ∀ token ∈ lex source, token.kind ≠ .garbage) :
    ofSource source = .ok (sort 0 (lex source)) := by
  have hfind : (lex source).find? (fun token => decide (token.kind = .garbage)) = none := by
    simpa using h
  unfold ofSource
  simp only [hfind]

theorem isGenuine_of_mem_tokens (h : ofSource source = .ok stream) {token : Token}
    (htoken : token ∈ stream.tokens) : token.glyph.IsGenuine ∧ token.kind.isTrivia = false := by
  obtain ⟨rfl, hgarbage⟩ := eq_sort_of_ofSource h
  obtain ⟨hmem, htrivia⟩ := mem_of_mem_sort htoken
  refine ⟨isGenuine_of_mem_lex hmem (hgarbage token hmem) ?_, htrivia⟩
  intro hblank
  rw [hblank] at htrivia
  cases htrivia

theorem isGenuine_of_mem_comments (h : ofSource source = .ok stream) {comment : Comment}
    (hcomment : comment ∈ stream.comments) :
    comment.token.glyph.IsGenuine ∧ comment.token.kind.isComment := by
  obtain ⟨rfl, hgarbage⟩ := eq_sort_of_ofSource h
  have hmem := List.mem_map_of_mem (f := Comment.token) hcomment
  rw [sort_comments_token] at hmem
  obtain ⟨hmem, hkind⟩ := List.mem_filter.mp hmem
  refine ⟨isGenuine_of_mem_lex hmem (hgarbage _ hmem) ?_, hkind⟩
  intro hblank
  rw [hblank] at hkind
  cases hkind

end Sources

end TokenStream

end SqlLayout
