import SqlLayout.Proofs.Token.LetterCase
import SqlLayout.Proofs.Token.Stream

/-!
# Words in Another Case

When only letters inside words change their case, the tokens stay where they are and keep their texts, but
for these letters. So with all their words in capitals both sources have the same tokens, and what reads
words without regard to case cannot tell the sources apart.
-/

namespace SqlLayout

section Words

open Token

variable {source other : String}

/-- A text that may be put in the place of a token: a word may change its letters' case. -/
def Token.Admits (token : Token) (text : String) : Prop :=
  text = token.text ∨ token.kind = .word ∧ Text.sameWord token.text text

/-- A source in which only the case of the letters of words is changed. -/
def Recases (source other : String) : Prop :=
  ∃ texts : List String, List.Forall₂ Token.Admits (Token.lex source) texts ∧ other = String.join texts

/-- The token with its text in capitals, if it is a word. -/
def Token.capital (token : Token) : Token :=
  if token.kind = .word then token.upper else token

@[simp] theorem Token.kind_capital (token : Token) : token.capital.kind = token.kind := by
  unfold capital
  split <;> rfl

@[simp] theorem Token.start_capital (token : Token) : token.capital.start = token.start := by
  unfold capital
  split <;> rfl

@[simp] theorem Token.stop_capital (token : Token) : token.capital.stop = token.stop := by
  unfold capital
  split
  · exact congrArg (token.start + ·) (utf8ByteSize_upper token.text)
  · rfl

@[simp] theorem Token.span_capital (token : Token) : token.capital.span = token.span := by
  rw [span, span, start_capital, stop_capital]

theorem upper_join (texts : List String) :
    Text.upper (String.join texts) = String.join (texts.map Text.upper) := by
  induction texts with
  | nil => rfl
  | cons text texts ih => rw [String.join_cons, upper_append, ih, List.map_cons, String.join_cons]

theorem Token.Admits.upper_eq {token : Token} {text : String} (h : token.Admits text) :
    Text.upper text = Text.upper token.text := by
  rcases h with rfl | ⟨-, hsame⟩
  · rfl
  · exact ((Text.sameWord_iff _ _).mp hsame).symm

theorem map_upper_eq {tokens : List Token} {texts : List String}
    (h : List.Forall₂ Token.Admits tokens texts) :
    texts.map Text.upper = tokens.map fun token => Text.upper token.text := by
  induction h with
  | nil => rfl
  | cons hadmits _ ih => rw [List.map_cons, List.map_cons, hadmits.upper_eq, ih]

theorem join_map_text_lex (source : String) : String.join ((lex source).map text) = source :=
  (lex_tiles source).2.2.2.2.1

theorem Recases.upper_eq (h : Recases source other) : Text.upper other = Text.upper source := by
  obtain ⟨texts, htexts, rfl⟩ := h
  calc
    Text.upper (String.join texts) = String.join (texts.map Text.upper) := upper_join texts
    _ = String.join (((lex source).map text).map Text.upper) := by
      rw [map_upper_eq htexts, List.map_map]
      rfl
    _ = Text.upper source := by rw [← upper_join, join_map_text_lex]

theorem Recases.map_upper_lex (h : Recases source other) :
    (lex other).map upper = (lex source).map upper := by
  rw [← lex_upper, ← lex_upper, h.upper_eq]

/-- Each token of the new source has the text put in its place. -/
theorem Recases.forall₂_admits (h : Recases source other) :
    List.Forall₂ Token.Admits (lex source) ((lex other).map text) := by
  have hupper := h.map_upper_lex
  obtain ⟨texts, htexts, hother⟩ := h
  have hlengths (tokens : List Token) : (tokens.map text).map (fun text => text.toList.length) =
      (tokens.map upper).map fun token => token.text.toList.length := by
    rw [List.map_map, List.map_map]
    exact List.map_congr_left fun token _ => (length_toList_upper token.text).symm
  have htexts' : texts.map (fun text => text.toList.length) =
      ((lex source).map text).map fun text => text.toList.length := by
    have hmap := congrArg (List.map fun text : String => text.toList.length) (map_upper_eq htexts)
    simp only [List.map_map, Function.comp_def, length_toList_upper] at hmap ⊢
    exact hmap
  -- Pieces of the same lengths that make up the same text are the same.
  have hpieces : ((lex other).map text).map String.toList = texts.map String.toList := by
    rw [List.eq_iff_flatten_eq]
    constructor
    · have hjoin := congrArg String.toList ((join_map_text_lex other).trans hother)
      rwa [String.toList_join, String.toList_join, List.flatMap_def, List.flatMap_def] at hjoin
    · have hsame := (hlengths (lex other)).trans (hupper ▸ (hlengths (lex source)).symm)
      simpa only [List.map_map, Function.comp_def] using hsame.trans htexts'.symm
  rw [List.map_injective_iff.mpr (fun _ _ => String.toList_inj.mp) hpieces]
  exact htexts

theorem Token.Admits.capital_eq {token other : Token} (h : token.Admits other.text)
    (hupper : other.upper = token.upper) : other.capital = token.capital := by
  obtain ⟨hkind, -, hstart⟩ := Token.mk.inj hupper
  rw [capital, capital, hkind]
  split
  · exact hupper
  · rename_i hword
    have htext : other.text = token.text := h.resolve_right fun hcase => hword hcase.1
    cases other
    cases token
    cases hkind
    cases hstart
    cases htext
    rfl

/-- The words of both sources differ in nothing but the case of their letters. -/
theorem Recases.map_capital_lex (h : Recases source other) :
    (lex other).map capital = (lex source).map capital := by
  have htokens {tokens others : List Token} (hupper : others.map upper = tokens.map upper)
      (h : List.Forall₂ Token.Admits tokens (others.map text)) :
      others.map capital = tokens.map capital := by
    induction tokens generalizing others with
    | nil => rw [List.map_eq_nil_iff.mp hupper]
    | cons token tokens ih =>
      obtain ⟨other, others, rfl, hother, hothers⟩ := List.map_eq_cons_iff.mp hupper
      rw [List.map_cons, List.forall₂_cons] at h
      rw [List.map_cons, List.map_cons, h.1.capital_eq hother, ih hothers h.2]
  exact htokens h.map_upper_lex h.forall₂_admits

end Words

section Streams

open Token

variable {source other : String}

/-- The stream with its words in capitals. -/
def TokenStream.capital (stream : TokenStream) : TokenStream :=
  { stream with tokens := stream.tokens.map Token.capital }

theorem Token.capital_of_ne {token : Token} (h : token.kind ≠ .word) : token.capital = token :=
  if_neg h

theorem TokenStream.sort_map_capital (count : Nat) (tokens : List Token) :
    sort count (tokens.map Token.capital) = (sort count tokens).capital := by
  induction tokens generalizing count with
  | nil => rfl
  | cons token tokens ih =>
    have hcomment (h : token.kind.isComment = true) : token.capital = token := by
      apply Token.capital_of_ne
      intro hword
      rw [hword] at h
      cases h
    rw [List.map_cons, sort, sort, Token.kind_capital]
    split
    · rename_i h
      rw [ih, hcomment h]
      rfl
    · split
      · exact ih count
      · rw [ih]
        rfl

/-- Of both sources the tokens make up streams that differ in the case of words at most, or both are
refused for the same token. -/
theorem Recases.ofSource (h : Recases source other) :
    (∃ stream stream', TokenStream.ofSource source = .ok stream ∧
      TokenStream.ofSource other = .ok stream' ∧ stream'.capital = stream.capital) ∨
    ∃ failure, TokenStream.ofSource source = .error failure ∧
      TokenStream.ofSource other = .error failure := by
  have hfind (tokens : List Token) : (tokens.map Token.capital).find? (fun token => token.kind = .garbage) =
      (tokens.find? fun token => token.kind = .garbage).map Token.capital := by
    simp only [List.find?_map, Function.comp_def, Token.kind_capital]
  have hread {source : String} (h : (lex source).find? (fun token => token.kind = .garbage) = none) :
      TokenStream.ofSource source = .ok (.sort 0 (lex source)) := by
    simp only [TokenStream.ofSource, h]
  have hrefused {source : String} {token : Token}
      (h : (lex source).find? (fun token => token.kind = .garbage) = some token) :
      TokenStream.ofSource source = .error { span := token.span, cause := .unrecognized token.text } := by
    simp only [TokenStream.ofSource, h]
  have hgarbage {tokens : List Token} {token : Token}
      (h : tokens.find? (fun token => token.kind = .garbage) = some token) : token.capital = token := by
    apply Token.capital_of_ne
    have hkind := List.find?_some h
    simp only [decide_eq_true_eq] at hkind
    rw [hkind]
    decide
  have hsame := hfind (lex other)
  rw [h.map_capital_lex, hfind] at hsame
  cases hsource : (lex source).find? fun token => token.kind = .garbage with
  | none =>
    rw [hsource] at hsame
    refine .inl ⟨_, _, hread hsource, hread (Option.map_eq_none_iff.mp hsame.symm), ?_⟩
    rw [← TokenStream.sort_map_capital, ← TokenStream.sort_map_capital, h.map_capital_lex]
  | some token =>
    rw [hsource] at hsame
    obtain ⟨token', hother, htoken⟩ := Option.map_eq_some_iff.mp hsame.symm
    rw [hgarbage hother, hgarbage hsource] at htoken
    exact .inr ⟨_, hrefused hsource, htoken ▸ hrefused hother⟩

end Streams

end SqlLayout
