import SqlLayout.Proofs.Token.Number
import SqlLayout.Proofs.Token.Symbol
import SqlLayout.Token.Lexer

/-!
# Tokens Tile the Source

Whatever a source holds, its tokens take every character of it exactly once: none is empty, each starts
where the one before it stops, and garbage is never next to garbage. So the texts of the tokens put
together are the source, and the offsets of the tokens never fall inside a character.
-/

namespace SqlLayout.Token

namespace Scan

variable {cs : List Char}

theorem quoted_le_length (quote : Char) (multiline : Bool) (cs : List Char) :
    (quoted quote multiline cs).2 ≤ cs.length := by
  induction hlength : cs.length using Nat.strong_induction_on generalizing cs with
  | _ length ih =>
    subst hlength
    cases cs with
    | nil => exact Nat.le_refl _
    | cons c cs =>
      by_cases hc : c = '\\'
      · subst hc
        cases cs with
        | nil => exact Nat.le_refl _
        | cons d cs =>
          rw [quoted_backslash]
          have hrest := ih cs.length (by simp only [List.length_cons]; omega) cs rfl
          split
          · simp
          · simpa using hrest
      · rw [quoted_cons hc]
        have hrest := ih cs.length (by simp) cs rfl
        split
        · simp
        · split
          · simp
          · simpa using hrest

theorem literalBody_length {quote : Char} {cs : List Char} {body : Lexeme} (hquote : isQuote quote)
    (h : literalBody (quote :: cs) = some body) : 0 < body.length ∧ body.length ≤ cs.length + 1 := by
  rw [literalBody_cons hquote] at h
  split at h
  · rename_i hleading
    obtain ⟨tail, rfl⟩ := List.isPrefixOf_iff_prefix.mp hleading
    split at h
    · rename_i count hend
      cases h
      have hle := (tripleEnd?_take_append hend []).1
      simp only [List.cons_append, List.nil_append, List.drop_succ_cons, List.drop_zero] at hle
      simp
      omega
    · cases h
      simp
  · split at h
    · rename_i count hquoted
      cases h
      have hle := (quoted_take_append hquoted []).1
      simp
      omega
    · cases h

theorem literal_length {lexeme : Lexeme} (h : literal cs = some lexeme) :
    0 < lexeme.length ∧ lexeme.length ≤ cs.length := by
  obtain ⟨letters, quote, tail, body, rfl, -, -, hquote, hbody, rfl⟩ := exists_of_literal h
  obtain ⟨hpos, hle⟩ := literalBody_length hquote hbody
  simp
  omega

theorem word_le_length (cs : List Char) : word cs ≤ cs.length := by
  cases cs with
  | nil => exact Nat.le_refl _
  | cons c cs =>
    have hrun : run isWordRest cs ≤ cs.length := run_le_length cs
    rw [word]
    split
    · simp
      omega
    · exact Nat.zero_le _

theorem quotedIdent_le_length (cs : List Char) : quotedIdent cs ≤ cs.length := by
  cases cs with
  | nil => exact Nat.le_refl _
  | cons c cs =>
    rw [quotedIdent]
    split
    · split
      · rename_i count hquoted
        simpa using (quoted_take_append hquoted []).1
      · exact Nat.zero_le _
    · exact Nat.zero_le _

theorem lineComment_le_length (cs : List Char) : lineComment cs ≤ cs.length := by
  unfold lineComment
  split
  · rename_i cs
    have hrun : run (· ≠ '\n') cs ≤ cs.length := run_le_length cs
    simp only [List.length_cons]
    omega
  · rename_i cs
    have hrun : run (· ≠ '\n') cs ≤ cs.length := run_le_length cs
    simp only [List.length_cons]
    omega
  · exact Nat.zero_le _

theorem blockComment_le_length (cs : List Char) : blockComment cs ≤ cs.length := by
  unfold blockComment
  split
  · rename_i cs
    cases hend : blockEnd? cs with
    | none => exact Nat.zero_le _
    | some count => simpa using (blockEnd?_take_append hend []).1
  · exact Nat.zero_le _

theorem hopeless_bounds (c : Char) (cs : List Char) :
    0 < hopeless (c :: cs) ∧ hopeless (c :: cs) ≤ (c :: cs).length := by
  have hback := quoted_le_length backquote true cs
  have hquoted := quoted_le_length c false cs
  rw [hopeless, List.length_cons]
  split
  · omega
  · split <;> omega

theorem text_length_pos {symbol : Kind × String} (h : symbol ∈ Kind.symbols) : 0 < symbol.2.length := by
  revert h
  revert symbol
  decide

/-- Whatever matches takes a character or more, and no more than there are. -/
theorem candidate_bounds {lexeme : Lexeme} (h : lexeme ∈ candidates cs) :
    0 < lexeme.length ∧ lexeme.length ≤ cs.length := by
  rw [mem_candidates] at h
  rcases h with ⟨hne, rfl⟩ | ⟨hne, rfl⟩ | hliteral | ⟨hne, rfl⟩ | ⟨hne, rfl⟩ | ⟨hne, rfl⟩ | ⟨hne, rfl⟩ |
    ⟨symbol, hmem, hleading, rfl⟩
  · exact ⟨Nat.pos_of_ne_zero hne, word_le_length cs⟩
  · exact ⟨Nat.pos_of_ne_zero hne, quotedIdent_le_length cs⟩
  · exact literal_length hliteral
  · exact ⟨Nat.pos_of_ne_zero hne, number_le_length cs⟩
  · exact ⟨Nat.pos_of_ne_zero hne, run_le_length cs⟩
  · exact ⟨Nat.pos_of_ne_zero hne, lineComment_le_length cs⟩
  · exact ⟨Nat.pos_of_ne_zero hne, blockComment_le_length cs⟩
  · exact ⟨text_length_pos hmem, by simpa only [String.length_toList] using hleading.length_le⟩

theorem next_bounds (c : Char) (cs : List Char) :
    0 < (next (c :: cs)).length ∧ (next (c :: cs)).length ≤ (c :: cs).length := by
  unfold next
  rcases longest_spec (candidates (c :: cs)) with ⟨-, hnone⟩ | ⟨lexeme, hmem, hsome, -⟩
  · rw [hnone]
    exact hopeless_bounds c cs
  · rw [hsome]
    exact candidate_bounds hmem

end Scan

/-- Tokens that take the characters one after the other, from a byte offset on. -/
inductive Tiles : Nat → List Char → List Token → Prop
  | nil (start : Nat) : Tiles start [] []
  | cons {token : Token} {cs : List Char} {tokens : List Token} (hne : token.text ≠ "")
    (h : Tiles token.stop cs tokens) :
    Tiles token.start (token.text.toList ++ cs) (token :: tokens)

/-- No two neighbours are both garbage. -/
def Settled (tokens : List Token) : Prop :=
  tokens.IsChain fun token next => ¬(token.kind = .garbage ∧ next.kind = .garbage)

theorem tiles_scan {steps start : Nat} {cs : List Char} (h : cs.length ≤ steps) :
    Tiles start cs (scan steps start cs) := by
  induction steps generalizing start cs with
  | zero =>
    obtain rfl := List.length_eq_zero_iff.mp (Nat.le_zero.mp h)
    exact .nil start
  | succ steps ih =>
    cases cs with
    | nil => exact .nil start
    | cons c cs =>
      obtain ⟨hpos, hle⟩ := Scan.next_bounds c cs
      rw [scan]
      -- The lexeme is not empty, so what is left is shorter and the steps suffice for it.
      generalize Scan.next (c :: cs) = lexeme at hpos hle
      have hcut : c :: cs = (String.ofList ((c :: cs).take lexeme.length)).toList ++
          (c :: cs).drop lexeme.length := by
        rw [String.toList_ofList, List.take_append_drop]
      have hne : String.ofList ((c :: cs).take lexeme.length) ≠ "" := by
        intro hempty
        have hnil := congrArg (List.length ∘ String.toList) hempty
        simp at hnil
        omega
      have hrest : Tiles (start + (String.ofList ((c :: cs).take lexeme.length)).utf8ByteSize)
          ((c :: cs).drop lexeme.length) _ :=
        ih (by rw [List.length_drop]; simp only [List.length_cons] at h ⊢; omega)
      conv =>
        arg 2
        rw [hcut]
      exact @Tiles.cons ⟨lexeme.kind, _, start⟩ _ _ hne hrest

/-- Any number of steps is enough that is not below the number of characters. -/
theorem scan_eq_of_le {steps more start : Nat} {cs : List Char} (h : cs.length ≤ steps)
    (hmore : cs.length ≤ more) :
    scan steps start cs = scan more start cs := by
  induction steps generalizing more start cs with
  | zero =>
    obtain rfl := List.length_eq_zero_iff.mp (Nat.le_zero.mp h)
    cases more <;> rfl
  | succ steps ih =>
    cases cs with
    | nil => cases more <;> rfl
    | cons c cs =>
      obtain ⟨more, rfl⟩ := Nat.exists_eq_add_of_le' (Nat.le_trans (Nat.le_add_left 1 cs.length) hmore)
      have hpos := (Scan.next_bounds c cs).1
      rw [List.length_cons] at h hmore
      rw [scan, scan, ih] <;> rw [List.length_drop, List.length_cons] <;> omega

/-- The same token so many bytes further on. -/
def moved (token : Token) (bytes : Nat) : Token :=
  { token with start := token.start + bytes }

theorem scan_add_start (steps start bytes : Nat) (cs : List Char) :
    scan steps (start + bytes) cs = (scan steps start cs).map (moved · bytes) := by
  induction steps generalizing start cs with
  | zero => rfl
  | succ steps ih =>
    cases cs with
    | nil => rfl
    | cons c cs => rw [scan, scan, List.map_cons, ← ih, Nat.add_right_comm, moved]

theorem tiles_cons_iff {start : Nat} {cs : List Char} {token : Token} {tokens : List Token} :
    Tiles start cs (token :: tokens) ↔
      token.start = start ∧ token.text ≠ "" ∧
        ∃ tail, cs = token.text.toList ++ tail ∧ Tiles token.stop tail tokens := by
  constructor
  · intro h
    cases h with
    | cons hne h => exact ⟨rfl, hne, _, rfl, h⟩
  · rintro ⟨rfl, hne, tail, rfl, h⟩
    exact .cons hne h

section Covering

variable {token : Token} {tokens : List Token} {cs : List Char} {start : Nat}

/-- Garbage that takes in the garbage after it stops where that stopped. -/
theorem Tiles.cover (hne : token.text ≠ "") (h : Tiles token.stop cs tokens) :
    Tiles token.start (token.text.toList ++ cs) (token.cover tokens) := by
  cases tokens with
  | nil => exact .cons hne h
  | cons next rest =>
    rw [Token.cover]
    split
    · obtain ⟨hstart, -, tail, rfl, hrest⟩ := tiles_cons_iff.mp h
      refine tiles_cons_iff.mpr ⟨rfl, by simp [hne], tail, by simp, ?_⟩
      have hstop : stop { token with text := token.text ++ next.text } = next.stop := by
        rw [stop, stop, hstart, stop, String.utf8ByteSize_append, Nat.add_assoc]
      rw [hstop]
      exact hrest
    · exact .cons hne h

theorem Settled.cover (token : Token) (h : Settled tokens) : Settled (token.cover tokens) := by
  cases tokens with
  | nil => exact .singleton token
  | cons next rest =>
    rw [Token.cover]
    split
    · rename_i hboth
      simp only [Bool.and_eq_true, decide_eq_true_eq] at hboth
      cases rest with
      | nil => exact .singleton _
      | cons last rest =>
        obtain ⟨hapart, hrest⟩ := List.isChain_cons_cons.mp h
        refine List.isChain_cons_cons.mpr ⟨fun hgarbage => hapart ⟨hboth.2, hgarbage.2⟩, hrest⟩
    · rename_i hboth
      refine List.isChain_cons_cons.mpr ⟨?_, h⟩
      simpa using hboth

theorem settled_foldr_cover (tokens : List Token) : Settled (tokens.foldr Token.cover []) := by
  induction tokens with
  | nil => exact .nil
  | cons token tokens ih => exact ih.cover token

theorem Tiles.foldr_cover (h : Tiles start cs tokens) :
    Tiles start cs (tokens.foldr Token.cover []) := by
  induction h with
  | nil start => exact .nil start
  | cons hne _ ih => exact ih.cover hne

theorem tiles_lex (source : String) : Tiles 0 source.toList (lex source) :=
  (tiles_scan (Nat.le_refl _)).foldr_cover

end Covering

namespace Tiles

variable {tokens : List Token} {cs : List Char} {start : Nat}

theorem flatMap_text (h : Tiles start cs tokens) :
    (tokens.flatMap fun token => token.text.toList) = cs := by
  induction h with
  | nil start => rfl
  | cons hne _ ih => rw [List.flatMap_cons, ih]

theorem head_start (h : Tiles start cs tokens) : ∀ token ∈ tokens.head?, token.start = start := by
  cases h with
  | nil => simp
  | cons hne h => simp

theorem isChain_stop (h : Tiles start cs tokens) :
    tokens.IsChain fun token next => token.stop = next.start := by
  induction h with
  | nil => exact .nil
  | @cons token cs tokens hne h ih =>
    cases tokens with
    | nil => exact .singleton token
    | cons next tokens =>
      exact List.isChain_cons_cons.mpr ⟨(tiles_cons_iff.mp h).1.symm, ih⟩

theorem last_stop (h : Tiles start cs tokens) :
    ∀ token ∈ tokens.getLast?, token.stop = start + (String.ofList cs).utf8ByteSize := by
  induction h with
  | nil => simp
  | @cons token cs tokens hne h ih =>
    have hstop : token.start + (String.ofList (token.text.toList ++ cs)).utf8ByteSize =
        token.stop + (String.ofList cs).utf8ByteSize := by
      rw [String.ofList_append, String.utf8ByteSize_append, String.ofList_toList, stop, Nat.add_assoc]
    rw [hstop]
    cases tokens with
    | nil =>
      obtain rfl : cs = [] := h.flatMap_text.symm
      simp
    | cons next tokens =>
      rw [List.getLast?_cons_cons]
      exact ih

/-- Every token stands in the source at the offset it says. -/
theorem exists_split (h : Tiles start cs tokens) :
    ∀ token ∈ tokens, token.text ≠ "" ∧
      ∃ before after, cs = before ++ token.text.toList ++ after ∧
        token.start = start + (String.ofList before).utf8ByteSize := by
  induction h with
  | nil => simp
  | @cons first cs tokens hne h ih =>
    intro token htoken
    rcases List.mem_cons.mp htoken with rfl | htoken
    · exact ⟨hne, [], cs, rfl, by simp⟩
    · obtain ⟨hne, before, after, rfl, hstart⟩ := ih token htoken
      refine ⟨hne, first.text.toList ++ before, after, by simp, ?_⟩
      rw [hstart, String.ofList_append, String.utf8ByteSize_append, String.ofList_toList, stop,
        Nat.add_assoc]

end Tiles

/-- The tokens of a source take all of it, each character once: they are not empty, stand between
characters where they say, follow each other without gaps from the first byte to the last, and no two
neighbours are garbage. -/
theorem lex_tiles (source : String) :
    (∀ token ∈ lex source, token.text ≠ "" ∧
      ∃ before after, source = before ++ token.text ++ after ∧ token.start = before.utf8ByteSize) ∧
    (∀ token ∈ (lex source).head?, token.start = 0) ∧
    ((lex source).IsChain fun token next => token.stop = next.start) ∧
    (∀ token ∈ (lex source).getLast?, token.stop = source.utf8ByteSize) ∧
    String.join ((lex source).map text) = source ∧
    (lex source).IsChain fun token next => ¬(token.kind = .garbage ∧ next.kind = .garbage) := by
  have htiles := tiles_lex source
  have hsettled : Settled (lex source) := settled_foldr_cover _
  refine ⟨?_, htiles.head_start, htiles.isChain_stop, ?_, ?_, hsettled⟩
  · intro token htoken
    obtain ⟨hne, before, after, hsource, hstart⟩ := htiles.exists_split token htoken
    refine ⟨hne, String.ofList before, String.ofList after, ?_, by simpa using hstart⟩
    rw [← String.toList_inj]
    simpa using hsource
  · simpa using htiles.last_stop
  · rw [← String.toList_inj, String.toList_join, List.flatMap_map]
    exact htiles.flatMap_text

end SqlLayout.Token
