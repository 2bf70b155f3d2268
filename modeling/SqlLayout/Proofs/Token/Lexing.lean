import Mathlib.Data.List.Chain
import SqlLayout.Proofs.Token.Glyph
import SqlLayout.Token.Stream

/-!
# Reading a Spelling Back

The tokens of an expansion of a spelling are its glyphs, whatever blanks were chosen, when the glyphs are
genuine and what stands next to each other cannot be taken for a single token.
-/

namespace SqlLayout

open Token Token.Scan

namespace Atom

/-- What may stand next to each other. -/
def Joins : Atom → Atom → Prop
  | .glyph first, .glyph next =>
    next.kind.isComment = false ∧
      ((∀ c ∈ next.text.toList.head?, first.endsBefore c) ∨ first.Continues next)
  | .glyph first, .gap | .glyph first, .soft .closing =>
    first.tied = false ∧ first.kind ≠ .lineComment
  | .glyph first, .soft .opening => first.tied = false ∧ first.kind = .parenOpen
  | .glyph first, .line => first.tied = false
  | .soft .closing, .glyph next => next.kind = .parenClose
  | .gap, .glyph _ | .soft .opening, .glyph _ | .line, .glyph _ => True
  | _, _ => False

/-- What is tied has no blanks after it. -/
theorem tied_eq_false {first : Glyph} {atom : Atom} (h : Joins (.glyph first) atom)
    (hatom : ∀ glyph, atom ≠ .glyph glyph) : first.tied = false := by
  cases atom with
  | glyph glyph => exact absurd rfl (hatom glyph)
  | gap => exact h.1
  | soft side => cases side <;> exact h.1
  | line => exact h

/-- No blanks stand next to blanks. -/
theorem not_joins {atom next : Atom} (hatom : ∀ glyph, atom ≠ .glyph glyph)
    (hnext : ∀ glyph, next ≠ .glyph glyph) : ¬Joins atom next := by
  intro hjoins
  cases atom with
  | glyph glyph => exact hatom glyph rfl
  | soft side => cases next <;> cases side <;> first | exact hjoins | exact hnext _ rfl
  | _ => cases next <;> first | exact hjoins | exact hnext _ rfl

end Atom

/-- Genuine glyphs that stay apart. -/
structure Spelling.IsLegible (spelling : Spelling) : Prop where
  genuine : ∀ glyph, .glyph glyph ∈ spelling → glyph.IsGenuine
  joins : List.IsChain Atom.Joins spelling

/-- The tokens of an expansion, one after the other from an offset on. -/
inductive Realizes : Nat → Spelling → List Token → Prop
  | nil (start : Nat) : Realizes start [] []
  | glyph {start : Nat} (glyph : Glyph) {spelling : Spelling} {tokens : List Token}
    (h : Realizes (start + glyph.text.utf8ByteSize) spelling tokens) :
    Realizes start (.glyph glyph :: spelling) (⟨glyph.kind, glyph.text, start⟩ :: tokens)
  | blank {start : Nat} {atom : Atom} (hatom : ∀ glyph, atom ≠ .glyph glyph) {text : String}
    (htext : text.toList ≠ []) (htidy : IsTidy text.toList) {spelling : Spelling} {tokens : List Token}
    (h : Realizes (start + text.utf8ByteSize) spelling tokens) :
    Realizes start (atom :: spelling) (⟨.whitespace, text, start⟩ :: tokens)
  | soft {start : Nat} (side : Side) {spelling : Spelling} {tokens : List Token}
    (h : Realizes start spelling tokens) : Realizes start (.soft side :: spelling) tokens

section Scanning

variable {spelling : Spelling} {cs : List Char}

theorem Glyph.endsBefore_newline {glyph : Glyph} (hgenuine : glyph.IsGenuine) :
    glyph.endsBefore '\n' := by
  by_cases hkind : glyph.kind = .lineComment
  · simp [endsBefore, hkind]
  · exact glyph.endsBefore_of_mem_neutral hgenuine hkind (by decide)

theorem Glyph.endsBefore_of_parenOpen {glyph : Glyph} (hgenuine : glyph.IsGenuine)
    (hkind : glyph.kind = .parenOpen) (c : Char) : glyph.endsBefore c := by
  have hmem := mem_symbols_of_isGenuine hgenuine (by rw [hkind]; rfl)
  have htext : ∀ symbol ∈ Kind.symbols, symbol.1 = .parenOpen → symbol.2.toList = ['('] := by decide
  have hparen := htext _ hmem hkind
  have hnone := extendsSymbol_of_alone (by decide) (by decide : ∀ symbol ∈ Kind.symbols,
    symbol.2.toList.head? = some '(' → symbol.2.toList = ['(']) c
  unfold endsBefore
  simp only [hkind, hparen, hnone, Bool.not_false]

theorem Glyph.text_of_parenClose {glyph : Glyph} (hgenuine : glyph.IsGenuine)
    (hkind : glyph.kind = .parenClose) : glyph.text.toList = [')'] := by
  have hmem := mem_symbols_of_isGenuine hgenuine (by rw [hkind]; rfl)
  have htext : ∀ symbol ∈ Kind.symbols, symbol.1 = .parenClose → symbol.2.toList = [')'] := by decide
  exact htext _ hmem hkind

theorem Spelling.IsLegible.tail {atom : Atom} (h : Spelling.IsLegible (atom :: spelling)) :
    spelling.IsLegible :=
  ⟨fun glyph hmem => h.genuine glyph (List.mem_cons_of_mem _ hmem), h.joins.tail⟩

/-- What an expansion starts with does not go on with the glyph before it, unless the next glyph is the
rest of a name that the glyph has begun. -/
theorem ends_or_continues {glyph : Glyph} (h : Spelling.IsLegible (.glyph glyph :: spelling))
    (hexpands : Expands spelling cs) :
    (∀ c ∈ cs.head?, glyph.endsBefore c) ∨
      ∃ next rest tail, spelling = .glyph next :: rest ∧ cs = next.text.toList ++ tail ∧
        Expands rest tail ∧ glyph.Continues next := by
  have hgenuine := h.genuine glyph (by simp)
  have hblanks {blanks cs : List Char} (hkind : glyph.kind ≠ .lineComment) (hblanks : IsBlanks blanks)
      (hne : blanks ≠ []) : ∀ c ∈ (blanks ++ cs).head?, glyph.endsBefore c := by
    intro c hc
    obtain ⟨d, ds, rfl⟩ := List.exists_cons_of_ne_nil hne
    cases hc
    apply glyph.endsBefore_of_mem_neutral hgenuine hkind
    rcases hblanks c (by simp) with rfl | rfl <;> decide
  cases hexpands with
  | nil => exact .inl (by simp)
  | @glyph next rest tail hrest =>
    have hjoins := (List.isChain_cons_cons.mp h.joins).1
    rcases hjoins.2 with hends | hcontinues
    · left
      obtain ⟨d, ds, htext, -⟩ := Glyph.exists_cons_of_isGenuine (h.genuine next (by simp))
      rw [htext] at hends ⊢
      exact hends
    · exact .inr ⟨next, rest, tail, rfl, rfl, hrest, hcontinues⟩
  | gap hspaces hne hrest =>
    have hjoins := (List.isChain_cons_cons.mp h.joins).1
    exact .inl (hblanks hjoins.2 hspaces.isBlanks hne)
  | @soft side blanks hspaces rest tail hrest =>
    left
    have hjoins := (List.isChain_cons_cons.mp h.joins).1
    cases side with
    | opening => exact fun c _ => Glyph.endsBefore_of_parenOpen hgenuine hjoins.2 c
    | closing =>
      cases blanks with
      | cons d ds => exact hblanks hjoins.2 hspaces.isBlanks (by simp)
      | nil =>
        cases hrest with
        | nil => simp
        | @glyph next _ _ _ =>
          have hclose := (List.isChain_cons_cons.mp h.joins.tail).1
          have hnext := Glyph.text_of_parenClose (h.genuine next (by simp)) hclose
          intro c hc
          rw [List.nil_append, hnext] at hc
          cases hc
          exact glyph.endsBefore_of_mem_neutral hgenuine hjoins.2 (by decide)
        | gap => exact absurd (List.isChain_cons_cons.mp h.joins.tail).1 id
        | soft => exact absurd (List.isChain_cons_cons.mp h.joins.tail).1 id
        | line => exact absurd (List.isChain_cons_cons.mp h.joins.tail).1 id
  | line breaks hrest =>
    left
    intro c hc
    cases hc
    exact Glyph.endsBefore_newline hgenuine

/-- What an expansion goes on with after blanks is no blank. -/
theorem head?_not_isGap {atom : Atom} (h : Spelling.IsLegible (atom :: spelling))
    (hatom : ∀ glyph, atom ≠ .glyph glyph) (hexpands : Expands spelling cs) :
    ∀ c ∈ cs.head?, isGap c = false := by
  have hblank {next : Atom} (hnext : ∀ glyph, next ≠ .glyph glyph) : ¬ Atom.Joins atom next :=
    Atom.not_joins hatom hnext
  cases hexpands with
  | nil => simp
  | @glyph next _ _ _ =>
    obtain ⟨c, cs, htext, hc⟩ := Glyph.exists_cons_of_isGenuine (h.genuine next (by simp))
    intro d hd
    rw [htext] at hd
    cases hd
    exact hc
  | gap => exact absurd (List.isChain_cons_cons.mp h.joins).1 (hblank (by simp))
  | soft => exact absurd (List.isChain_cons_cons.mp h.joins).1 (hblank (by simp))
  | line => exact absurd (List.isChain_cons_cons.mp h.joins).1 (hblank (by simp))

theorem scan_append {text rest : List Char} {kind : Kind} {steps start : Nat}
    (hnext : Scan.next (text ++ rest) = ⟨kind, text.length⟩) (hne : text ≠ []) :
    scan (steps + 1) start (text ++ rest) =
      ⟨kind, String.ofList text, start⟩
        :: scan steps (start + (String.ofList text).utf8ByteSize) rest := by
  obtain ⟨c, cs, rfl⟩ := List.exists_cons_of_ne_nil hne
  rw [List.cons_append] at hnext ⊢
  rw [scan, hnext, ← List.cons_append]
  simp only [List.take_left, List.drop_left]

/-- Blanks are one token, and it ends where the next glyph starts. -/
theorem scan_blanks {blanks rest : List Char} {steps start : Nat} (hblanks : IsBlanks blanks)
    (hne : blanks ≠ []) (hrest : ∀ c ∈ rest.head?, isGap c = false) :
    scan (steps + 1) start (blanks ++ rest) =
      ⟨.whitespace, String.ofList blanks, start⟩
        :: scan steps (start + (String.ofList blanks).utf8ByteSize) rest := by
  have hgap : ∀ c ∈ blanks, isGap c := by
    intro c hc
    rcases hblanks c hc with rfl | rfl <;> decide
  exact scan_append (next_gap hgap hne hrest) hne

theorem realizes_blanks {atom : Atom} {blanks : List Char} {steps start : Nat}
    (h : Spelling.IsLegible (atom :: spelling)) (hatom : ∀ glyph, atom ≠ .glyph glyph)
    (hblanks : IsTidy blanks) (hne : blanks ≠ []) (hexpands : Expands spelling cs)
    (hrest : ∀ steps start, cs.length ≤ steps → Realizes start spelling (scan steps start cs))
    (hsteps : (blanks ++ cs).length ≤ steps) :
    Realizes start (atom :: spelling) (scan steps start (blanks ++ cs)) := by
  have hpos := List.length_pos_of_ne_nil hne
  rw [List.length_append] at hsteps
  cases steps with
  | zero => omega
  | succ steps =>
    rw [scan_blanks hblanks.isBlanks hne (head?_not_isGap h hatom hexpands)]
    exact .blank hatom (by simpa using hne) (by simpa using hblanks) (hrest _ _ (by omega))

/-- A glyph is one token before whatever the rest of the spelling expands to, also where more text comes
after that, as long as all glyphs end before it. -/
theorem next_append {glyph : Glyph} {rest : List Char} (h : Spelling.IsLegible (.glyph glyph :: spelling))
    (hexpands : Expands spelling cs)
    (hrest : ∀ c ∈ rest.head?, ∀ last : Glyph, last.IsGenuine → last.endsBefore c) :
    Scan.next (glyph.text.toList ++ (cs ++ rest)) = ⟨glyph.kind, glyph.text.toList.length⟩ := by
  have hlast {last : Glyph} {ds : List Char} (hgenuine : last.IsGenuine)
      (hends : ∀ c ∈ ds.head?, last.endsBefore c) : ∀ c ∈ (ds ++ rest).head?, last.endsBefore c := by
    intro c hc
    cases ds with
    | nil => exact hrest c hc last hgenuine
    | cons d ds => exact hends c hc
  rcases ends_or_continues h hexpands with hends | ⟨next, spelling, tail, rfl, rfl, htail, hcontinues⟩
  · have hgenuine := h.genuine glyph (by simp)
    exact Glyph.next_of_endsBefore hgenuine (hlast hgenuine hends)
  · rw [List.append_assoc]
    apply Glyph.next_of_continues hcontinues
    apply hlast (h.genuine next (by simp))
    -- The rest of a name continues with nothing.
    rcases ends_or_continues h.tail htail with hends | ⟨_, _, _, -, -, -, hkind, -⟩
    · exact hends
    · obtain ⟨-, _, _, -, -, -, -, ⟨-, hword⟩ | ⟨-, hquoted⟩⟩ := hcontinues
      · rw [hword] at hkind
        cases hkind
      · rw [hquoted] at hkind
        cases hkind

/-- The tokens of an expansion are the glyphs of the spelling. -/
theorem realizes_scan {steps start : Nat} (h : spelling.IsLegible) (hexpands : Expands spelling cs)
    (hsteps : cs.length ≤ steps) : Realizes start spelling (scan steps start cs) := by
  induction hexpands generalizing steps start with
  | nil => cases steps <;> exact .nil start
  | @glyph glyph spelling cs hrest ih =>
    have hne : glyph.text.toList ≠ [] := by
      obtain ⟨c, ds, htext, -⟩ := Glyph.exists_cons_of_isGenuine (h.genuine glyph (by simp))
      simp [htext]
    have hnext : Scan.next (glyph.text.toList ++ cs) = ⟨glyph.kind, glyph.text.toList.length⟩ := by
      have halone := @next_append _ _ _ [] h hrest (by simp)
      rwa [List.append_nil] at halone
    cases steps with
    | zero => simp [hne] at hsteps
    | succ steps =>
      rw [scan_append hnext hne, String.ofList_toList]
      have hpos := List.length_pos_of_ne_nil hne
      rw [List.length_append] at hsteps
      exact .glyph glyph (ih h.tail (by omega))
  | gap hblanks hne hrest ih =>
    exact realizes_blanks h (by simp) hblanks hne hrest (fun _ _ => ih h.tail) hsteps
  | @soft side blanks hblanks spelling cs hrest ih =>
    cases blanks with
    | nil => exact .soft side (ih h.tail hsteps)
    | cons c blanks =>
      exact realizes_blanks h (by simp) hblanks (by simp) hrest (fun _ _ => ih h.tail) hsteps
  | line breaks hrest ih =>
    exact realizes_blanks h (by simp) (IsTidy.breaks breaks).newline (by simp) hrest
      (fun _ _ => ih h.tail) hsteps

end Scanning

section Streams

variable {spelling : Spelling} {tokens : List Token}

theorem Glyph.kind_of_isGenuine {glyph : Glyph} (h : glyph.IsGenuine) :
    glyph.kind ≠ .garbage ∧ glyph.kind ≠ .whitespace := by
  have hnone : ∀ symbol ∈ Kind.symbols, symbol.1 ≠ .garbage ∧ symbol.1 ≠ .whitespace := by decide
  constructor
  · intro hgarbage
    rw [Glyph.IsGenuine, hgarbage] at h
    exact (hnone _ h).1 rfl
  · intro hblank
    rw [Glyph.IsGenuine, hblank] at h
    exact (hnone _ h).2 rfl

theorem Realizes.kind_ne_garbage {start : Nat} (h : Realizes start spelling tokens)
    (hlegible : spelling.IsLegible) : ∀ token ∈ tokens, token.kind ≠ .garbage := by
  induction h with
  | nil => simp
  | @glyph start glyph spelling tokens h ih =>
    have hkind := (Glyph.kind_of_isGenuine (hlegible.genuine glyph (by simp))).1
    exact List.forall_mem_cons.mpr ⟨hkind, ih hlegible.tail⟩
  | blank hatom htext htidy h ih => exact List.forall_mem_cons.mpr ⟨by simp, ih hlegible.tail⟩
  | soft side h ih => exact ih hlegible.tail

theorem foldr_cover (h : ∀ token ∈ tokens, token.kind ≠ .garbage) : tokens.foldr cover [] = tokens := by
  induction tokens with
  | nil => rfl
  | cons token tokens ih =>
    have htoken : token.kind ≠ .garbage := h token (by simp)
    rw [List.foldr_cons, ih fun other hother => h other (by simp [hother])]
    cases tokens with
    | nil => rfl
    | cons next tokens => simp [cover, htoken]

/-- The tokens of a text that expands a spelling. -/
theorem realizes_lex {source : String} (h : spelling.IsLegible) (hexpands : Expands spelling source.toList) :
    Realizes 0 spelling (lex source) := by
  have hrealizes : Realizes 0 spelling (scan source.toList.length 0 source.toList) :=
    realizes_scan h hexpands le_rfl
  rwa [← foldr_cover (hrealizes.kind_ne_garbage h)] at hrealizes

/-- The stream of an expansion holds the tokens of the spelling. -/
theorem ofSource_eq_sort {source : String} (h : spelling.IsLegible)
    (hexpands : Expands spelling source.toList) :
    TokenStream.ofSource source = .ok (TokenStream.sort 0 (lex source)) := by
  have hgarbage := (realizes_lex h hexpands).kind_ne_garbage h
  have hfind : (lex source).find? (fun token => decide (token.kind = .garbage)) = none := by
    simpa using hgarbage
  unfold TokenStream.ofSource
  simp only [hfind]

/-- The glyphs that are no comments. -/
def Spelling.glyphs : Spelling → List Glyph
  | [] => []
  | .glyph glyph :: spelling =>
    if glyph.kind.isComment then glyphs spelling else glyph :: glyphs spelling
  | _ :: spelling => glyphs spelling

/-- The comments, each with the number of other glyphs before it, when some came before. -/
def Spelling.commentsFrom (count : Nat) : Spelling → List (Nat × String)
  | [] => []
  | .glyph glyph :: spelling =>
    if glyph.kind.isComment then (count, glyph.text) :: commentsFrom count spelling
    else commentsFrom (count + 1) spelling
  | _ :: spelling => commentsFrom count spelling

/-- Tokens that are some glyphs; what is tied touches. -/
inductive Shows : List Token → List Glyph → Prop
  | nil : Shows [] []
  | cons {token : Token} {glyph : Glyph} {tokens : List Token} {glyphs : List Glyph}
    (hkind : token.kind = glyph.kind) (htext : token.text = glyph.text)
    (htied : glyph.tied → ∀ next ∈ tokens.head?, token.stop = next.start) (h : Shows tokens glyphs) :
    Shows (token :: tokens) (glyph :: glyphs)

theorem sort_comment {token : Token} (h : token.kind.isComment) (count : Nat) :
    TokenStream.sort count (token :: tokens) =
      { TokenStream.sort count tokens with
        comments := { before := count, token } :: (TokenStream.sort count tokens).comments } := by
  rw [TokenStream.sort, if_pos h]

theorem sort_glyph {token : Token} (hcomment : token.kind.isComment = false)
    (hblank : token.kind ≠ .whitespace) (count : Nat) :
    TokenStream.sort count (token :: tokens) =
      { TokenStream.sort (count + 1) tokens with
        tokens := token :: (TokenStream.sort (count + 1) tokens).tokens } := by
  have htrivia : token.kind.isTrivia = false := by
    unfold Kind.isTrivia
    unfold Kind.isComment at hcomment
    split <;> simp_all
  simp [TokenStream.sort, hcomment, htrivia]

theorem sort_blank (text : String) (start count : Nat) :
    TokenStream.sort count (⟨.whitespace, text, start⟩ :: tokens) = TokenStream.sort count tokens :=
  rfl

theorem sort_tokens {start : Nat} (h : Realizes start spelling tokens)
    (hlegible : spelling.IsLegible) (count : Nat) :
    Shows (TokenStream.sort count tokens).tokens spelling.glyphs := by
  induction h generalizing count with
  | nil => exact .nil
  | @glyph start glyph spelling tokens h ih =>
    have hblank := (Glyph.kind_of_isGenuine (hlegible.genuine glyph (by simp))).2
    cases hcomment : glyph.kind.isComment with
    | true =>
      rw [sort_comment hcomment, Spelling.glyphs, if_pos hcomment]
      exact ih hlegible.tail count
    | false =>
      rw [sort_glyph hcomment hblank, Spelling.glyphs, if_neg (by simp [hcomment])]
      refine .cons rfl rfl ?_ (ih hlegible.tail (count + 1))
      -- What follows a tied glyph is a glyph without anything in between.
      intro htied next hnext
      cases h with
      | nil => cases hnext
      | @glyph _ other spelling tokens h =>
        have hjoins := (List.isChain_cons_cons.mp hlegible.joins).1
        have hother := (Glyph.kind_of_isGenuine (hlegible.genuine other (by simp))).2
        rw [sort_glyph hjoins.1 hother] at hnext
        cases hnext
        rfl
      | @blank _ atom hatom =>
        have hjoins := (List.isChain_cons_cons.mp hlegible.joins).1
        exact absurd htied (by simp [Atom.tied_eq_false hjoins hatom])
      | soft side =>
        have hjoins := (List.isChain_cons_cons.mp hlegible.joins).1
        exact absurd htied (by simp [Atom.tied_eq_false hjoins (by simp)])
  | @blank start atom hatom text htext htidy spelling tokens h ih =>
    rw [sort_blank]
    cases atom with
    | glyph glyph => exact absurd rfl (hatom glyph)
    | _ => exact ih hlegible.tail count
  | soft side h ih => exact ih hlegible.tail count

theorem sort_comments {start : Nat} (h : Realizes start spelling tokens)
    (hlegible : spelling.IsLegible) (count : Nat) :
    (TokenStream.sort count tokens).comments.map (fun comment => (comment.before, comment.token.text)) =
      spelling.commentsFrom count := by
  induction h generalizing count with
  | nil => rfl
  | @glyph start glyph spelling tokens h ih =>
    have hblank := (Glyph.kind_of_isGenuine (hlegible.genuine glyph (by simp))).2
    cases hcomment : glyph.kind.isComment with
    | true =>
      rw [sort_comment hcomment, Spelling.commentsFrom, if_pos hcomment, List.map_cons,
        ih hlegible.tail]
    | false =>
      rw [sort_glyph hcomment hblank, Spelling.commentsFrom, if_neg (by simp [hcomment])]
      exact ih hlegible.tail (count + 1)
  | @blank start atom hatom text htext htidy spelling tokens h ih =>
    rw [sort_blank]
    cases atom with
    | glyph glyph => exact absurd rfl (hatom glyph)
    | _ => exact ih hlegible.tail count
  | soft side h ih => exact ih hlegible.tail count

end Streams

end SqlLayout
