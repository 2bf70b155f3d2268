import Mathlib.Algebra.Group.Nat.Even
import SqlLayout.Proofs.Token.Stream
import SqlLayout.Proofs.Token.Tiling

/-!
# Where Block Comments End

The body of a block comment is read in pairs, so a closer counts only if an even number of stars stand right
before it; otherwise its star goes together with the one before. A comment ends at the first closer that
counts, and where there is none, its opener is a slash and a star.
-/

namespace SqlLayout.Token

namespace Scan

/-- How many stars stand at the end of some characters. -/
def trailingStars (cs : List Char) : Nat :=
  (cs.reverse.takeWhile (· = '*')).length

theorem trailingStars_cons {c : Char} (hc : c ≠ '*') (cs : List Char) :
    trailingStars (c :: cs) = trailingStars cs := by
  rw [trailingStars, trailingStars, List.reverse_cons, List.takeWhile_append]
  split
  · rename_i hall
    simp [hc, hall]
  · rfl

/-- A star and the character after it, be it another star or not, leave the parity as it is. -/
theorem even_trailingStars_star (c : Char) (cs : List Char) :
    Even (trailingStars ('*' :: c :: cs)) ↔ Even (trailingStars cs) := by
  have hreverse : ('*' :: c :: cs).reverse = cs.reverse ++ [c, '*'] := by simp
  rw [trailingStars, trailingStars, hreverse, List.takeWhile_append]
  split
  · rename_i hall
    by_cases hc : c = '*'
    · have htwo : Even 2 := by decide
      simp [hc, hall, Nat.even_add, htwo]
    · simp [hc, hall]
  · rfl

/-- Some characters of a body and a closer after them that counts. -/
structure ClosesAfter (inner body : List Char) : Prop where
  leading : inner ++ ['*', '/'] <+: body
  even : Even (trailingStars inner)

section Closers

variable {c : Char} {inner cs : List Char}

theorem closesAfter_nil (cs : List Char) : ClosesAfter [] ('*' :: '/' :: cs) :=
  ⟨⟨cs, rfl⟩, .zero⟩

theorem not_closesAfter_nil : ¬ClosesAfter inner [] :=
  fun h => by simpa using h.leading

theorem not_closesAfter_star : ¬ClosesAfter inner ['*'] := by
  intro h
  have hlength := h.leading.length_le
  simp at hlength

theorem closesAfter_cons (hc : c ≠ '*') :
    ClosesAfter inner (c :: cs) ↔ ∃ rest, inner = c :: rest ∧ ClosesAfter rest cs := by
  constructor
  · rintro ⟨hleading, heven⟩
    cases inner with
    | nil => exact absurd (List.cons_prefix_cons.mp hleading).1.symm hc
    | cons d rest =>
      obtain ⟨rfl, hrest⟩ := List.cons_prefix_cons.mp hleading
      exact ⟨rest, rfl, hrest, trailingStars_cons hc rest ▸ heven⟩
  · rintro ⟨rest, rfl, hleading, heven⟩
    exact ⟨List.cons_prefix_cons.mpr ⟨rfl, hleading⟩, (trailingStars_cons hc rest).symm ▸ heven⟩

/-- A star alone is odd, so nothing can close right after it. -/
theorem closesAfter_star (hc : c ≠ '/') :
    ClosesAfter inner ('*' :: c :: cs) ↔ ∃ rest, inner = '*' :: c :: rest ∧ ClosesAfter rest cs := by
  constructor
  · rintro ⟨hleading, heven⟩
    rcases inner with _ | ⟨d, _ | ⟨e, rest⟩⟩
    · obtain ⟨-, hslash⟩ := List.cons_prefix_cons.mp hleading
      exact absurd (List.cons_prefix_cons.mp hslash).1.symm hc
    · obtain ⟨rfl, -⟩ := List.cons_prefix_cons.mp hleading
      exact absurd heven (by decide)
    · obtain ⟨rfl, hnext⟩ := List.cons_prefix_cons.mp hleading
      obtain ⟨rfl, hrest⟩ := List.cons_prefix_cons.mp hnext
      exact ⟨rest, rfl, hrest, (even_trailingStars_star e rest).mp heven⟩
  · rintro ⟨rest, rfl, hleading, heven⟩
    refine ⟨?_, (even_trailingStars_star c rest).mpr heven⟩
    exact List.cons_prefix_cons.mpr ⟨rfl, List.cons_prefix_cons.mpr ⟨rfl, hleading⟩⟩

end Closers

/-- The first of the closers that count. -/
structure ClosesFirstAfter (inner body : List Char) : Prop extends ClosesAfter inner body where
  length_le : ∀ other, ClosesAfter other body → inner.length ≤ other.length

/-- The end that reading in pairs finds is the first closer that counts; it finds none if there is none. -/
inductive EndsAt (body : List Char) : Option Nat → Prop
  | closed (inner : List Char) (h : ClosesFirstAfter inner body) : EndsAt body (some (inner.length + 2))
  | opened (h : ∀ inner, ¬ClosesAfter inner body) : EndsAt body none

/-- Characters that no closer starts within put the end off. -/
theorem EndsAt.append {cs : List Char} {stop : Option Nat} (h : EndsAt cs stop) (step : List Char)
    (hstep : ∀ inner, ClosesAfter inner (step ++ cs) ↔ ∃ rest, inner = step ++ rest ∧ ClosesAfter rest cs) :
    EndsAt (step ++ cs) (stop.map (· + step.length)) := by
  cases h with
  | closed inner h =>
    have hclosed : ClosesFirstAfter (step ++ inner) (step ++ cs) := by
      refine ⟨(hstep _).mpr ⟨inner, rfl, h.toClosesAfter⟩, fun other hother => ?_⟩
      obtain ⟨rest, rfl, hrest⟩ := (hstep other).mp hother
      have hle := h.length_le rest hrest
      simp only [List.length_append]
      omega
    have hlength : inner.length + 2 + step.length = (step ++ inner).length + 2 := by
      simp only [List.length_append]
      omega
    rw [Option.map_some, hlength]
    exact .closed _ hclosed
  | opened h =>
    refine .opened fun inner hinner => ?_
    obtain ⟨rest, -, hrest⟩ := (hstep inner).mp hinner
    exact h rest hrest

theorem endsAt_blockEnd? (body : List Char) : EndsAt body (blockEnd? body) := by
  fun_induction blockEnd? body with
  | case1 cs => exact .closed [] ⟨closesAfter_nil cs, fun _ _ => Nat.zero_le _⟩
  | case2 c cs hc ih => exact ih.append ['*', c] fun _ => closesAfter_star hc
  | case3 => exact .opened fun _ => not_closesAfter_star
  | case4 c cs _ hpair hlone ih =>
    have hc : c ≠ '*' := by
      rintro rfl
      cases cs with
      | nil => exact hlone rfl rfl
      | cons d cs => exact hpair d cs rfl rfl
    exact ih.append [c] fun _ => closesAfter_cons hc
  | case5 => exact .opened fun _ => not_closesAfter_nil

theorem ClosesAfter.exists_eq {inner body : List Char} (h : ClosesAfter inner body) :
    ∃ after, body = inner ++ '*' :: '/' :: after := by
  obtain ⟨after, hafter⟩ := h.leading
  exact ⟨after, by simpa using hafter.symm⟩

/-- A comment that is closed. -/
theorem next_closed {inner body : List Char} (h : blockEnd? body = some (inner.length + 2))
    (hcloses : ClosesAfter inner body) :
    next ('/' :: '*' :: body) = ⟨.blockComment, inner.length + 4⟩ := by
  obtain ⟨after, rfl⟩ := hcloses.exists_eq
  have htake : (inner ++ '*' :: '/' :: after).take (inner.length + 2) = inner ++ ['*', '/'] := by
    rw [List.take_length_add_append]
    rfl
  have hcomment : IsBlockComment ('/' :: '*' :: (inner ++ ['*', '/'])) := by
    refine ⟨inner ++ ['*', '/'], rfl, ?_⟩
    have hend := (blockEnd?_take_append h []).2
    rw [htake, List.append_nil] at hend
    rw [hend, List.length_append]
    rfl
  have hnext := next_blockComment hcomment after
  simpa using hnext

end Scan

section Sources

variable {token : Token} {tokens : List Token} {cs : List Char} {steps start : Nat}

/-- Every token that is scanned is the next one of what is left. -/
theorem exists_next_of_mem_scan (h : token ∈ scan steps start cs) :
    ∃ before rest, cs = before ++ rest ∧ token.start = start + (String.ofList before).utf8ByteSize ∧
      token.kind = (Scan.next rest).kind ∧
      token.text = String.ofList (rest.take (Scan.next rest).length) := by
  induction steps generalizing start cs with
  | zero => cases h
  | succ steps ih =>
    cases cs with
    | nil => cases h
    | cons c cs =>
      rcases List.mem_cons.mp h with rfl | h
      · exact ⟨[], c :: cs, rfl, by simp, rfl, rfl⟩
      · obtain ⟨before, rest, hsplit, hstart, hkind, htext⟩ := ih h
        refine ⟨(c :: cs).take (Scan.next (c :: cs)).length ++ before, rest, ?_, ?_, hkind, htext⟩
        · rw [List.append_assoc, ← hsplit, List.take_append_drop]
        · rw [hstart, String.ofList_append, String.utf8ByteSize_append, Nat.add_assoc]

/-- Covering leaves every token where it starts and of the kind it is. -/
theorem exists_mem_of_mem_foldr_cover (h : token ∈ tokens.foldr cover []) :
    ∃ first ∈ tokens, first.start = token.start ∧ first.kind = token.kind := by
  induction tokens with
  | nil => cases h
  | cons first tokens ih =>
    rw [List.foldr_cons] at h
    have hrest (hmem : token ∈ tokens.foldr cover []) :
        ∃ other ∈ first :: tokens, other.start = token.start ∧ other.kind = token.kind := by
      obtain ⟨other, hother, hsame⟩ := ih hmem
      exact ⟨other, List.mem_cons_of_mem _ hother, hsame⟩
    cases hcover : tokens.foldr cover [] with
    | nil =>
      rw [hcover] at h
      exact ⟨first, List.mem_cons_self, by rw [List.mem_singleton.mp h]; exact ⟨rfl, rfl⟩⟩
    | cons next rest =>
      rw [hcover, cover] at h
      rw [hcover] at hrest
      split at h
      · rcases List.mem_cons.mp h with rfl | h
        · exact ⟨first, List.mem_cons_self, rfl, rfl⟩
        · exact hrest (List.mem_cons_of_mem _ h)
      · rcases List.mem_cons.mp h with rfl | h
        · exact ⟨token, List.mem_cons_self, rfl, rfl⟩
        · exact hrest h

/-- A token of a source is of the kind of the next one where it starts, and has its text unless it is
garbage. -/
theorem next_of_mem_lex {source : String} {before rest : List Char} (h : token ∈ lex source)
    (hsource : source.toList = before ++ rest) (hstart : token.start = (String.ofList before).utf8ByteSize) :
    token.kind = (Scan.next rest).kind ∧
      (token.kind ≠ .garbage → token.text = String.ofList (rest.take (Scan.next rest).length)) := by
  have hscan {other : Token} (hmem : other ∈ scan source.toList.length 0 source.toList)
      (hother : other.start = token.start) :
      other.kind = (Scan.next rest).kind ∧
        other.text = String.ofList (rest.take (Scan.next rest).length) := by
    obtain ⟨before', rest', hsplit, hstart', hkind, htext⟩ := exists_next_of_mem_scan hmem
    have hbytes : Text.byteSize before' = Text.byteSize before := by
      have hofList (cs : List Char) : Text.byteSize cs = (String.ofList cs).utf8ByteSize := by
        rw [← Text.byteSize_toList, String.toList_ofList]
      rw [hofList, hofList, ← hstart, ← hother, hstart', Nat.zero_add]
    have hbefore : some before' = some before := by
      rw [← Text.takeBytes?_byteSize before' rest', ← Text.takeBytes?_byteSize before rest, ← hsplit,
        ← hsource, hbytes]
    obtain rfl := Option.some.inj hbefore
    obtain rfl : rest' = rest := List.append_cancel_left (hsplit.symm.trans hsource)
    exact ⟨hkind, htext⟩
  obtain ⟨first, hfirst, hsame, hkind⟩ := exists_mem_of_mem_foldr_cover h
  refine ⟨hkind ▸ (hscan hfirst hsame).1, fun hgarbage => ?_⟩
  exact (hscan (mem_of_mem_foldr_cover h hgarbage) rfl).2

/-- A token at an opener is a comment up to the first closer that counts, or else a slash. -/
theorem opener_cases {source before body : String} (h : token ∈ lex source)
    (hsource : source = before ++ "/*" ++ body) (hstart : token.start = before.utf8ByteSize) :
    (∃ inner, Scan.ClosesFirstAfter inner body.toList ∧
      token = ⟨.blockComment, "/*" ++ String.ofList inner ++ "*/", before.utf8ByteSize⟩) ∨
    ((∀ inner, ¬Scan.ClosesAfter inner body.toList) ∧ token = ⟨.slash, "/", before.utf8ByteSize⟩) := by
  have hsplit : source.toList = before.toList ++ '/' :: '*' :: body.toList := by
    rw [hsource, String.toList_append, String.toList_append, List.append_assoc]
    rfl
  obtain ⟨hkind, htext⟩ := next_of_mem_lex h hsplit (by rwa [String.ofList_toList])
  have hends := Scan.endsAt_blockEnd? body.toList
  generalize hend : Scan.blockEnd? body.toList = stop at hends
  cases hends with
  | closed inner hcloses =>
    rw [Scan.next_closed hend hcloses.toClosesAfter] at hkind htext
    obtain ⟨after, hbody⟩ := hcloses.exists_eq
    have hmarked : String.ofList (('/' :: '*' :: body.toList).take (inner.length + 4)) =
        "/*" ++ String.ofList inner ++ "*/" := by
      rw [← String.toList_inj, hbody, List.take_succ_cons, List.take_succ_cons, List.take_length_add_append]
      simp
    have hcomment : token.kind = .blockComment := hkind
    have hgarbage : token.kind ≠ .garbage := by simp [hcomment]
    exact .inl ⟨inner, hcloses, by rw [← hstart, ← hmarked, ← htext hgarbage, ← hcomment]⟩
  | opened hnone =>
    rw [Scan.next_opened hend] at hkind htext
    have hslash : token.kind = .slash := hkind
    have htext : token.text = "/" := htext (by simp [hslash])
    exact .inr ⟨hnone, by rw [← hstart, ← htext, ← hslash]⟩

/-- A token that starts at an opener is a comment up to the first closer that an even number of stars stand
right before, or a slash if there is no such closer. Hence it ends after the first closer of all just if the
stars before that one are even in number. -/
theorem eq_comment_or_slash_of_opener {source before body : String} (h : token ∈ lex source)
    (hsource : source = before ++ "/*" ++ body) (hstart : token.start = before.utf8ByteSize) :
    ((∃ inner, Scan.ClosesFirstAfter inner body.toList ∧
        token = ⟨.blockComment, "/*" ++ String.ofList inner ++ "*/", before.utf8ByteSize⟩) ∨
      ((∀ inner, ¬Scan.ClosesAfter inner body.toList) ∧ token = ⟨.slash, "/", before.utf8ByteSize⟩)) ∧
    ∀ inner, inner ++ ['*', '/'] <+: body.toList →
      (∀ other, other ++ ['*', '/'] <+: body.toList → inner.length ≤ other.length) →
      (token = ⟨.blockComment, "/*" ++ String.ofList inner ++ "*/", before.utf8ByteSize⟩ ↔
        Even (Scan.trailingStars inner)) := by
  have hcases := opener_cases h hsource hstart
  refine ⟨hcases, fun inner hleading hfirst => ⟨?_, fun heven => ?_⟩⟩
  · rintro rfl
    obtain ⟨other, hother, htoken⟩ | ⟨-, htoken⟩ := hcases
    · obtain rfl : inner = other := by simpa [String.ofList_inj] using htoken
      exact hother.even
    · cases htoken
  · have hcloses : Scan.ClosesAfter inner body.toList := ⟨hleading, heven⟩
    obtain ⟨other, hother, htoken⟩ | ⟨hnone, -⟩ := hcases
    · have hlength : inner.length = other.length :=
        Nat.le_antisymm (hfirst other hother.leading) (hother.length_le inner hcloses)
      have hsame : inner ++ ['*', '/'] = other ++ ['*', '/'] :=
        (List.prefix_of_prefix_length_le hleading hother.leading (by simp [hlength])).eq_of_length
          (by simp [hlength])
      rwa [List.append_cancel_right hsame]
    · exact absurd hcloses (hnone inner)

/-- Where the stars are odd in number, the comment goes on to a later closer. -/
theorem lex_threeStars :
    lex "/***/ x */" = [⟨.blockComment, "/***/ x */", 0⟩] ∧
      "*".toList ++ ['*', '/'] <+: "**/ x */".toList ∧
      ∀ other, other ++ ['*', '/'] <+: "**/ x */".toList → "*".toList.length ≤ other.length := by
  refine ⟨by decide, ⟨" x */".toList, rfl⟩, fun other hother => ?_⟩
  cases other with
  | nil => exact absurd hother (by decide)
  | cons c cs => exact Nat.le_add_left _ _

/-- Two stars right before a closer let it close the comment. -/
theorem eq_comment_of_opener_twoStars :
    (⟨.blockComment, "/* ***/", 2⟩ : Token) ∈ lex "1 /* ***/ 2 */" ∧
      " **".toList ++ ['*', '/'] <+: " ***/ 2 */".toList ∧
      ((⟨.blockComment, "/* ***/", 2⟩ : Token) =
          ⟨.blockComment, "/*" ++ String.ofList " **".toList ++ "*/", "1 ".utf8ByteSize⟩ ↔
        Even (Scan.trailingStars " **".toList)) := by
  have hmem : (⟨.blockComment, "/* ***/", 2⟩ : Token) ∈ lex "1 /* ***/ 2 */" := by decide
  have hleading : " **".toList ++ ['*', '/'] <+: " ***/ 2 */".toList := ⟨" 2 */".toList, rfl⟩
  have hsource : "1 /* ***/ 2 */" = "1 " ++ "/*" ++ " ***/ 2 */" := by decide
  have hclosing := (eq_comment_or_slash_of_opener hmem hsource (by decide)).2
  refine ⟨hmem, hleading, hclosing _ hleading ?_⟩
  intro other hother
  rcases other with _ | ⟨c, _ | ⟨d, _ | ⟨e, cs⟩⟩⟩
  · exact absurd hother (by decide)
  · exact absurd hother (by simp)
  · exact absurd hother (by simp)
  · simp

end Sources

end SqlLayout.Token
