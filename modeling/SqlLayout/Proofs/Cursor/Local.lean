import SqlLayout.Proofs.Cursor.Closed

/-!
# Local Rules

A local rule goes by the tokens up to a semicolon alone. Where it gives a value with no semicolon in sight,
it gives the same value, and takes the same tokens, if a semicolon and anything else comes after them. None
of the tokens it takes is a slash before a star, so no comment that was left open is read as an expression.
Being local is a closed property.
-/

namespace SqlLayout

namespace Cursor

/-- Whether the token some steps ahead is a slash before a star. -/
def opensAt (cursor : Cursor) (ahead : Nat) : Bool :=
  cursor.seesAt ahead "/" && cursor.seesAt (ahead + 1) "*"

section Opening

variable {cursor : Cursor} {count ahead : Nat}

theorem seesAt_advance (cursor : Cursor) (count ahead : Nat) (pattern : String) :
    (cursor.advance count).seesAt ahead pattern = cursor.seesAt (count + ahead) pattern := by
  rw [seesAt_eq_fitsLook, seesAt_eq_fitsLook, look?_advance]

theorem opensAt_advance (cursor : Cursor) (count ahead : Nat) :
    (cursor.advance count).opensAt ahead = cursor.opensAt (count + ahead) := by
  rw [opensAt, opensAt, seesAt_advance, seesAt_advance, Nat.add_assoc]

/-- None of so many tokens is a slash before a star, and none of those after them. -/
theorem opensAt_of_advance {further : Nat} (h : ∀ ahead < count, cursor.opensAt ahead = false)
    (hnext : ∀ ahead < further, (cursor.advance count).opensAt ahead = false) :
    ∀ ahead < count + further, cursor.opensAt ahead = false := by
  intro ahead hahead
  by_cases hlt : ahead < count
  · exact h ahead hlt
  · have hopens := hnext (ahead - count) (by omega)
    rwa [opensAt_advance, Nat.add_sub_cancel' (Nat.le_of_not_lt hlt)] at hopens

theorem lt_remaining_of_seesAt {pattern : String} (h : cursor.seesAt ahead pattern = true) :
    ahead < cursor.remaining := by
  obtain ⟨token, htoken, -⟩ := token_of_seesAt h
  by_contra hle
  rw [token?_eq_none_iff.mpr (Nat.le_of_not_lt hle)] at htoken
  cases htoken

theorem lt_remaining_of_look? {look : Token.Kind × String} (h : cursor.look? ahead = some look) :
    ahead < cursor.remaining := by
  by_contra hle
  rw [look?_eq_none_iff.mpr (Nat.le_of_not_lt hle)] at h
  cases h

theorem excludes_slash {pattern : String} (h : pattern ≠ "/") : excludes pattern "/" = true := by
  have hslash : isWordPattern "/" = false := by decide
  unfold excludes
  split
  · rw [hslash]
    rfl
  · rw [bne_iff_ne.mpr h, Bool.or_true]

theorem opensAt_of_seesAt {pattern : String} (h : cursor.seesAt ahead pattern = true)
    (hpattern : pattern ∉ breaks) : cursor.opensAt ahead = false := by
  rw [opensAt, seesAt_eq_false h (excludes_slash (ne_of_not_mem_breaks hpattern).2), Bool.false_and]

theorem seesAt_of_seesAllAt {patterns : List String} (h : cursor.seesAllAt ahead patterns = true)
    {index : Nat} (hindex : index < patterns.length) :
    ∃ pattern ∈ patterns, cursor.seesAt (ahead + index) pattern = true := by
  induction patterns generalizing ahead index with
  | nil => exact absurd hindex (Nat.not_lt_zero _)
  | cons pattern patterns ih =>
    rw [seesAllAt, Bool.and_eq_true] at h
    cases index with
    | zero => exact ⟨pattern, List.mem_cons_self, h.1⟩
    | succ index =>
      obtain ⟨other, hother, hsees⟩ := ih h.2 (Nat.lt_of_succ_lt_succ hindex)
      refine ⟨other, List.mem_cons_of_mem pattern hother, ?_⟩
      rwa [Nat.add_assoc, Nat.add_comm 1 index] at hsees

theorem length_le_remaining_of_seesAll {patterns : List String} (h : cursor.seesAll patterns = true) :
    patterns.length ≤ cursor.remaining := by
  by_contra hle
  obtain ⟨pattern, -, hpattern⟩ := seesAt_of_seesAllAt h (Nat.lt_of_not_le hle)
  have hlt := lt_remaining_of_seesAt hpattern
  omega

theorem StopsWithin.seesAllAt_eq {other : Cursor} (h : cursor.StopsWithin other) {patterns : List String}
    (hpatterns : ∀ pattern ∈ patterns, pattern ∉ breaks) (hahead : ahead ≤ cursor.remaining) :
    other.seesAllAt ahead patterns = cursor.seesAllAt ahead patterns := by
  induction patterns generalizing ahead with
  | nil => rfl
  | cons pattern patterns ih =>
    have hne := (ne_of_not_mem_breaks (hpatterns pattern List.mem_cons_self)).1
    rw [seesAllAt, seesAllAt, h.seesAt_eq hahead hne]
    cases hsees : cursor.seesAt ahead pattern with
    | false => rfl
    | true =>
      have hrest := fun other hother => hpatterns other (List.mem_cons_of_mem pattern hother)
      rw [ih hrest (lt_remaining_of_seesAt hsees)]

theorem StopsWithin.text?_eq {other : Cursor} (h : cursor.StopsWithin other)
    (hremaining : 0 < cursor.remaining) :
    other.text? = cursor.text? := by
  rw [text?_eq_look?, h.look?_eq hremaining, text?_eq_look?]

theorem StopsWithin.texts_eq {other : Cursor} (h : cursor.StopsWithin other)
    (hcount : count ≤ cursor.remaining) :
    other.texts count = cursor.texts count := by
  obtain ⟨bytes, htokens⟩ := h.tokens
  rw [texts, texts, List.map_filterMap, List.map_filterMap]
  apply List.filterMap_congr
  intro index hindex
  rw [htokens index (Nat.lt_of_lt_of_le (List.mem_range.mp hindex) hcount), Option.map_map]
  rfl

/-- Tokens that are moved by the same number of bytes touch as before. -/
theorem StopsWithin.touching_eq {other : Cursor} (h : cursor.StopsWithin other)
    (hcount : count < cursor.remaining) :
    other.touching count = cursor.touching count := by
  obtain ⟨bytes, htokens⟩ := h.tokens
  rw [touching, touching, Bool.eq_iff_iff, List.all_eq_true, List.all_eq_true]
  refine forall₂_congr fun index hindex => ?_
  have hlt := List.mem_range.mp hindex
  rw [htokens index (by omega), htokens (index + 1) (by omega)]
  cases cursor.token? index with
  | none => rfl
  | some token =>
    cases cursor.token? (index + 1) with
    | none => rfl
    | some next =>
      simp only [Option.map_some, beq_iff_eq, Token.moved, Token.stop]
      omega

end Opening

end Cursor

namespace Rule

variable {α β : Type}

/-- The rule takes some of the tokens left at both cursors, none of them a slash before a star, and gives
the same value. -/
structure Takes (rule : Rule α) (cursor other : Cursor) (value : α) (count : Nat) : Prop where
  run : rule cursor = .ok value (cursor.advance count)
  run' : rule other = .ok value (other.advance count)
  count_le : count ≤ cursor.remaining
  opens : ∀ ahead < count, cursor.opensAt ahead = false

/-- What a rule gives at a cursor it gives as well where a semicolon may follow, and it takes a token if the
value asks for it. -/
def IsLocal (takes : α → Prop) (rule : Rule α) : Prop :=
  ∀ cursor other value after, cursor.StopsWithin other → rule cursor = .ok value after →
    ∃ count, rule.Takes cursor other value count ∧ (takes value → 0 < count)

section Takes

variable {cursor other : Cursor} {value : α} {last : β} {count further : Nat} {rule : Rule α}
  {next : α → Rule β}

/-- A rule that leaves both cursors where they are. -/
theorem Takes.stay (h : rule cursor = .ok value cursor) (h' : rule other = .ok value other) :
    rule.Takes cursor other value 0 :=
  ⟨h, h', Nat.zero_le _, fun ahead hahead => absurd hahead (Nat.not_lt_zero ahead)⟩

theorem Takes.bind (h : rule.Takes cursor other value count)
    (hnext : (next value).Takes (cursor.advance count) (other.advance count) last further) :
    (rule >>= next).Takes cursor other last (count + further) where
  run := by rw [bind_of_ok h.run, hnext.run, Cursor.advance_advance]
  run' := by rw [bind_of_ok h.run', hnext.run', Cursor.advance_advance]
  count_le := by
    have hfurther := hnext.count_le
    rw [Cursor.remaining_advance] at hfurther
    have := h.count_le
    omega
  opens := Cursor.opensAt_of_advance h.opens hnext.opens

theorem Takes.after_eq {after : Cursor} (h : rule.Takes cursor other value count)
    (hrun : rule cursor = .ok value after) : after = cursor.advance count := by
  rw [h.run] at hrun
  cases hrun
  rfl

theorem Takes.of_eq {rule' : Rule α} (h : rule'.Takes cursor other value count)
    (heq : rule cursor = rule' cursor) (heq' : rule other = rule' other) :
    rule.Takes cursor other value count :=
  ⟨heq.trans h.run, heq'.trans h.run', h.count_le, h.opens⟩

/-- One token, seen by both cursors. -/
theorem Takes.one (h : rule cursor = .ok value (cursor.advance 1))
    (h' : rule other = .ok value (other.advance 1))
    (hremaining : 1 ≤ cursor.remaining) (hopens : cursor.opensAt 0 = false) :
    rule.Takes cursor other value 1 where
  run := h
  run' := h'
  count_le := hremaining
  opens ahead hahead := by
    obtain rfl : ahead = 0 := by omega
    exact hopens

end Takes

section Local

variable {takes : α → Prop} {goal : β → Prop} {rule : Rule α} {next : α → Rule β}

theorem IsLocal.bind {takes' : α → β → Prop} (h : rule.IsLocal takes)
    (hnext : ∀ value, (next value).IsLocal (takes' value))
    (hgoal : ∀ value last, goal last → takes value ∨ takes' value last) : (rule >>= next).IsLocal goal := by
  intro cursor other last after hstops hrun
  rw [bind_apply] at hrun
  cases hfirst : rule cursor with
  | error failure middle =>
    rw [hfirst] at hrun
    cases hrun
  | ok value middle =>
    rw [hfirst] at hrun
    obtain ⟨count, hcount, htakes⟩ := h cursor other value middle hstops hfirst
    obtain rfl := hcount.after_eq hfirst
    obtain ⟨further, hfurther, htakes'⟩ :=
      hnext value _ _ last after (hstops.advance hcount.count_le) hrun
    refine ⟨count + further, hcount.bind hfurther, fun hlast => ?_⟩
    rcases hgoal value last hlast with hvalue | hvalue
    · exact Nat.add_pos_left (htakes hvalue) _
    · exact Nat.add_pos_right _ (htakes' hvalue)

theorem isLocal_pure {value : α} (h : ¬takes value) : (Pure.pure value : Rule α).IsLocal takes := by
  intro cursor other last after _ hrun
  cases hrun
  exact ⟨0, .stay rfl rfl, fun htakes => absurd htakes h⟩

theorem IsLocal.ask {question : Cursor → α} (h : Cursor.IsWithin question) :
    (Rule.ask question).IsLocal never := by
  intro cursor other value after hstops hrun
  cases hrun
  refine ⟨0, .stay rfl ?_, False.elim⟩
  rw [ask_apply, h cursor other hstops]

theorem isLocal_take? {pattern : String} (h : pattern ∉ Cursor.breaks) : (take? pattern).IsLocal ifFound := by
  intro cursor other value after hstops hrun
  have hsees := Cursor.isWithin_sees (Cursor.ne_of_not_mem_breaks h).1 cursor other hstops
  cases hseen : cursor.sees pattern with
  | false =>
    have hdeclines := take?_of_not hseen
    have hdeclines' := take?_of_not (hsees.symm.trans hseen)
    rw [hdeclines] at hrun
    cases hrun
    exact ⟨0, .stay hdeclines hdeclines', fun hsome => absurd hsome (by simp [ifFound])⟩
  | true =>
    have htakes := take?_of_sees hseen
    have htakes' := take?_of_sees (hsees.symm.trans hseen)
    have hremaining := Cursor.lt_remaining_of_seesAt hseen
    rw [htakes] at hrun
    cases hrun
    rw [hstops.text?_eq hremaining] at htakes'
    exact ⟨1, .one htakes htakes' hremaining (Cursor.opensAt_of_seesAt hseen h), fun _ => Nat.one_pos⟩

theorem isLocal_takeIf {value : Token.Kind × String → Option α}
    (h : ∀ kind text, kind.isSymbol = true → value (kind, text) = none) : (takeIf value).IsLocal ifFound := by
  intro cursor other found after hstops hrun
  have hother : (other.look? 0).bind value = (cursor.look? 0).bind value := by
    rcases hstops.sameWithin (Nat.zero_le _) with heq | ⟨hnone, hsemicolon⟩
    · rw [heq]
    · rw [hnone, hsemicolon]
      exact h _ _ rfl
  cases hlook : (cursor.look? 0).bind value with
  | none =>
    have hdeclines : takeIf value cursor = .ok none cursor := by rw [takeIf, hlook]
    have hdeclines' : takeIf value other = .ok none other := by rw [takeIf, hother, hlook]
    rw [hdeclines] at hrun
    cases hrun
    exact ⟨0, .stay hdeclines hdeclines', fun hsome => absurd hsome (by simp [ifFound])⟩
  | some last =>
    have htakes : takeIf value cursor = .ok (some last) (cursor.advance 1) := by rw [takeIf, hlook]
    have htakes' : takeIf value other = .ok (some last) (other.advance 1) := by rw [takeIf, hother, hlook]
    rw [htakes] at hrun
    cases hrun
    obtain ⟨⟨kind, text⟩, hnext, hvalue⟩ := Option.bind_eq_some_iff.mp hlook
    have hremaining := Cursor.lt_remaining_of_look? hnext
    have hopens : cursor.opensAt 0 = false := by
      have hkind : kind.isSymbol ≠ true := fun hkind => by simp [h kind text hkind] at hvalue
      have hslash : Cursor.isWordPattern "/" = false := by decide
      rw [Cursor.opensAt, Cursor.seesAt_eq_look?, hnext]
      simp [Cursor.fits, hslash, hkind]
    exact ⟨1, .one htakes htakes' hremaining hopens, fun _ => Nat.one_pos⟩

/-- A slash and a rule that cannot start with a star. -/
theorem isLocal_slash {goal : α → Prop} {yes no : Rule α} (hyes : yes.IsLocal never) (hno : no.IsLocal goal)
    (hstar : ∀ cursor, cursor.sees "*" = true → ∀ value after, yes cursor ≠ .ok value after) :
    IsLocal goal (skip "/" >>= fun isThere => if isThere = true then yes else no) := by
  intro cursor other value after hstops hrun
  have hsees := Cursor.isWithin_sees (by decide : "/" ≠ ";") cursor other hstops
  cases hseen : cursor.sees "/" with
  | false =>
    have hskip := skip_of_not hseen
    have hskip' := skip_of_not (hsees.symm.trans hseen)
    rw [bind_of_ok hskip] at hrun
    obtain ⟨count, hcount, htakes⟩ := hno cursor other value after hstops hrun
    exact ⟨count, hcount.of_eq (bind_of_ok hskip) (bind_of_ok hskip'), htakes⟩
  | true =>
    have hskip := skip_of_sees hseen
    have hskip' := skip_of_sees (hsees.symm.trans hseen)
    have hremaining := Cursor.lt_remaining_of_seesAt hseen
    rw [bind_of_ok hskip] at hrun
    obtain ⟨count, hcount, -⟩ := hyes _ _ value after (hstops.advance hremaining) hrun
    have hopens : cursor.opensAt 0 = false := by
      have hnext : (cursor.advance 1).sees "*" = false := by
        by_contra hsees
        exact hstar _ (Bool.of_not_eq_false hsees) value after hrun
      rw [Cursor.sees, Cursor.seesAt_advance] at hnext
      rw [Cursor.opensAt, hnext, Bool.and_false]
    exact ⟨1 + count, Takes.bind (.one hskip hskip' hremaining hopens) hcount, fun _ => by omega⟩

/-- One token more is looked at. Where there is none, the rule for the other case would have to take one. -/
theorem isLocal_ahead {yes no : Rule α} {pattern : String} (h : pattern ∉ Cursor.breaks)
    (hyes : yes.IsLocal always) (hno : no.IsLocal always) :
    IsLocal always (Rule.ask (·.seesAt 1 pattern) >>= fun isAhead => if isAhead = true then yes else no) := by
  intro cursor other value after hstops hrun
  rw [bind_of_ok (ask_apply _ _)] at hrun
  have hremaining : 0 < cursor.remaining := by
    cases hseen : cursor.seesAt 1 pattern with
    | true => exact Nat.lt_trans Nat.one_pos (Cursor.lt_remaining_of_seesAt hseen)
    | false =>
      rw [hseen] at hrun
      obtain ⟨count, hcount, htakes⟩ := hno cursor other value after hstops hrun
      exact Nat.lt_of_lt_of_le (htakes trivial) hcount.count_le
  have hsame := hstops.seesAt_eq hremaining (Cursor.ne_of_not_mem_breaks h).1
  have hchoice : (if cursor.seesAt 1 pattern = true then yes else no).IsLocal always := by
    split
    · exact hyes
    · exact hno
  obtain ⟨count, hcount, htakes⟩ := hchoice cursor other value after hstops hrun
  refine ⟨count, hcount.of_eq (bind_of_ok (ask_apply _ _)) ?_, htakes⟩
  rw [bind_of_ok (ask_apply _ _), hsame]

/-- Tokens that match patterns of which none is a slash. -/
theorem Takes.all {rule : Rule α} {cursor other : Cursor} {value : α} {patterns : List String}
    (h : rule cursor = .ok value (cursor.advance patterns.length))
    (h' : rule other = .ok value (other.advance patterns.length))
    (hsees : cursor.seesAll patterns = true) (hpatterns : ∀ pattern ∈ patterns, pattern ∉ Cursor.breaks) :
    rule.Takes cursor other value patterns.length where
  run := h
  run' := h'
  count_le := Cursor.length_le_remaining_of_seesAll hsees
  opens ahead hahead := by
    obtain ⟨pattern, hpattern, hseen⟩ := Cursor.seesAt_of_seesAllAt hsees hahead
    rw [Nat.zero_add] at hseen
    exact Cursor.opensAt_of_seesAt hseen (hpatterns pattern hpattern)

theorem isLocal_takeAll? {patterns : List String} (h : ∀ pattern ∈ patterns, pattern ∉ Cursor.breaks) :
    (takeAll? patterns).IsLocal ifFound := by
  intro cursor other value after hstops hrun
  have hsame : other.seesAll patterns = cursor.seesAll patterns := hstops.seesAllAt_eq h (Nat.zero_le _)
  cases hseen : patterns.isEmpty || !cursor.seesAll patterns with
  | true =>
    have hdeclines : takeAll? patterns cursor = .ok none cursor := by rw [takeAll?, if_pos hseen]
    have hdeclines' : takeAll? patterns other = .ok none other := by rw [takeAll?, hsame, if_pos hseen]
    rw [hdeclines] at hrun
    cases hrun
    exact ⟨0, .stay hdeclines hdeclines', fun hsome => absurd hsome (by simp [ifFound])⟩
  | false =>
    have htakes : takeAll? patterns cursor = .ok cursor.text? (cursor.advance patterns.length) := by
      rw [takeAll?, hseen, if_neg Bool.false_ne_true]
    have htakes' : takeAll? patterns other = .ok other.text? (other.advance patterns.length) := by
      rw [takeAll?, hsame, hseen, if_neg Bool.false_ne_true]
    simp only [Bool.or_eq_false_iff, List.isEmpty_eq_false_iff, Bool.not_eq_false'] at hseen
    have hlength := List.length_pos_iff.mpr hseen.1
    have htext := hstops.text?_eq (Nat.lt_of_lt_of_le hlength (Takes.all htakes htakes hseen.2 h).count_le)
    rw [htext] at htakes'
    rw [htakes] at hrun
    cases hrun
    exact ⟨patterns.length, .all htakes htakes' hseen.2 h, fun _ => hlength⟩

theorem isLocal_takeJoined? : (takeJoined? [">", ">"]).IsLocal ifFound := by
  intro cursor other value after hstops hrun
  have hbreaks : ∀ pattern ∈ [">", ">"], pattern ∉ Cursor.breaks := by decide
  have hall : other.seesAll [">", ">"] = cursor.seesAll [">", ">"] :=
    hstops.seesAllAt_eq hbreaks (Nat.zero_le _)
  have hbound (h : cursor.seesAll [">", ">"] = true) : 1 < cursor.remaining :=
    Cursor.length_le_remaining_of_seesAll h
  have hsame : other.seesJoined [">", ">"] = cursor.seesJoined [">", ">"] := by
    rw [Cursor.seesJoined, Cursor.seesJoined, hall]
    cases hseen : cursor.seesAll [">", ">"] with
    | false => rfl
    | true =>
      rw [List.length_cons, Nat.add_sub_cancel, List.length_singleton, hstops.touching_eq (hbound hseen)]
  cases hseen : cursor.seesJoined [">", ">"] with
  | false =>
    have hdeclines : takeJoined? [">", ">"] cursor = .ok none cursor := by
      rw [takeJoined?, hseen]
      rfl
    have hdeclines' : takeJoined? [">", ">"] other = .ok none other := by
      rw [takeJoined?, hsame, hseen]
      rfl
    rw [hdeclines] at hrun
    cases hrun
    exact ⟨0, .stay hdeclines hdeclines', fun hsome => absurd hsome (by simp [ifFound])⟩
  | true =>
    have hsees := (Bool.and_eq_true_iff.mp hseen).1
    have htakes : takeJoined? [">", ">"] cursor =
        .ok (some (String.join (cursor.texts 2))) (cursor.advance 2) := by
      rw [takeJoined?, hseen]
      rfl
    have htakes' : takeJoined? [">", ">"] other =
        .ok (some (String.join (other.texts 2))) (other.advance 2) := by
      rw [takeJoined?, hsame, hseen]
      rfl
    rw [hstops.texts_eq (hbound hsees)] at htakes'
    rw [htakes] at hrun
    cases hrun
    exact ⟨2, .all htakes htakes' hsees hbreaks, fun _ => Nat.two_pos⟩

theorem IsLocal.attempt {rule : Rule (Option α)} (h : rule.IsLocal ifFound) :
    (Rule.attempt rule).IsLocal ifFound := by
  intro cursor other value after hstops hrun
  rw [attempt_apply] at hrun
  cases hfirst : rule cursor with
  | error failure middle =>
    rw [hfirst] at hrun
    cases hrun
  | ok found middle =>
    obtain ⟨count, hcount, htakes⟩ := h cursor other found middle hstops hfirst
    cases found with
    | none =>
      rw [hcount.run] at hrun
      cases hrun
      refine ⟨0, .stay ?_ ?_, fun hsome => absurd hsome (by simp [ifFound])⟩
      · rw [attempt_apply, hcount.run]
        rfl
      · rw [attempt_apply, hcount.run']
        rfl
    | some found =>
      rw [hcount.run] at hrun
      cases hrun
      refine ⟨count, ⟨?_, ?_, hcount.count_le, hcount.opens⟩, htakes⟩
      · rw [attempt_apply, hcount.run]
      · rw [attempt_apply, hcount.run']

theorem IsLocal.once {rule : Rule (Option Query)} (h : rule.IsLocal ifFound) :
    (Rule.once rule).IsLocal ifFound := by
  intro cursor other value after hstops hrun
  have honce : Rule.once rule cursor = Rule.attempt rule cursor := by
    apply once_of_forgetful hstops.plain
    intro found middle hfirst
    obtain ⟨count, hcount, -⟩ := h cursor other found middle hstops hfirst
    rw [hcount.after_eq hfirst]
    exact congrArg Cursor.keepsOutcomes hstops.plain.symm
  rw [honce] at hrun
  obtain ⟨count, hcount, htakes⟩ := h.attempt cursor other value after hstops hrun
  refine ⟨count, hcount.of_eq honce ?_, htakes⟩
  -- The other run is known only because the first one gave something.
  cases hfirst : rule cursor with
  | error failure middle =>
    rw [attempt_apply, hfirst] at hrun
    cases hrun
  | ok found middle =>
    obtain ⟨taken, htaken, -⟩ := h cursor other found middle hstops hfirst
    apply once_of_forgetful hstops.plain'
    intro found' middle' hother
    rw [htaken.run'] at hother
    cases hother
    exact congrArg Cursor.keepsOutcomes hstops.plain'.symm

theorem IsLocal.descend {takes : α → Prop} {rule : Rule α} (h : rule.IsLocal takes) :
    (Rule.descend rule).IsLocal takes := by
  intro cursor other value after hstops hrun
  by_cases hdepth : Cursor.maxDepth ≤ cursor.depth
  · rw [Rule.descend, if_pos hdepth] at hrun
    cases hrun
  · have hdepth' : ¬Cursor.maxDepth ≤ other.depth := hstops.depth_eq ▸ hdepth
    cases hfirst : rule { cursor with depth := cursor.depth + 1 } with
    | error failure middle =>
      rw [Rule.descend, if_neg hdepth, hfirst] at hrun
      cases hrun
    | ok found middle =>
      rw [Rule.descend, if_neg hdepth, hfirst] at hrun
      cases hrun
      obtain ⟨count, hcount, htakes⟩ := h _ _ _ middle hstops.deeper hfirst
      refine ⟨count, ⟨?_, ?_, hcount.count_le, hcount.opens⟩, htakes⟩
      · rw [Rule.descend, if_neg hdepth, hcount.run]
        rfl
      · rw [Rule.descend, if_neg hdepth', hcount.run']
        rfl

/-- A rule that takes a token whenever it finds something, as long as nothing is kept. -/
def Progresses (rule : Rule (Option α)) : Prop :=
  ∀ cursor value after, cursor.forgetful = cursor → rule cursor = .ok (some value) after →
    after.forgetful = after ∧ after.remaining < cursor.remaining

/-- More steps than there are tokens left change nothing. -/
theorem Progresses.repeatUpTo_eq_of_le {rule : Rule (Option α)} (h : rule.Progresses) {steps more : Nat}
    {cursor : Cursor} (hplain : cursor.forgetful = cursor) (hsteps : cursor.remaining < steps)
    (hle : steps ≤ more) : repeatUpTo more rule cursor = repeatUpTo steps rule cursor := by
  induction steps generalizing more cursor with
  | zero => exact absurd hsteps (Nat.not_lt_zero _)
  | succ steps ih =>
    obtain ⟨more, rfl⟩ := Nat.exists_eq_add_of_le' (Nat.le_trans (Nat.le_add_left 1 steps) hle)
    rw [repeatUpTo, repeatUpTo, bind_apply, bind_apply]
    cases hfirst : rule cursor with
    | error failure after => rfl
    | ok found after =>
      cases found with
      | none => rfl
      | some value =>
        obtain ⟨hafter, hless⟩ := h cursor value after hplain hfirst
        have hrest := ih hafter (by omega) (Nat.le_of_succ_le_succ hle)
        simp only [bind_apply, hrest]

theorem IsLocal.progresses {rule : Rule (Option α)} (h : rule.IsLocal ifFound) : rule.Progresses := by
  intro cursor value after hplain hrun
  have hstops := Cursor.StopsWithin.refl hplain
  obtain ⟨count, hcount, htakes⟩ := h cursor cursor (some value) after hstops hrun
  obtain rfl := hcount.after_eq hrun
  have hle := hcount.count_le
  have hpos := htakes rfl
  refine ⟨(hstops.advance hle).plain, ?_⟩
  rw [Cursor.remaining_advance]
  omega

theorem IsLocal.repeatUpTo {rule : Rule (Option α)} (h : rule.IsLocal ifFound) (steps : Nat) :
    (Rule.repeatUpTo steps rule).IsLocal never := by
  induction steps with
  | zero => exact isLocal_pure id
  | succ steps ih =>
    refine h.bind (fun found => (?_ : IsLocal never _)) fun _ _ hgoal => hgoal.elim
    cases found with
    | none => exact isLocal_pure id
    | some value =>
      exact ih.bind (fun _ => (isLocal_pure id : IsLocal never _)) fun _ _ hgoal => hgoal.elim

theorem IsLocal.many {rule : Rule (Option α)} (h : rule.IsLocal ifFound) :
    (Rule.many rule).IsLocal never := by
  intro cursor other values after hstops hrun
  have hsteps := h.progresses.repeatUpTo_eq_of_le hstops.plain (Nat.lt_succ_self _)
    (Nat.succ_le_succ hstops.remaining_le)
  have hmore : Rule.repeatUpTo (other.remaining + 1) rule cursor = .ok values after := hsteps.trans hrun
  obtain ⟨count, hcount, -⟩ := h.repeatUpTo _ cursor other values after hstops hmore
  exact ⟨count, ⟨hsteps.symm.trans hcount.run, hcount.run', hcount.count_le, hcount.opens⟩, False.elim⟩

theorem IsLocal.steps {takes : α → Prop} {rule : Nat → Rule α} (h : ∀ count, (rule count).IsLocal takes)
    (hsteps : ∀ count more, count ≤ more → (rule (count + 1)).LeadsTo (rule (more + 1))) :
    IsLocal takes fun cursor => rule (cursor.remaining + 1) cursor := by
  intro cursor other value after hstops hrun
  obtain ⟨count, hcount, htakes⟩ := h _ cursor other value after hstops hrun
  have hother := hsteps _ _ hstops.remaining_le other value _ hcount.run'
  exact ⟨count, ⟨hcount.run, hother, hcount.count_le, hcount.opens⟩, htakes⟩

end Local

theorem isClosed_isLocal : IsClosed fun takes rule => rule.IsLocal takes where
  weaken h hgoal cursor other value after hstops hrun := by
    obtain ⟨count, hcount, htakes⟩ := h cursor other value after hstops hrun
    exact ⟨count, hcount, fun hvalue => htakes (hgoal value hvalue)⟩
  pure := isLocal_pure
  bind := .bind
  expected _ _ _ _ _ _ hrun := by cases hrun
  tooDeep _ _ _ _ _ hrun := by cases hrun
  ask _ hwithin := .ask hwithin
  take? _ := isLocal_take?
  takeAll? _ := isLocal_takeAll?
  takeIf := isLocal_takeIf
  takeJoined? := isLocal_takeJoined?
  slash := isLocal_slash
  ahead _ := isLocal_ahead
  attempt := .attempt
  descend := .descend
  once := .once
  many := .many
  steps := .steps

end Rule

end SqlLayout
