import SqlLayout.Proofs.Reading.Spells

/-!
# Reading to the End of an Expression

An expression ends where nothing comes that could be attached to it. Which tokens these are depends on
the level on which it is read. A rule that attaches one piece after another to what it read first stops
right there.
-/

namespace SqlLayout

namespace Cursor

/-- What can be attached to an expression, and the level of what comes of it. -/
def attachments : List (String × Nat) :=
  [("OR", 1), ("AND", 2), ("=", 4), ("!=", 4), ("<>", 4), ("<=", 4), (">=", 4), ("<", 4), (">", 4),
   ("IS", 4), ("NOT", 4), ("LIKE", 4), ("IN", 4), ("BETWEEN", 4), ("|", 5), ("^", 6), ("&", 7),
   ("<<", 8), ("+", 9), ("-", 9), ("*", 10), ("/", 10), ("||", 10), ("[", 12), (".", 12), ("(", 12),
   ("OVER", 12)]

/-- Nothing at the cursor goes on with an expression of a level. A shift to the right is two tokens, and
a string goes on with the name of a typed literal. -/
structure Ends (cursor : Cursor) (level : Nat) : Prop where
  sees : ∀ piece ∈ attachments, level ≤ piece.2 → cursor.sees piece.1 = false
  joined : level ≤ 8 → cursor.seesJoined [">", ">"] = false
  kind? : cursor.kind? 0 ≠ some .string

variable {cursor : Cursor} {level : Nat}

theorem Ends.mono (h : cursor.Ends level) {higher : Nat} (hle : level ≤ higher) : cursor.Ends higher where
  sees := fun piece hmem hpiece => h.sees piece hmem (hle.trans hpiece)
  joined := fun hhigher => h.joined (hle.trans hhigher)
  kind? := h.kind?

theorem kind?_of_sees {pattern : String} (h : cursor.sees pattern = true) :
    cursor.kind? 0 ≠ some .string := by
  obtain ⟨kind, hkind, hword⟩ := kind?_of_seesAt h
  rw [hkind]
  rintro ⟨⟩
  exact absurd hword (by decide)

theorem seesJoined_of_not (h : cursor.sees ">" = false) : cursor.seesJoined [">", ">"] = false := by
  rw [seesJoined, seesAll_eq_false h, Bool.false_and]

/-- A token that goes on with no expression of a level ends it. -/
theorem ends_of_sees {pattern : String} (h : cursor.sees pattern = true)
    (hpattern : ∀ piece ∈ attachments, level ≤ piece.2 → excludes pattern piece.1 = true)
    (hjoined : level ≤ 8 → cursor.seesJoined [">", ">"] = false) : cursor.Ends level where
  sees := fun piece hmem hpiece => sees_eq_false h (hpattern piece hmem hpiece)
  joined := hjoined
  kind? := kind?_of_sees h

theorem ends_of_token? (h : cursor.token? 0 = none) (level : Nat) : cursor.Ends level := by
  have hsees (pattern : String) : cursor.sees pattern = false := by
    rw [sees, seesAt, h]
  refine ⟨fun piece _ _ => hsees piece.1, fun _ => seesJoined_of_not (hsees ">"), ?_⟩
  rw [Cursor.kind?, h]
  simp

end Cursor

namespace Rule

variable {α β : Type} {rule : Rule (Option β)} {first : Rule (Option α)} {attach : α → β → α}
  {cursor middle after : Cursor} {value : α}

/-- One run after the other gives a piece, and takes something for it. -/
inductive Gathers (rule : Rule (Option β)) : Cursor → List β → Cursor → Prop
  | nil (cursor : Cursor) : Gathers rule cursor [] cursor
  | cons {cursor middle after : Cursor} {piece : β} {pieces : List β}
    (hrun : rule cursor = .ok (some piece) middle) (hless : middle.remaining < cursor.remaining)
    (h : Gathers rule middle pieces after) : Gathers rule cursor (piece :: pieces) after

theorem Gathers.concat {pieces : List β} {piece : β} (h : rule.Gathers cursor pieces middle)
    (hrun : rule middle = .ok (some piece) after) (hless : after.remaining < middle.remaining) :
    rule.Gathers cursor (pieces ++ [piece]) after := by
  induction h with
  | nil => exact .cons hrun hless (.nil after)
  | cons hfirst hfirstLess h ih => exact .cons hfirst hfirstLess (ih hrun hless)

/-- The pieces are all there are if the rule then declines. -/
theorem Gathers.many {pieces : List β} (h : rule.Gathers cursor pieces after)
    (hend : rule.Declines after) : Rule.many rule cursor = .ok pieces after := by
  have hrepeat (steps : Nat) (hsteps : cursor.remaining < steps) :
      repeatUpTo steps rule cursor = .ok pieces after := by
    induction h generalizing steps with
    | nil => exact hend.repeatUpTo steps
    | cons hrun hless h ih =>
      obtain ⟨steps, rfl⟩ := Nat.exists_eq_add_one_of_ne_zero (Nat.ne_of_gt (Nat.zero_lt_of_lt hsteps))
      unfold repeatUpTo
      rw [bind_of_ok hrun]
      exact bind_of_ok (ih hend steps (by omega))
  exact hrepeat _ (Nat.lt_succ_self _)

/-- What was read first and the pieces after it make up a value. -/
def Grows (first : Rule (Option α)) (rule : Rule (Option β)) (attach : α → β → α) (cursor : Cursor)
    (value : α) (after : Cursor) : Prop :=
  ∃ start middle pieces, first cursor = .ok (some start) middle ∧ rule.Gathers middle pieces after ∧
    pieces.foldl attach start = value

theorem Grows.start (h : first cursor = .ok (some value) after) :
    Grows first rule attach cursor value after :=
  ⟨value, after, [], h, .nil after, rfl⟩

theorem Grows.more {piece : β} (h : Grows first rule attach cursor value middle)
    (hrun : rule middle = .ok (some piece) after) (hless : after.remaining < middle.remaining) :
    Grows first rule attach cursor (attach value piece) after := by
  obtain ⟨start, earlier, pieces, hstart, hpieces, rfl⟩ := h
  exact ⟨start, earlier, pieces ++ [piece], hstart, hpieces.concat hrun hless, List.foldl_concat ..⟩

theorem Grows.stop (h : Grows first rule attach cursor value after) (hend : rule.Declines after) :
    ∃ start middle pieces, first cursor = .ok (some start) middle ∧
      many rule middle = .ok pieces after ∧ pieces.foldl attach start = value := by
  obtain ⟨start, middle, pieces, hstart, hpieces, hvalue⟩ := h
  exact ⟨start, middle, pieces, hstart, hpieces.many hend, hvalue⟩

theorem require_of_ok {rule : Rule (Option α)} (h : rule cursor = .ok (some value) after)
    (what : String) : Rule.require what rule cursor = .ok value after := by
  unfold Rule.require
  rw [bind_of_ok h]
  rfl

theorem attempt_of_ok {rule : Rule (Option α)} (h : rule cursor = .ok (some value) after) :
    Rule.attempt rule cursor = .ok (some value) after := by
  rw [attempt_apply, h]

theorem firstOf_of_ok {rule : Rule (Option α)} {rules : List (Rule (Option α))}
    (h : rule cursor = .ok (some value) after) :
    Rule.firstOf (rule :: rules) cursor = .ok (some value) after := by
  unfold Rule.firstOf
  rw [bind_of_ok (attempt_of_ok h)]
  rfl

theorem descend_of_ok {rule : Rule α} {value : α} (hdepth : cursor.depth < Cursor.maxDepth)
    (h : rule { cursor with depth := cursor.depth + 1 } =
      .ok value { after with depth := after.depth + 1 }) :
    Rule.descend rule cursor = .ok value after := by
  unfold Rule.descend
  rw [if_neg (Nat.not_le_of_lt hdepth), h]
  rfl

section Lists

variable {item : Rule α} {spelling : α → Spelling} {ends : Cursor → Prop} {levels : Nat}

/-- Wherever a value is spelled and the text after it ends it, the rule reads the value. -/
def ReadsAt (rule : Rule α) (levels : Nat) (spelling : Spelling) (ends : Cursor → Prop) (value : α) : Prop :=
  ∀ cursor after : Cursor, cursor.IsReady levels → cursor.Spells spelling after → ends after →
    rule cursor = .ok value after

theorem commas_cons_cons (spelling next : Spelling) (spellings : List Spelling) :
    Spelling.commas (spelling :: next :: spellings) =
      spelling ++ ([Atom.comma, .gap] ++ Spelling.commas (next :: spellings)) := by
  simp [Spelling.commas]

theorem commas_cons (spelling : Spelling) (spellings : List Spelling) :
    ∃ rest, Spelling.commas (spelling :: spellings) = spelling ++ rest := by
  cases spellings with
  | nil => exact ⟨[], by simp [Spelling.commas]⟩
  | cons next spellings => exact ⟨_, commas_cons_cons spelling next spellings⟩

/-- An item after a comma. -/
def nextItem? (item : Rule α) : Rule (Option α) := do
  if ← skip "," then return some (← item) else return none

/-- Items with commas between them are read one after the other. -/
theorem gathers_items {first : α} {rest : List α}
    (hitems : ∀ value ∈ first :: rest, item.ReadsAt levels (spelling value) ends value)
    (hcomma : ∀ cursor : Cursor, cursor.sees "," = true → ends cursor) (hready : cursor.IsReady levels)
    (hspells : cursor.Spells (Spelling.commas ((first :: rest).map spelling)) after) (hends : ends after) :
    ∃ middle, item cursor = .ok first middle ∧ middle.remaining ≤ cursor.remaining ∧
      (nextItem? item).Gathers middle rest after := by
  induction rest generalizing first cursor with
  | nil =>
    have hfirst : cursor.Spells (spelling first) after := by
      simpa [Spelling.commas] using hspells
    exact ⟨after, hitems first List.mem_cons_self cursor after hready hfirst hends, hfirst.remaining_le,
      .nil after⟩
  | cons next rest ih =>
    rw [List.map_cons, List.map_cons, commas_cons_cons] at hspells
    obtain ⟨middle, hfirst, hnext, hrest⟩ := Cursor.spells_append.mp hspells
    have hsees : middle.sees "," = true := by
      rw [hnext.sees]
      decide
    obtain ⟨last, hitem, hle, hgathers⟩ :=
      ih (fun value hmem => hitems value (List.mem_cons_of_mem first hmem))
        ((hready.later hfirst).advance 1) hrest
    have hpiece : nextItem? item middle = .ok (some next) last := by
      refine (bind_of_ok (skip_of_sees hsees)).trans ?_
      exact (bind_of_ok hitem).trans rfl
    have hfirstRun := hitems first List.mem_cons_self cursor middle hready hfirst (hcomma middle hsees)
    exact ⟨middle, hfirstRun, hfirst.remaining_le,
      .cons hpiece (Nat.lt_of_le_of_lt hle hnext.remaining_lt) hgathers⟩

theorem commaSeparated_of_spells {first : α} {rest : List α}
    (hitems : ∀ value ∈ first :: rest, item.ReadsAt levels (spelling value) ends value)
    (hcomma : ∀ cursor : Cursor, cursor.sees "," = true → ends cursor) (hready : cursor.IsReady levels)
    (hspells : cursor.Spells (Spelling.commas ((first :: rest).map spelling)) after) (hends : ends after)
    (hlast : after.sees "," = false) :
    commaSeparated item cursor = .ok (first :: rest) after := by
  obtain ⟨middle, hfirst, -, hgathers⟩ := gathers_items hitems hcomma hready hspells hends
  have hdeclines : (nextItem? item).Declines after := bind_of_ok (skip_of_not hlast)
  unfold commaSeparated
  rw [bind_of_ok hfirst]
  exact (bind_of_ok (hgathers.many hdeclines)).trans rfl

end Lists

end Rule

end SqlLayout
