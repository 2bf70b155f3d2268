import SqlLayout.Proofs.Cursor.Within

/-!
# Properties of All Rules

A property of rules that holds of the steps a grammar is made of, and is handed on by all ways to put rules
together, holds of the whole grammar. Such a property comes with the values before which a rule has to have
taken a token: a repetition ends because its rule takes something whenever it matches. The pieces that most
rules are put together from follow from the few that are asked for.
-/

namespace SqlLayout.Rule

/-- No value asks for a token. -/
def never {α : Type} (_ : α) : Prop :=
  False

/-- Every value asks for a token. -/
def always {α : Type} (_ : α) : Prop :=
  True

/-- A value that was found asks for a token. -/
def ifFound {α : Type} (value : Option α) : Prop :=
  value.isSome

/-- Takes the next token if its kind and text stand for a value. -/
def takeIf {α : Type} (value : Token.Kind × String → Option α) : Rule (Option α) := fun cursor =>
  match (cursor.look? 0).bind value with
  | some found => .ok (some found) (cursor.advance 1)
  | none => .ok none cursor

/-- Whatever one rule gives, the other one gives as well and goes on at the same place. -/
def LeadsTo {α : Type} (rule other : Rule α) : Prop :=
  ∀ cursor value after, rule cursor = .ok value after → other cursor = .ok value after

namespace LeadsTo

variable {α β : Type}

theorem refl (rule : Rule α) : rule.LeadsTo rule :=
  fun _ _ _ h => h

theorem bind {rule other : Rule α} {next next' : α → Rule β} (h : rule.LeadsTo other)
    (hnext : ∀ value, (next value).LeadsTo (next' value)) : (rule >>= next).LeadsTo (other >>= next') := by
  intro cursor last final hrun
  rw [bind_apply] at hrun
  cases hfirst : rule cursor with
  | error failure after =>
    rw [hfirst] at hrun
    cases hrun
  | ok value after =>
    rw [hfirst] at hrun
    rw [bind_of_ok (h cursor value after hfirst)]
    exact hnext value after last final hrun

theorem ite {condition : Prop} [Decidable condition] {rule rule' other other' : Rule α}
    (h : rule.LeadsTo other) (h' : rule'.LeadsTo other') :
    (if condition then rule else rule').LeadsTo (if condition then other else other') := by
  split
  · exact h
  · exact h'

theorem attempt {rule other : Rule (Option α)} (h : rule.LeadsTo other) :
    (Rule.attempt rule).LeadsTo (Rule.attempt other) :=
  bind (refl _) fun _ => bind h fun _ => refl _

theorem firstOf {rules others : List (Rule (Option α))} (h : List.Forall₂ LeadsTo rules others) :
    (Rule.firstOf rules).LeadsTo (Rule.firstOf others) := by
  induction h with
  | nil => exact refl _
  | cons h _ ih =>
    apply bind h.attempt
    rintro (_ | value)
    · exact ih
    · exact refl _

end LeadsTo

/-- The property holds of the steps of a grammar and of all rules put together from rules it holds of. -/
structure IsClosed (P : ∀ {α : Type}, (α → Prop) → Rule α → Prop) : Prop where
  weaken {α : Type} {takes goal : α → Prop} {rule : Rule α} (h : P takes rule)
    (hgoal : ∀ value, goal value → takes value) : P goal rule
  pure {α : Type} {takes : α → Prop} {value : α} (h : ¬takes value) : P takes (Pure.pure value : Rule α)
  bind {α β : Type} {takes : α → Prop} {takes' : α → β → Prop} {goal : β → Prop} {rule : Rule α}
    {next : α → Rule β} (h : P takes rule) (hnext : ∀ value, P (takes' value) (next value))
    (hgoal : ∀ value last, goal last → takes value ∨ takes' value last) : P goal (rule >>= next)
  expected {α : Type} (what : String) : P always (Rule.expected what : Rule α)
  tooDeep {α : Type} : P always (Rule.tooDeep : Rule α)
  ask {α : Type} {question : Cursor → α} (hlook : Cursor.IsLook question)
    (hwithin : Cursor.IsWithin question) : P never (Rule.ask question)
  take? (pattern : String) (h : pattern ∉ Cursor.breaks) : P ifFound (Rule.take? pattern)
  takeAll? (patterns : List String) (h : ∀ pattern ∈ patterns, pattern ∉ Cursor.breaks) :
    P ifFound (Rule.takeAll? patterns)
  takeIf {α : Type} {value : Token.Kind × String → Option α}
    (h : ∀ kind text, kind.isSymbol = true → value (kind, text) = none) : P ifFound (Rule.takeIf value)
  takeJoined? : P ifFound (Rule.takeJoined? [">", ">"])
  /-- A slash and then a rule that cannot start with a star. -/
  slash {α : Type} {goal : α → Prop} {yes no : Rule α} (hyes : P never yes)
    (hno : P goal no)
    (hstar : ∀ cursor, cursor.sees "*" = true → ∀ value after, yes cursor ≠ .ok value after) :
    P goal (Rule.skip "/" >>= fun isThere => if isThere = true then yes else no)
  /-- One token more is looked at; where there is none, only the rule for the other case could match. -/
  ahead {α : Type} {yes no : Rule α} (pattern : String) (h : pattern ∉ Cursor.breaks)
    (hyes : P always yes) (hno : P always no) :
    P always (Rule.ask (·.seesAt 1 pattern) >>= fun isAhead => if isAhead = true then yes else no)
  attempt {α : Type} {rule : Rule (Option α)} (h : P ifFound rule) : P ifFound (Rule.attempt rule)
  descend {α : Type} {takes : α → Prop} {rule : Rule α} (h : P takes rule) : P takes (Rule.descend rule)
  once {rule : Rule (Option Query)} (h : P ifFound rule) : P ifFound (Rule.once rule)
  many {α : Type} {rule : Rule (Option α)} (h : P ifFound rule) : P never (Rule.many rule)
  /-- As many steps as there are tokens, if more of them lead to the same. -/
  steps {α : Type} {takes : α → Prop} {rule : Nat → Rule α} (h : ∀ count, P takes (rule count))
    (hsteps : ∀ count more, count ≤ more → (rule (count + 1)).LeadsTo (rule (more + 1))) :
    P takes fun cursor => rule (cursor.remaining + 1) cursor

namespace IsClosed

variable {P : ∀ {α : Type}, (α → Prop) → Rule α → Prop} (hP : IsClosed P) {α β : Type}

include hP

section Sequences

variable {takes : α → Prop} {goal : β → Prop} {rule : Rule α} {next : α → Rule β}

theorem any (h : P takes rule) : P never rule :=
  hP.weaken h fun _ hvalue => hvalue.elim

theorem give (value : α) : P never (Pure.pure value : Rule α) :=
  hP.pure id

theorem nothing : P ifFound (Pure.pure none : Rule (Option α)) :=
  hP.pure (by simp [ifFound])

theorem fail (what : String) : P takes (Rule.expected what : Rule α) :=
  hP.weaken (hP.expected what) fun _ _ => trivial

/-- Two rules of which nothing more is asked. -/
theorem both (h : P takes rule) (hnext : ∀ value, P never (next value)) : P never (rule >>= next) :=
  hP.bind h hnext fun _ _ hgoal => hgoal.elim

/-- The first rule takes a token, so no other one has to. -/
theorem first (h : P always rule) (hnext : ∀ value, P never (next value)) : P goal (rule >>= next) :=
  hP.bind h hnext fun _ _ _ => .inl trivial

/-- The last rule takes what is asked for. -/
theorem last (h : P takes rule) (hnext : ∀ value, P goal (next value)) : P goal (rule >>= next) :=
  hP.bind h hnext fun _ _ hgoal => .inr hgoal

/-- A rule that may find something, and what comes after it in both cases. -/
theorem found {rule : Rule (Option α)} {next : Option α → Rule β} (h : P ifFound rule)
    (hsome : ∀ value, P never (next (some value))) (hnone : P goal (next none)) :
    P goal (rule >>= next) := by
  have hnext (value : Option α) : P (if value.isSome then never else goal) (next value) := by
    cases value with
    | none => exact hnone
    | some value => exact hsome value
  apply hP.bind h hnext
  rintro (_ | value) last hgoal
  · exact .inr hgoal
  · exact .inl rfl

theorem map (h : P takes rule) (change : α → β) (hgoal : ∀ value, goal (change value) → takes value) :
    P goal (change <$> rule) := by
  rw [map_eq_bind]
  have hnext (value : α) : P (· ≠ change value) (Pure.pure (change value) : Rule β) :=
    hP.pure fun hne => hne rfl
  apply hP.bind h hnext
  intro value last hlast
  by_cases heq : last = change value
  · exact .inl (hgoal value (heq ▸ hlast))
  · exact .inr heq

theorem change (h : P takes rule) (change : α → β) : P never (change <$> rule) :=
  hP.map h change fun _ hgoal => hgoal.elim

theorem mapFound {rule : Rule (Option α)} (h : P ifFound rule) (change : α → β) :
    P ifFound (Option.map change <$> rule) :=
  hP.map h _ fun value hvalue => by cases value <;> simp_all [ifFound]

theorem discard (h : P always rule) : P always (Functor.discard rule) := by
  rw [discard_eq_bind]
  exact hP.first h fun _ => hP.give ()

omit hP in
theorem ite (_ : IsClosed P) {condition : Prop} [Decidable condition] {other : Rule α} (h : P takes rule)
    (hother : P takes other) : P takes (if condition then rule else other) := by
  split
  · exact h
  · exact hother

end Sequences

section Choices

variable {rule : Rule (Option α)}

theorem require (h : P ifFound rule) (what : String) : P always (Rule.require what rule) :=
  hP.found h (fun value => hP.give value) (hP.expected what)

theorem firstOf {rules : List (Rule (Option α))} (h : ∀ rule ∈ rules, P ifFound rule) :
    P ifFound (Rule.firstOf rules) := by
  induction rules with
  | nil => exact hP.nothing
  | cons rule rules ih =>
    have hrest := ih fun other hother => h other (List.mem_cons_of_mem rule hother)
    exact hP.found (hP.attempt (h rule List.mem_cons_self)) (fun value => hP.give (some value)) hrest

end Choices

section Taking

variable {goal : α → Prop} {yes no next : Rule α}

theorem sees (pattern : String) (h : pattern ∉ Cursor.breaks) : P never (Rule.sees pattern) :=
  hP.ask (Cursor.isLook_sees pattern) (Cursor.isWithin_sees (Cursor.ne_of_not_mem_breaks h).1)

/-- Asks something of the next token and, if that is so, something of the one after it. -/
theorem asks {question : Cursor → Bool} (first next : Option (Token.Kind × String) → Bool)
    (hedges : first none = false ∧ first (some Cursor.semicolon) = false ∧
      next (some Cursor.semicolon) = next none)
    (h : ∀ cursor, question cursor = (first (cursor.look? 0) && next (cursor.look? 1))) :
    P never (Rule.ask question) := by
  apply hP.ask (Cursor.isLook_of_looks (fun look after => first look && next after) h)
  apply Cursor.isWithin_of_looks (fun look after => first look && next after) h
  · intro after
    rw [hedges.1, hedges.2.1, Bool.false_and, Bool.false_and]
  · intro look
    rw [hedges.2.2]

theorem isThere (pattern : String) (h : pattern ∉ Cursor.breaks) :
    P (· = true) (Rule.skip pattern) :=
  hP.map (hP.take? pattern h) _ fun _ hvalue => hvalue

theorem areThere (patterns : List String) (h : ∀ pattern ∈ patterns, pattern ∉ Cursor.breaks) :
    P (· = true) (Rule.skipAll patterns) :=
  hP.map (hP.takeAll? patterns h) _ fun _ hvalue => hvalue

/-- What comes after a token that was taken, and what else there is to do. -/
theorem afterTaking {rule : Rule Bool} (h : P (· = true) rule) (hyes : P never yes) (hno : P goal no) :
    P goal (rule >>= fun isThere => if isThere = true then yes else no) := by
  have hnext (isThere : Bool) :
      P (if isThere = true then never else goal) (if isThere = true then yes else no) := by
    cases isThere with
    | false => exact hno
    | true => exact hyes
  apply hP.bind h hnext
  rintro (_ | _) last hgoal
  · exact .inr hgoal
  · exact .inl rfl

theorem skip (pattern : String) (h : pattern ∉ Cursor.breaks) (hyes : P never yes) (hno : P goal no) :
    P goal (Rule.skip pattern >>= fun isThere => if isThere = true then yes else no) :=
  hP.afterTaking (hP.isThere pattern h) hyes hno

theorem skipAll (patterns : List String) (h : ∀ pattern ∈ patterns, pattern ∉ Cursor.breaks)
    (hyes : P never yes) (hno : P goal no) :
    P goal (Rule.skipAll patterns >>= fun areThere => if areThere = true then yes else no) :=
  hP.afterTaking (hP.areThere patterns h) hyes hno

/-- A word that decides a value, or else what comes after it. -/
theorem word (pattern : String) (h : pattern ∉ Cursor.breaks) (value : α) (hno : P goal no) :
    P goal (do if ← Rule.skip pattern then return value else no) :=
  hP.skip pattern h (hP.give value) hno

theorem expect (pattern : String) (h : pattern ∉ Cursor.breaks) (hnext : P never next) :
    P goal (Functor.discard (Rule.expect pattern) >>= fun _ => next) := by
  have htake : P always (Rule.expect pattern) :=
    hP.found (hP.take? pattern h) (fun text => hP.give text) (hP.expected _)
  exact hP.first (hP.discard htake) fun _ => hnext

end Taking

section Lists

variable {item : Rule α}

theorem commaSeparated (h : P always item) : P always (Rule.commaSeparated item) := by
  have hfurther : P ifFound (do if ← Rule.skip "," then return some (← item) else return none) :=
    hP.skip "," (by decide) (hP.both h fun value => hP.give (some value)) hP.nothing
  exact hP.first h fun _ => hP.both (hP.many hfurther) fun rest => hP.give _

theorem parenthesized (h : P always item) : P always (Rule.parenthesized item) := by
  apply hP.expect "(" (by decide)
  apply hP.skip ")" (by decide) (hP.give [])
  exact hP.first (hP.commaSeparated h) fun items => hP.expect ")" (by decide) (hP.give items)

end Lists

end IsClosed

end SqlLayout.Rule
