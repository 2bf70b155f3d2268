import SqlLayout.Proofs.Sound.Type
import SqlLayout.Proofs.Syntax.Nesting

/-!
# Types and Clauses Stay within the Levels Left

A rule for a number of levels gives trees that nest no deeper than that. The rules that may be nested
read one level deeper, so what they read adds one to what is around it.
-/

namespace SqlLayout

open Rule

section Lists

variable {weights : Weights} {levels : Nat}

theorem exprsNesting_le {items : List Expr}
    (h : ∀ item ∈ items, item.whole weights (item.nesting weights) ≤ levels) :
    exprsNesting weights items ≤ levels := by
  induction items with
  | nil => exact Nat.zero_le levels
  | cons item items ih =>
    rw [List.forall_mem_cons] at h
    exact Nat.max_le.mpr ⟨h.1, ih h.2⟩

theorem sortKeysNesting_le {keys : List SortKey}
    (h : ∀ key ∈ keys, key.expr.whole weights (key.expr.nesting weights) ≤ levels) :
    sortKeysNesting weights keys ≤ levels := by
  induction keys with
  | nil => exact Nat.zero_le levels
  | cons key keys ih =>
    rw [List.forall_mem_cons] at h
    obtain ⟨expr, direction, nulls⟩ := key
    exact Nat.max_le.mpr ⟨h.1, ih h.2⟩

theorem structItemsNesting_le {items : List StructItem}
    (h : ∀ item ∈ items, item.expr.whole weights (item.expr.nesting weights) ≤ levels) :
    structItemsNesting weights items ≤ levels := by
  induction items with
  | nil => exact Nat.zero_le levels
  | cons item items ih =>
    rw [List.forall_mem_cons] at h
    obtain ⟨expr, aliasName⟩ := item
    exact Nat.max_le.mpr ⟨h.1, ih h.2⟩

theorem branchesNesting_le {branches : List Branch}
    (h : ∀ branch ∈ branches, branch.condition.whole weights (branch.condition.nesting weights) ≤ levels ∧
      branch.result.whole weights (branch.result.nesting weights) ≤ levels) :
    branchesNesting weights branches ≤ levels := by
  induction branches with
  | nil => exact Nat.zero_le levels
  | cons branch branches ih =>
    rw [List.forall_mem_cons] at h
    obtain ⟨condition, result⟩ := branch
    exact Nat.max_le.mpr ⟨h.1.1, Nat.max_le.mpr ⟨h.1.2, ih h.2⟩⟩

theorem commonTablesNesting_le {tables : List CommonTable}
    (h : ∀ table ∈ tables, table.query.nesting weights + 1 ≤ levels) :
    commonTablesNesting weights tables ≤ levels := by
  induction tables with
  | nil => exact Nat.zero_le levels
  | cons table tables ih =>
    rw [List.forall_mem_cons] at h
    obtain ⟨name, query⟩ := table
    exact Nat.max_le.mpr ⟨h.1, ih h.2⟩

theorem replacementsNesting_le {items : List Replacement}
    (h : ∀ item ∈ items, item.expr.whole weights (item.expr.nesting weights) ≤ levels) :
    replacementsNesting weights items ≤ levels := by
  induction items with
  | nil => exact Nat.zero_le levels
  | cons item items ih =>
    rw [List.forall_mem_cons] at h
    obtain ⟨expr, aliasName⟩ := item
    exact Nat.max_le.mpr ⟨h.1, ih h.2⟩

/-- How deep one select item nests. -/
def SelectItem.nesting (weights : Weights) : SelectItem → Nat
  | .wildcard _ _ replace => replacementsNesting weights replace
  | .expr item _ => item.whole weights (item.nesting weights)

theorem selectItemsNesting_le {items : List SelectItem}
    (h : ∀ item ∈ items, item.nesting weights ≤ levels) :
    selectItemsNesting weights items ≤ levels := by
  induction items with
  | nil => exact Nat.zero_le levels
  | cons item items ih =>
    rw [List.forall_mem_cons] at h
    cases item <;> exact Nat.max_le.mpr ⟨h.1, ih h.2⟩

theorem fieldsNesting_le {fields : List Field} (h : ∀ field ∈ fields, field.type.nesting ≤ levels) :
    fieldsNesting fields ≤ levels := by
  induction fields with
  | nil => exact Nat.zero_le levels
  | cons field fields ih =>
    rw [List.forall_mem_cons] at h
    obtain ⟨name, type⟩ := field
    exact Nat.max_le.mpr ⟨h.1, ih h.2⟩

theorem foldr_max_le {α : Type} {size : α → Nat} {items : List α}
    (h : ∀ item ∈ items, size item ≤ levels) :
    items.foldr (fun item deepest => max (size item) deepest) 0 ≤ levels := by
  induction items with
  | nil => exact Nat.zero_le levels
  | cons item items ih =>
    rw [List.forall_mem_cons] at h
    exact Nat.max_le.mpr ⟨h.1, ih h.2⟩

end Lists

/-- A rule gives nothing that nests deeper than some levels. -/
abbrev Rule.StaysWithin (rule : Rule (Option Expr)) (levels : Nat) : Prop :=
  rule.Gives fun value => ∀ expr ∈ value, expr.nesting {} ≤ levels

namespace Grammar

section Types

variable {levels : Nat} {element : Rule SqlType} {fields : Rule (List Field)}
  {type? : Rule (Option SqlType)}

theorem gives_nesting_typeWith? (helement : element.Gives fun type => type.nesting + 1 ≤ levels)
    (hfields : fields.Gives fun found => fieldsNesting found + 1 ≤ levels) :
    (typeWith? element fields).Gives fun value => ∀ type ∈ value, type.nesting ≤ levels := by
  apply (isQuiet_skipAll _).gives_bind
  intro _
  apply Gives.ite
  · intro _
    apply Gives.pure
    rintro _ ⟨⟩
    exact Nat.zero_le levels
  intro _
  apply (isQuiet_skipAll _).gives_bind
  intro _
  apply Gives.ite
  · intro _
    apply helement.bind
    intro type htype
    apply (isQuiet_expect ">").discard.gives_bind
    intro _
    apply Gives.pure
    rintro _ ⟨⟩
    exact htype
  intro _
  apply (isQuiet_skipAll _).gives_bind
  intro _
  apply Gives.ite
  · intro _
    apply Gives.pure
    rintro _ ⟨⟩
    exact Nat.zero_le levels
  intro _
  apply (isQuiet_skipAll _).gives_bind
  intro _
  apply Gives.ite
  · intro _
    apply hfields.bind
    intro found hfound
    apply Gives.pure
    rintro _ ⟨⟩
    show (if found.isEmpty then 0 else fieldsNesting found + 1) ≤ levels
    split
    · exact Nat.zero_le levels
    · exact hfound
  intro _
  apply (isQuiet_takeKind? _).gives_bind
  intro raw
  cases raw with
  | none => exact .pure (by simp)
  | some raw =>
    apply isQuiet_typeParams.gives_bind
    intro params
    apply Gives.pure
    rintro _ ⟨⟩
    exact Nat.zero_le levels

theorem gives_nesting_fieldsWith
    (h : type?.Gives fun value => ∀ type ∈ value, type.nesting ≤ levels) :
    (fieldsWith type?).Gives fun found => fieldsNesting found ≤ levels := by
  have hfield : (fieldWith type?).Gives fun field => field.type.nesting ≤ levels := by
    have hrest (name : Option Identifier) :
        Gives (do return { name, type := ← require "a type" type? : Field })
          fun field => field.type.nesting ≤ levels := by
      apply (h.require _).bind
      intro type htype
      exact .pure htype
    apply (isQuiet_ask fun _ => rfl).gives_bind
    intro isNamed
    apply Gives.ite
    · intro _
      exact isQuiet_segment?.gives_bind hrest
    · intro _
      exact hrest none
  apply (isQuiet_skip ">").gives_bind
  intro _
  apply Gives.ite
  · intro _
    exact .pure (Nat.zero_le levels)
  · intro _
    apply hfield.commaSeparated.bind
    intro found hfound
    apply (isQuiet_expect ">").discard.gives_bind
    intro _
    exact .pure (fieldsNesting_le hfound.2)

/-- By induction on the levels: inside a type there is one level less. -/
theorem gives_nesting_nested (levels : Nat) :
    (elementAt levels).Gives (fun type => type.nesting + 1 ≤ levels) ∧
      (nestedFieldsAt levels).Gives fun found => fieldsNesting found + 1 ≤ levels := by
  induction levels with
  | zero =>
    constructor
    · rw [elementAt]
      exact gives_tooDeep
    · rw [nestedFieldsAt]
      exact gives_tooDeep
  | succ levels ih =>
    have htype := gives_nesting_typeWith? ih.1 ih.2
    constructor
    · rw [elementAt]
      exact ((htype.require _).descend).mono fun _ hfound => Nat.succ_le_succ hfound
    · rw [nestedFieldsAt]
      exact (gives_nesting_fieldsWith htype).descend.mono fun _ hfound => Nat.succ_le_succ hfound

theorem gives_nesting_typeAt? (levels : Nat) :
    (typeAt? levels).Gives fun value => ∀ type ∈ value, type.nesting ≤ levels :=
  gives_nesting_typeWith? (gives_nesting_nested levels).1 (gives_nesting_nested levels).2

end Types

/-- The rules that may be nested with a number of levels left. -/
structure Nested.IsShallow (nested : Nested) (levels : Nat) : Prop where
  expr? : nested.expr?.Gives fun value => ∀ expr ∈ value, expr.whole {} (expr.nesting {}) ≤ levels
  notOperand : nested.notOperand.Gives fun expr => expr.nesting {} + 1 ≤ levels
  signOperand : nested.signOperand.Gives fun expr => expr.nesting {} + 1 ≤ levels
  query? : nested.query?.Gives fun value => ∀ query ∈ value, query.nesting {} + 1 ≤ levels
  type? : nested.type?.Gives fun value => ∀ type ∈ value, type.nesting ≤ levels
  fields : nested.fields.Gives fun found => fieldsNesting found ≤ levels

namespace Nested.IsShallow

variable {nested : Nested} {levels : Nat} (h : nested.IsShallow levels)

include h

section Clauses

theorem expr : nested.expr.Gives fun expr => expr.whole {} (expr.nesting {}) ≤ levels :=
  h.expr?.require _

theorem type : nested.type.Gives fun type => type.nesting ≤ levels :=
  h.type?.require _

theorem queryHere? :
    nested.queryHere?.Gives fun value => ∀ query ∈ value, query.nesting {} + 1 ≤ levels := by
  apply (isQuiet_ask fun _ => rfl).gives_bind
  intro _
  exact .ite (fun _ => h.query?) fun _ => .pure (by simp)

theorem query : nested.query.Gives fun query => query.nesting {} + 1 ≤ levels :=
  h.queryHere?.require _

theorem closedQuery : nested.closedQuery.Gives fun query => query.nesting {} + 1 ≤ levels := by
  apply h.query.bind
  intro query hquery
  apply (isQuiet_expect ")").discard.gives_bind
  intro _
  exact .pure hquery

theorem parenQuery? :
    nested.parenQuery?.Gives fun value => ∀ query ∈ value, query.nesting {} + 1 ≤ levels := by
  have henclosed : nested.enclosedQuery?.Gives fun value =>
      ∀ query ∈ value, query.nesting {} + 1 ≤ levels := by
    apply isQuiet_bump.discard.gives_bind
    intro _
    apply h.queryHere?.bind
    intro query hquery
    cases query with
    | none => exact .pure (by simp)
    | some query =>
      apply (isQuiet_skip ")").gives_bind
      intro isClosed
      cases isClosed with
      | false => exact .pure (by simp)
      | true => exact .pure hquery
  apply (isQuiet_sees "(").gives_bind
  intro _
  apply Gives.ite
  · intro _ cursor
    exact (henclosed.attempt cursor).once ((henclosed cursor).mono fun _ _ _ => trivial)
  · intro _
    exact .pure (by simp)

theorem closedExpr : nested.closedExpr.Gives fun expr => expr.whole {} (expr.nesting {}) ≤ levels := by
  apply h.expr.bind
  intro expr hexpr
  apply (isQuiet_expect ")").discard.gives_bind
  intro _
  exact .pure hexpr

theorem exprAfter? (keyword : String) :
    (nested.exprAfter? keyword).Gives fun value => exprNesting? {} value ≤ levels := by
  apply (isQuiet_skip keyword).gives_bind
  intro _
  apply Gives.ite
  · intro _
    apply h.expr.bind
    intro expr hexpr
    exact .pure hexpr
  · intro _
    exact .pure (Nat.zero_le levels)

theorem exprs : (commaSeparated nested.expr).Gives fun items => exprsNesting {} items ≤ levels :=
  h.expr.commaSeparated.mono fun _ hitems => exprsNesting_le hitems.2

theorem orderBy : nested.orderBy.Gives fun keys => sortKeysNesting {} keys ≤ levels := by
  have hkey : nested.sortKey?.Gives fun value =>
      ∀ key ∈ value, key.expr.whole {} (key.expr.nesting {}) ≤ levels := by
    apply h.expr?.bind
    intro expr hexpr
    cases expr with
    | none => exact .pure (by simp)
    | some expr =>
      apply isQuiet_direction?.gives_bind
      intro direction
      apply isQuiet_nullsOrder?.gives_bind
      intro nulls
      apply Gives.pure
      rintro _ ⟨⟩
      exact hexpr expr rfl
  apply (isQuiet_skip "ORDER").gives_bind
  intro _
  apply Gives.ite
  · intro _
    apply (isQuiet_expect "BY").discard.gives_bind
    intro _
    exact (hkey.require _).commaSeparated.mono fun _ hkeys => sortKeysNesting_le hkeys.2
  · intro _
    exact .pure (Nat.zero_le levels)

theorem rowOrder? : nested.rowOrder?.Gives fun value => rowOrderNesting? {} value ≤ levels := by
  apply h.orderBy.bind
  intro keys hkeys
  apply (h.exprAfter? "LIMIT").bind
  intro limit hlimit
  cases limit with
  | some limit =>
    apply (h.exprAfter? "OFFSET").bind
    intro offset hoffset
    exact .pure (Nat.max_le.mpr ⟨hkeys, Nat.max_le.mpr ⟨hlimit, hoffset⟩⟩)
  | none =>
    cases keys with
    | nil => exact .pure (Nat.zero_le levels)
    | cons key keys =>
      exact .pure (Nat.max_le.mpr ⟨hkeys, Nat.max_le.mpr ⟨Nat.zero_le _, Nat.zero_le _⟩⟩)

theorem window? : nested.window?.Gives fun value => windowNesting? {} value ≤ levels := by
  have hpartition : nested.partitionBy.Gives fun items => exprsNesting {} items ≤ levels := by
    apply (isQuiet_skip "PARTITION").gives_bind
    intro _
    apply Gives.ite
    · intro _
      apply (isQuiet_expect "BY").discard.gives_bind
      intro _
      exact h.exprs
    · intro _
      exact .pure (Nat.zero_le levels)
  apply (isQuiet_skip "OVER").gives_bind
  intro _
  apply Gives.ite
  · intro _
    apply (isQuiet_expect "(").discard.gives_bind
    intro _
    apply hpartition.bind
    intro partition hpartition
    apply h.orderBy.bind
    intro order horder
    apply isQuiet_frame?.gives_bind
    intro frame
    apply (isQuiet_expect ")").discard.gives_bind
    intro _
    exact .pure (Nat.max_le.mpr ⟨hpartition, horder⟩)
  · intro _
    exact .pure (Nat.zero_le levels)

end Clauses

end Nested.IsShallow

end Grammar

end SqlLayout
