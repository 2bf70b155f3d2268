import SqlLayout.Proofs.Outline.Parts
import SqlLayout.Proofs.Outline.Shape

/-!
# The Words That Labels Start With

The word before the first blank of a label tells what the label stands for. The parts below a label come
in a fixed order, so they are told apart by their words.
-/

namespace SqlLayout

section Labels

/-- What a label has before its first blank. -/
def firstWord (label : String) : String :=
  String.ofList (label.toList.takeWhile (· ≠ ' '))

theorem firstWord_gap (label text : String) : firstWord (label ++ " " ++ text) = firstWord label := by
  have htake (cs rest : List Char) :
      (cs ++ ' ' :: rest).takeWhile (· ≠ ' ') = cs.takeWhile (· ≠ ' ') := by
    induction cs with
    | nil => simp
    | cons c cs ih => simp only [List.cons_append, List.takeWhile_cons, ih]
  have htext : (label ++ " " ++ text).toList = label.toList ++ ' ' :: text.toList := by simp
  rw [firstWord, firstWord, htext, htake]

theorem firstWord_after (word : String) {head : String} (hhead : head = word ++ " ")
    (hword : firstWord word = word) (text : String) : firstWord (head ++ text) = word := by
  rw [hhead, firstWord_gap, hword]

@[simp]
theorem firstWord_flagged (label : String) (flags : List (Option String)) :
    firstWord (flagged label flags) = firstWord label := by
  induction flags generalizing label with
  | nil => rw [flagged_nil]
  | cons flag flags ih =>
    cases flag with
    | none => rw [flagged_none, ih]
    | some text => rw [flagged_some, ih, firstWord_gap]

/-- A label that is a word, with some flags. -/
theorem firstWord_mem (word : String) (hword : firstWord word = word) (flags : List (Option String)) :
    firstWord (flagged word flags) ∈ [word] := by
  rw [firstWord_flagged, hword, List.mem_singleton]

/-- A label that goes on after its word, with some flags. -/
theorem firstWord_after_mem (word : String) {head : String} (hhead : head = word ++ " ")
    (hword : firstWord word = word) (text : String) (flags : List (Option String)) :
    firstWord (flagged (head ++ text) flags) ∈ [word] := by
  rw [firstWord_flagged, firstWord_after word hhead hword, List.mem_singleton]

end Labels

namespace Outline

/-- The word an outline starts with. -/
def word : Outline → String
  | node label _ => firstWord label

/-- Some outlines start with these words. -/
def HaveWords (words : List String) (outlines : List Outline) : Prop :=
  ∀ outline ∈ outlines, outline.word ∈ words

variable {label head : String} {words others : List String} {outlines rest rest' : List Outline}

theorem haveWords_nil : HaveWords words [] := by
  simp [HaveWords]

theorem haveWords_singleton {outline : Outline} (h : outline.word ∈ words) : HaveWords words [outline] := by
  simpa [HaveWords] using h

theorem HaveWords.mono (h : HaveWords words outlines) (hsub : ∀ word ∈ words, word ∈ others) :
    HaveWords others outlines :=
  fun outline hmem => hsub outline.word (h outline hmem)

theorem HaveWords.append (h : HaveWords words outlines) (hrest : HaveWords others rest) :
    HaveWords (words ++ others) (outlines ++ rest) := by
  intro outline hmem
  rw [List.mem_append]
  exact (List.mem_append.mp hmem).imp (h outline) (hrest outline)

theorem haveWords_map {α : Type} {items : List α} {outline : α → Outline}
    (h : ∀ item ∈ items, (outline item).word ∈ words) : HaveWords words (items.map outline) := by
  intro shown hshown
  obtain ⟨item, hitem, rfl⟩ := List.mem_map.mp hshown
  exact h item hitem

/-- A text that may be missing, with a word before it. -/
theorem haveWords_leaf {α : Type} (word : String) (hhead : head = word ++ " ")
    (hword : firstWord word = word) (write : α → String) (o : Option α) :
    HaveWords [word] (o.map fun item => leaf (head ++ write item)).toList := by
  rw [Option.toList_map]
  exact haveWords_map fun item _ => firstWord_after_mem word hhead hword (write item) []

theorem haveWords_part (hlabel : firstWord label = label) (o : Option Expr) :
    HaveWords [label] (part label o) :=
  haveWords_map fun _ _ => List.mem_singleton.mpr hlabel

theorem haveWords_group (hlabel : firstWord label = label) : HaveWords [label] (group label outlines) := by
  unfold group
  split
  · exact haveWords_nil
  · exact haveWords_singleton (List.mem_singleton.mpr hlabel)

/-- Outlines in a row are known from the whole where the words change. -/
theorem append_inj_of_words {outlines others : List Outline} {words words' : List String}
    (hdisjoint : ∀ word ∈ words, word ∉ words')
    (h : HaveWords words outlines) (h' : HaveWords words others) (hrest : HaveWords words' rest)
    (hrest' : HaveWords words' rest') (heq : outlines ++ rest = others ++ rest') :
    outlines = others ∧ rest = rest' := by
  induction outlines generalizing others with
  | nil =>
    cases others with
    | nil => exact ⟨rfl, heq⟩
    | cons other others =>
      have hmem : other ∈ rest := by
        rw [show rest = other :: (others ++ rest') from heq]
        exact List.mem_cons_self
      exact absurd (hrest other hmem) (hdisjoint _ (h' other List.mem_cons_self))
  | cons outline outlines ih =>
    cases others with
    | nil =>
      have hmem : outline ∈ rest' := by
        rw [← show outline :: (outlines ++ rest) = rest' from heq]
        exact List.mem_cons_self
      exact absurd (hrest' outline hmem) (hdisjoint _ (h outline List.mem_cons_self))
    | cons other others =>
      obtain ⟨rfl, htail⟩ := List.cons.inj heq
      obtain ⟨rfl, hrests⟩ := ih (fun inner hinner => h inner (List.mem_cons_of_mem _ hinner))
        (fun inner hinner => h' inner (List.mem_cons_of_mem _ hinner)) htail
      exact ⟨rfl, hrests⟩

theorem group_inj {others : List Outline} (h : group label outlines = group label others) :
    outlines = others := by
  cases outlines <;> cases others <;> simp_all [group]

end Outline

open Outline

section Words

/-- The words that expressions start with, in the order of their kinds. -/
def Expr.kindWords : List String :=
  ["Constant", "Path", "Star", "Function", "ArrayLiteral", "ArraySelect", "ArrayAgg", "StringAgg",
    "WithAnalytic", "Binary", "Unary", "Paren", "Subquery", "Exists", "Struct", "Cast", "Extract", "Case",
    "Interval", "In", "Between", "Is", "Index", "Field"]

/-- The kind of expression that a word stands for; a cast has two words. -/
def Expr.kindOfWord (word : String) : Nat :=
  kindWords.idxOf (if word = "SafeCast" then "Cast" else word)

theorem Expr.kindOfWord_outline (body : Expr) : kindOfWord body.outline.word = body.ctorIdx := by
  have hkind {label word : String} (h : firstWord label ∈ [word]) :
      kindOfWord (firstWord label) = kindOfWord word := by
    rw [List.mem_singleton.mp h]
  cases body with
  | constant value =>
    have hword : firstWord ("Constant " ++ value.kind.label ++ " " ++ value.text) = "Constant" := by
      rw [firstWord_gap, firstWord_after "Constant" (by decide) (by decide)]
    exact hkind (List.mem_singleton.mpr hword)
  | name path => exact hkind (firstWord_after_mem "Path" (by decide) (by decide) path.dotted [])
  | star => exact hkind (firstWord_mem "Star" (by decide) [])
  | call function distinct args nulls =>
    exact hkind (firstWord_after_mem "Function" (by decide) (by decide) function.dotted _)
  | array type items => exact hkind (firstWord_mem "ArrayLiteral" (by decide) _)
  | arrayQuery query => exact hkind (firstWord_mem "ArraySelect" (by decide) [])
  | arrayAgg distinct operand nulls order window offset =>
    rw [Expr.outline_arrayAgg]
    exact hkind (firstWord_mem "ArrayAgg" (by decide) _)
  | stringAgg function distinct operand delimiter nulls order window accessor =>
    rw [Expr.outline_stringAgg]
    exact hkind (firstWord_after_mem "StringAgg" (by decide) (by decide) function.text _)
  | «over» operand window => exact hkind (firstWord_mem "WithAnalytic" (by decide) [])
  | binary op left right => exact hkind (firstWord_after_mem "Binary" (by decide) (by decide) op.text [])
  | unary op operand => exact hkind (firstWord_after_mem "Unary" (by decide) (by decide) op.text [])
  | paren inner => exact hkind (firstWord_mem "Paren" (by decide) [])
  | subquery query => exact hkind (firstWord_mem "Subquery" (by decide) [])
  | existsQuery query => exact hkind (firstWord_mem "Exists" (by decide) [])
  | struct fields items => exact hkind (firstWord_mem "Struct" (by decide) _)
  | cast safe operand type =>
    cases safe with
    | true => exact hkind (firstWord_after_mem "SafeCast" rfl (by decide) type.text [])
    | false => exact hkind (firstWord_after_mem "Cast" rfl (by decide) type.text [])
  | extract part operand zone =>
    rw [Expr.outline_extract]
    exact hkind (firstWord_mem "Extract" (by decide) [])
  | case operand branches otherwise =>
    rw [Expr.outline_case]
    exact hkind (firstWord_mem "Case" (by decide) [])
  | interval count unit => exact hkind (firstWord_after_mem "Interval" (by decide) (by decide) unit.raw [])
  | member operand negated target => exact hkind (firstWord_mem "In" (by decide) _)
  | between operand negated low high => exact hkind (firstWord_mem "Between" (by decide) _)
  | isValue operand negated value => exact hkind (firstWord_mem "Is" (by decide) _)
  | index base kind position => exact hkind (firstWord_mem "Index" (by decide) _)
  | field base name => exact hkind (firstWord_after_mem "Field" (by decide) (by decide) name.raw [])

/-- Expressions that look the same are of one kind. -/
theorem Expr.ctorIdx_eq {body other : Expr} (h : body.outline = other.outline) :
    body.ctorIdx = other.ctorIdx := by
  rw [← kindOfWord_outline, h, kindOfWord_outline]

end Words

end SqlLayout
