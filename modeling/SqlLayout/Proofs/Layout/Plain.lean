import SqlLayout.Proofs.Layout.Block

/-!
# Plain Documents

A document made of nothing but texts side by side leaves nothing open: it prints its texts one after the
other, wherever it stands and whatever the page. So what it spells can be read off the texts.
-/

namespace SqlLayout

namespace Doc

/-- A document made of texts side by side. -/
inductive IsPlain : Doc → Prop
  | text (content : String) : IsPlain (.text content)
  | line {parts : List Doc} (h : ∀ part ∈ parts, part.IsPlain) : IsPlain (.line parts)

mutual

/-- All texts of a document, in their order. -/
def texts : Doc → List String
  | .text content => [content]
  | .line parts | .stack parts | .wrap parts _ => textsOf parts
  | .indent body => body.texts
  | .choice compact full => compact.texts ++ full.texts

def textsOf : List Doc → List String
  | [] => []
  | part :: parts => part.texts ++ textsOf parts

end

/-- The texts of a document put together. -/
def content (doc : Doc) : String :=
  String.join doc.texts

theorem textsOf_eq_flatMap (parts : List Doc) : textsOf parts = parts.flatMap texts := by
  induction parts with
  | nil => rfl
  | cons part parts ih => rw [textsOf, ih, List.flatMap_cons]

@[simp]
theorem content_text (content : String) : (text content).content = content := by
  simp [Doc.content, texts, String.join_cons]

theorem content_line_cons (part : Doc) (parts : List Doc) :
    (line (part :: parts)).content = part.content ++ (line parts).content := by
  rw [content, texts, textsOf, String.join_append]
  rfl

variable {doc suffix : Doc} {docs : List Doc}

theorem content_append (doc suffix : Doc) : (doc.append suffix).content = doc.content ++ suffix.content := by
  unfold append
  split
  · simp [content, texts, textsOf_eq_flatMap, String.join_append]
  · simp [content, texts, textsOf, String.join_append]

theorem IsPlain.append (h : doc.IsPlain) (hsuffix : suffix.IsPlain) : (doc.append suffix).IsPlain := by
  cases h with
  | text content => exact .line (by simp [IsPlain.text, hsuffix])
  | line h =>
    refine .line fun part hmem => ?_
    rcases List.mem_append.mp hmem with hmem | hmem
    · exact h part hmem
    · rw [List.mem_singleton.mp hmem]
      exact hsuffix

theorem IsPlain.parts (h : (Doc.line docs).IsPlain) : ∀ part ∈ docs, part.IsPlain := by
  cases h with
  | line h => exact h

/-- A plain document prints its texts, on every page and at every column. -/
theorem IsPlain.layout_eq (h : doc.IsPlain) (page : Page) (col : Nat) :
    doc.layout page col = .ofText doc.content := by
  induction h generalizing col with
  | text content => rw [layout, content_text]
  | @line parts h ih =>
    rw [layout]
    clear h
    induction parts generalizing col with
    | nil => rfl
    | cons part parts ihParts =>
      have hrest := ihParts fun part hmem => ih part (List.mem_cons_of_mem _ hmem)
      rw [layoutLine, ih part (by simp), hrest, content_line_cons, Block.ofText_append]

/-- On one line a plain document is its texts, unless they break the line. -/
theorem IsPlain.flat_eq (h : doc.IsPlain) (page : Page) :
    doc.flat page = if '\n' ∈ doc.content.toList then none else some doc.content := by
  induction h with
  | text content => simp [flat]
  | @line parts h ih =>
    have hflats : (flats page parts).map String.join =
        if '\n' ∈ (Doc.line parts).content.toList then none else some (Doc.line parts).content := by
      clear h
      induction parts with
      | nil => rfl
      | cons part parts ihParts =>
        have hrest := ihParts fun part hmem => ih part (List.mem_cons_of_mem _ hmem)
        rw [flats, ih part (by simp), content_line_cons, String.toList_append]
        simp only [List.mem_append]
        by_cases hpart : '\n' ∈ part.content.toList
        · simp [hpart]
        · rw [if_neg hpart]
          by_cases hparts : '\n' ∈ (Doc.line parts).content.toList
          · rw [if_pos hparts, Option.map_eq_none_iff] at hrest
            simp [hrest, hparts]
          · rw [if_neg hparts] at hrest
            obtain ⟨texts, htexts, hjoined⟩ := Option.map_eq_some_iff.mp hrest
            simp [htexts, hjoined, hpart, hparts, String.join_cons]
    exact hflats

/-- A plain document whose texts are the tokens of a spelling with single blanks between them. -/
structure Spells (doc : Doc) (spelling : Spelling) : Prop where
  plain : doc.IsPlain
  content : doc.content.toList = spelling.plain

variable {spelling tail : Spelling} {spellings : List Spelling}

namespace Spells

theorem text {content : String} (h : content.toList = spelling.plain) :
    (Doc.text content).Spells spelling :=
  ⟨.text content, by rw [content_text, h]⟩

theorem of_eq {other : Spelling} (h : doc.Spells spelling) (heq : spelling = other) : doc.Spells other :=
  heq ▸ h

theorem soft (h : doc.Spells spelling) (side : Side) : doc.Spells (.soft side :: spelling) :=
  ⟨h.plain, h.content⟩

theorem append (h : doc.Spells spelling) (hsuffix : suffix.Spells tail) :
    (doc.append suffix).Spells (spelling ++ tail) := by
  refine ⟨h.plain.append hsuffix.plain, ?_⟩
  rw [content_append, String.toList_append, h.content, hsuffix.content, Spelling.plain_append]

theorem line (h : List.Forall₂ Spells docs spellings) : (Doc.line docs).Spells spellings.flatten := by
  induction h with
  | nil => exact ⟨.line (List.forall_mem_nil _), rfl⟩
  | cons hdoc hdocs ih =>
    refine ⟨.line (List.forall_mem_cons.mpr ⟨hdoc.plain, ih.plain.parts⟩), ?_⟩
    rw [content_line_cons, String.toList_append, hdoc.content, ih.content, List.flatten_cons,
      Spelling.plain_append]

theorem prints (h : doc.Spells spelling) : doc.Prints spelling := by
  have hexpands : Expands spelling doc.content.toList := by
    rw [h.content]
    exact spelling.expands_plain
  intro page
  constructor
  · intro col
    rw [h.plain.layout_eq, Block.chars_ofText]
    exact hexpands
  · intro text htext
    rw [h.plain.flat_eq] at htext
    split at htext
    · cases htext
    · cases htext
      exact hexpands

end Spells

end Doc

end SqlLayout
