import Mathlib.Data.List.Forall2
import SqlLayout.Doc.Form
import SqlLayout.Proofs.Layout.Line
import SqlLayout.Token.Kind

/-!
# Spellings

A spelling is a sequence of tokens with what may stand between them: nothing, blanks that have to be
there, or blanks that may be there. Characters expand a spelling when they are its tokens with a choice
of blanks in each place. What a document prints depends on the page; a document prints a spelling when
every page makes it print an expansion of it.
-/

namespace SqlLayout

/-- A token to be printed. A tied one is followed by the next one without anything between them. -/
structure Glyph where
  kind : Token.Kind
  text : String
  tied : Bool := false
deriving DecidableEq, Inhabited

/-- Where blanks that may be left out stand: after an opening parenthesis or before a closing one. -/
inductive Side where
  | opening | closing
deriving DecidableEq, Inhabited

inductive Atom where
  | glyph (glyph : Glyph)
  /-- Blanks that have to be there. -/
  | gap
  /-- Blanks that may be there. -/
  | soft (side : Side)
  /-- Blanks that start with a newline. -/
  | line
deriving DecidableEq, Inhabited

abbrev Spelling := List Atom

/-- Only spaces and newlines. -/
def IsBlanks (cs : List Char) : Prop :=
  ∀ c ∈ cs, c = ' ' ∨ c = '\n'

/-- Line breaks and then the blanks before the next line: no line that ends here ends in a blank. -/
def IsTidy (cs : List Char) : Prop :=
  ∃ breaks pad : Nat, cs = List.replicate breaks '\n' ++ List.replicate pad ' '

namespace IsTidy

variable {cs : List Char}

theorem isBlanks (h : IsTidy cs) : IsBlanks cs := by
  obtain ⟨breaks, pad, rfl⟩ := h
  intro c hc
  rcases List.mem_append.mp hc with hc | hc
  · exact .inr (List.eq_of_mem_replicate hc)
  · exact .inl (List.eq_of_mem_replicate hc)

theorem spaces (pad : Nat) : IsTidy (List.replicate pad ' ') :=
  ⟨0, pad, rfl⟩

theorem breaks (breaks : Nat) : IsTidy (List.replicate breaks '\n') :=
  ⟨breaks, 0, (List.append_nil _).symm⟩

/-- Another line break before some. -/
theorem newline (h : IsTidy cs) : IsTidy ('\n' :: cs) := by
  obtain ⟨breaks, pad, rfl⟩ := h
  exact ⟨breaks + 1, pad, rfl⟩

end IsTidy

/-- Characters that are the tokens of a spelling with a choice of blanks between them. -/
inductive Expands : Spelling → List Char → Prop
  | nil : Expands [] []
  | glyph (glyph : Glyph) {spelling : Spelling} {cs : List Char} (h : Expands spelling cs) :
    Expands (.glyph glyph :: spelling) (glyph.text.toList ++ cs)
  | gap {blanks : List Char} (hblanks : IsTidy blanks) (hne : blanks ≠ []) {spelling : Spelling}
    {cs : List Char} (h : Expands spelling cs) : Expands (.gap :: spelling) (blanks ++ cs)
  | soft (side : Side) {blanks : List Char} (hblanks : IsTidy blanks) {spelling : Spelling}
    {cs : List Char} (h : Expands spelling cs) : Expands (.soft side :: spelling) (blanks ++ cs)
  | line (breaks : Nat) {spelling : Spelling} {cs : List Char} (h : Expands spelling cs) :
    Expands (.line :: spelling) ('\n' :: (List.replicate breaks '\n' ++ cs))

namespace Expands

variable {spelling other : Spelling} {cs ds : List Char}

theorem append (h : Expands spelling cs) (h' : Expands other ds) :
    Expands (spelling ++ other) (cs ++ ds) := by
  induction h with
  | nil => exact h'
  | glyph glyph h ih =>
    rw [List.cons_append, List.append_assoc]
    exact .glyph glyph ih
  | gap hblanks hne h ih =>
    rw [List.cons_append, List.append_assoc]
    exact .gap hblanks hne ih
  | soft side hblanks h ih =>
    rw [List.cons_append, List.append_assoc]
    exact .soft side hblanks ih
  | line breaks h ih =>
    rw [List.cons_append, List.cons_append, List.append_assoc]
    exact .line breaks ih

/-- Blanks that have to be there may be there. -/
theorem soften {head tail : Spelling} (side : Side) (h : Expands (head ++ .gap :: tail) cs) :
    Expands (head ++ .soft side :: tail) cs := by
  induction head generalizing cs with
  | nil =>
    cases h with
    | gap hblanks hne h => exact .soft side hblanks h
  | cons atom head ih =>
    cases h with
    | glyph glyph h => exact .glyph glyph (ih h)
    | gap hblanks hne h => exact .gap hblanks hne (ih h)
    | soft side hblanks h => exact .soft side hblanks (ih h)
    | line breaks h => exact .line breaks (ih h)

/-- An empty line is part of the blanks between the lines around it. -/
theorem mergeLines {head tail : Spelling} (h : Expands (head ++ .line :: .line :: tail) cs) :
    Expands (head ++ .line :: tail) cs := by
  induction head generalizing cs with
  | nil =>
    cases h with
    | line breaks h =>
      cases h with
      | line others h =>
        have hmerged := Expands.line (breaks + (others + 1)) h
        rw [List.replicate_add, List.append_assoc] at hmerged
        exact hmerged
  | cons atom head ih =>
    cases h with
    | glyph glyph h => exact .glyph glyph (ih h)
    | gap hblanks hne h => exact .gap hblanks hne (ih h)
    | soft side hblanks h => exact .soft side hblanks (ih h)
    | line breaks h => exact .line breaks (ih h)

end Expands

/-- The expansion of a spelling with single spaces and no others. -/
def Spelling.plain : Spelling → List Char
  | [] => []
  | .glyph glyph :: spelling => glyph.text.toList ++ plain spelling
  | .gap :: spelling => ' ' :: plain spelling
  | .soft _ :: spelling => plain spelling
  | .line :: spelling => '\n' :: plain spelling

theorem Spelling.expands_plain (spelling : Spelling) : Expands spelling spelling.plain := by
  induction spelling with
  | nil => exact .nil
  | cons atom spelling ih =>
    cases atom with
    | glyph glyph => exact .glyph glyph ih
    | gap => exact .gap (.spaces 1) (by simp) ih
    | soft side => exact .soft side (.spaces 0) ih
    | line => exact .line 0 ih

@[simp]
theorem Spelling.plain_append (spelling other : Spelling) :
    (spelling ++ other).plain = spelling.plain ++ other.plain := by
  induction spelling with
  | nil => rfl
  | cons atom spelling ih => cases atom <;> simp [plain, ih]

namespace Block

/-- The characters of a block. -/
def chars (block : Block) : List Char :=
  block.first.toList ++ block.rest.flatMap fun line => '\n' :: line.toList

theorem toList_toText (block : Block) : block.toText.toList = block.chars := by
  have hlines (first : String) (rest : List String) :
      List.intercalate ['\n'] (first.toList :: rest.map String.toList) =
        first.toList ++ rest.flatMap fun line => '\n' :: line.toList := by
    induction rest generalizing first with
    | nil => simp
    | cons line rest ih => simp [ih]
  have hnewline : "\n".toList = ['\n'] := by decide
  rw [toText, String.toList_intercalate, hnewline]
  exact hlines block.first block.rest

theorem chars_ofText (text : String) : (ofText text).chars = text.toList := by
  have hbreak (cs : List Char) :
      (breakLines cs).1 ++ (breakLines cs).2.flatMap (fun line => '\n' :: line) = cs := by
    induction cs with
    | nil => rfl
    | cons c cs ih =>
      rw [breakLines]
      by_cases hc : c = '\n'
      · simp [hc, ih]
      · simp [hc, ih]
  unfold chars ofText
  simp [List.flatMap_map, hbreak]

theorem flatMap_lines (block : Block) :
    (block.lines.flatMap fun line => '\n' :: line.toList) = '\n' :: block.chars := by
  simp [lines, chars]

theorem chars_joinLines (first : String) (rest : List String) (tail : Block) :
    (joinLines first rest tail).chars =
      first.toList ++ (rest.flatMap fun line => '\n' :: line.toList) ++ tail.chars := by
  induction rest generalizing first with
  | nil => simp [joinLines, chars]
  | cons line rest ih =>
    have hchars : (joinLines first (line :: rest) tail).chars =
        first.toList ++ '\n' :: (joinLines line rest tail).chars := by
      rw [← flatMap_lines]
      rfl
    rw [hchars, ih]
    simp

theorem chars_append (block tail : Block) : (block.append tail).chars = block.chars ++ tail.chars :=
  chars_joinLines block.first block.rest tail

theorem exists_chars_padFirst (pad : Nat) (block : Block) :
    ∃ count, (block.padFirst pad).chars = List.replicate count ' ' ++ block.chars := by
  unfold padFirst padLine chars
  by_cases hempty : block.first.isEmpty
  · exact ⟨0, by simp [hempty]⟩
  · exact ⟨pad, by simp [hempty, Text.spaces]⟩

theorem chars_stack (col : Nat) (block : Block) (blocks : List Block) :
    (stack col (block :: blocks)).chars =
      block.chars ++ blocks.flatMap fun later => '\n' :: (later.padFirst col).chars := by
  have hrest : (stack col (block :: blocks)).chars =
      block.chars ++ (blocks.flatMap fun later => (later.padFirst col).lines).flatMap
        fun line => '\n' :: line.toList := by
    simp [stack, chars]
  rw [hrest, List.flatMap_assoc]
  simp only [flatMap_lines]

end Block

namespace Doc

/-- On every page and at every column a document prints an expansion of the spelling. -/
def Prints (doc : Doc) (spelling : Spelling) : Prop :=
  ∀ page : Page, (∀ col, Expands spelling (doc.layout page col).chars) ∧
    ∀ text, doc.flat page = some text → Expands spelling text.toList

/-- What a document prints is an expansion of the spelling after some blanks. -/
def Trails (doc : Doc) (spelling : Spelling) : Prop :=
  ∀ (page : Page) (col : Nat), ∃ count cs,
    (doc.layout page col).chars = List.replicate count ' ' ++ cs ∧ Expands spelling cs

variable {doc : Doc} {docs : List Doc} {spelling : Spelling} {spellings : List Spelling}

theorem Prints.trails (h : doc.Prints spelling) : doc.Trails spelling :=
  fun page col => ⟨0, _, rfl, (h page).1 col⟩

theorem Prints.of_eq {other : Spelling} (h : doc.Prints spelling) (heq : spelling = other) :
    doc.Prints other :=
  heq ▸ h

theorem Prints.soft (h : doc.Prints spelling) (side : Side) : doc.Prints (.soft side :: spelling) :=
  fun page => ⟨fun col => .soft side (.spaces 0) ((h page).1 col),
    fun text htext => .soft side (.spaces 0) ((h page).2 text htext)⟩

theorem Prints.soften {head tail : Spelling} (side : Side) (h : doc.Prints (head ++ .gap :: tail)) :
    doc.Prints (head ++ .soft side :: tail) :=
  fun page => ⟨fun col => ((h page).1 col).soften side,
    fun text htext => ((h page).2 text htext).soften side⟩

theorem prints_text {content : String} (h : Expands spelling content.toList) :
    (Doc.text content).Prints spelling := by
  intro page
  constructor
  · intro col
    rw [layout, Block.chars_ofText]
    exact h
  · intro text htext
    rw [flat] at htext
    split at htext
    · cases htext
    · cases htext
      exact h

theorem prints_plain {content : String} (h : content.toList = spelling.plain) :
    (Doc.text content).Prints spelling := by
  apply prints_text
  rw [h]
  exact spelling.expands_plain

theorem expands_flats (h : List.Forall₂ Prints docs spellings) {page : Page} {texts : List String}
    (htexts : flats page docs = some texts) :
    List.Forall₂ (fun spelling text => Expands spelling (String.toList text)) spellings texts := by
  induction h generalizing texts with
  | nil =>
    cases htexts
    exact .nil
  | cons hdoc hdocs ih =>
    rw [flats, Option.bind_eq_bind, Option.bind_eq_some_iff] at htexts
    obtain ⟨text, htext, htexts⟩ := htexts
    rw [Option.bind_eq_bind, Option.bind_eq_some_iff] at htexts
    obtain ⟨rest, hrest, htexts⟩ := htexts
    cases htexts
    exact .cons ((hdoc page).2 text htext) (ih hrest)

theorem Prints.line (h : List.Forall₂ Prints docs spellings) :
    (Doc.line docs).Prints spellings.flatten := by
  intro page
  constructor
  · intro col
    rw [layout]
    induction h generalizing col with
    | nil => exact .nil
    | cons hdoc hdocs ih =>
      rw [layoutLine, Block.chars_append, List.flatten_cons]
      exact ((hdoc page).1 col).append (ih _)
  · intro text htext
    rw [flat] at htext
    obtain ⟨texts, htexts, rfl⟩ := Option.map_eq_some_iff.mp htext
    rw [String.toList_join]
    have hexpands := expands_flats h htexts
    clear h htexts htext
    induction hexpands with
    | nil => exact .nil
    | cons hexpands hrest ih => exact hexpands.append ih

/-- The layout of parts below each other; every part but the first may start with blanks. -/
theorem expands_stack {first : Doc} {spelling : Spelling} (hfirst : first.Prints spelling)
    (h : List.Forall₂ Trails docs spellings) (page : Page) (start col : Nat) :
    Expands (List.intercalate [.gap] (spelling :: spellings))
      (Block.stack col (layouts page (first :: docs) start)).chars := by
  rw [layouts, Block.chars_stack]
  have hrest : Expands (spellings.flatMap fun spelling => .gap :: spelling)
      ((layouts page docs start).flatMap fun later => '\n' :: (later.padFirst col).chars) := by
    induction h with
    | nil => exact .nil
    | @cons doc spelling docs spellings hdoc hdocs ih =>
      obtain ⟨count, cs, hchars, hexpands⟩ := hdoc page start
      obtain ⟨pad, hpadded⟩ := Block.exists_chars_padFirst col (doc.layout page start)
      have hpart : Expands (.gap :: spelling) ('\n' :: ((doc.layout page start).padFirst col).chars) := by
        rw [hpadded, hchars, ← List.append_assoc, ← List.replicate_add]
        exact .gap (IsTidy.spaces (pad + count)).newline (by simp) hexpands
      exact hpart.append ih
  have hspelling : List.intercalate [.gap] (spelling :: spellings) =
      spelling ++ spellings.flatMap fun spelling => .gap :: spelling := by
    clear h hfirst hrest
    induction spellings generalizing spelling with
    | nil => simp
    | cons next spellings ih => simp [ih]
  rw [hspelling]
  exact ((hfirst page).1 start).append hrest

theorem Prints.stack {first : Doc} {spelling : Spelling} (hfirst : first.Prints spelling)
    (h : List.Forall₂ Trails docs spellings) :
    (Doc.stack (first :: docs)).Prints (List.intercalate [.gap] (spelling :: spellings)) := by
  intro page
  constructor
  · intro col
    rw [layout]
    exact expands_stack hfirst h page col col
  · intro text htext
    cases h with
    | nil =>
      rw [flat] at htext
      rw [List.intercalate_singleton]
      exact (hfirst page).2 text htext
    | cons hdoc hdocs =>
      rw [flat] at htext
      cases htext

/-- An empty part between two others makes an empty line. -/
theorem Prints.stackPastBlank {last : Doc} {tail : Spelling} (h : doc.Prints spelling)
    (hlast : last.Prints tail) :
    (Doc.stack [doc, .indent (.stack []), last]).Prints (spelling ++ .gap :: tail) := by
  intro page
  constructor
  · intro col
    have hblank : (Doc.indent (.stack [])).layout page col = { first := "" } := rfl
    have hnone : ((⟨"", []⟩ : Block).padFirst col).chars = [] := rfl
    obtain ⟨pad, hpadded⟩ := Block.exists_chars_padFirst col (last.layout page col)
    have htail : Expands (.gap :: tail) ('\n' :: '\n' :: ((last.layout page col).padFirst col).chars) := by
      rw [hpadded]
      exact .gap (IsTidy.spaces pad).newline.newline (by simp) ((hlast page).1 col)
    rw [layout, layouts, layouts, layouts, layouts, Block.chars_stack, hblank]
    simp only [List.flatMap_cons, List.flatMap_nil, List.append_nil, hnone, List.cons_append,
      List.nil_append]
    exact ((h page).1 col).append htail
  · intro text htext
    rw [flat] at htext
    cases htext

theorem prints_stack_nil : (Doc.stack []).Prints [] := by
  intro page
  constructor
  · intro col
    exact .nil
  · intro text htext
    cases htext
    exact .nil

theorem Prints.indent (h : doc.Prints spelling) : (Doc.indent doc).Trails spelling := by
  intro page col
  obtain ⟨count, hchars⟩ :=
    Block.exists_chars_padFirst page.indent (doc.layout page (col + page.indent))
  exact ⟨count, _, hchars, (h page).1 _⟩

theorem Prints.choice {full : Doc} (h : doc.Prints spelling) (hfull : full.Prints spelling) :
    (Doc.choice doc full).Prints spelling := by
  intro page
  constructor
  · intro col
    rw [layout]
    split
    · exact (h page).1 col
    · exact (hfull page).1 col
  · intro text htext
    rw [flat] at htext
    rcases Option.or_eq_some_iff.mp htext with hcompact | ⟨-, hexpanded⟩
    · exact (h page).2 text hcompact
    · exact (hfull page).2 text hexpanded

theorem Prints.wrap (h : List.Forall₂ Prints docs spellings) :
    (Doc.wrap docs " ").Prints (List.intercalate [.gap] spellings) := by
  have hspace : " ".toList = [' '] := by decide
  have hjoined {page : Page} {joined : String}
      (hflat : (flats page docs).map (String.intercalate " ") = some joined) :
      Expands (List.intercalate [.gap] spellings) joined.toList := by
    obtain ⟨texts, htexts, rfl⟩ := Option.map_eq_some_iff.mp hflat
    rw [String.toList_intercalate, hspace]
    have hexpands := expands_flats h htexts
    clear h htexts hflat
    induction hexpands with
    | nil => exact .nil
    | cons hexpands hrest ih =>
      cases hrest with
      | nil => simpa using hexpands
      | cons hnext hrest =>
        simp only [List.map_cons, List.intercalate_cons_cons, List.append_assoc] at ih ⊢
        exact hexpands.append (.gap (.spaces 1) (by simp) ih)
  intro page
  constructor
  · intro col
    have hstack : Expands (List.intercalate [.gap] spellings)
        (Block.stack col (layouts page docs col)).chars := by
      cases h with
      | nil => exact .nil
      | cons hdoc hdocs =>
        exact expands_stack hdoc (hdocs.imp fun _ _ => Prints.trails) page col col
    rw [layout]
    cases hflat : (flats page docs).map (String.intercalate " ") with
    | none => exact hstack
    | some joined =>
      dsimp only
      split
      · have hchars : Block.chars { first := joined } = joined.toList := List.append_nil _
        rw [hchars]
        exact hjoined hflat
      · exact hstack
  · intro text htext
    rw [flat] at htext
    exact hjoined htext

theorem Prints.append {suffix : Doc} {tail : Spelling} (h : doc.Prints spelling)
    (hsuffix : suffix.Prints tail) : (doc.append suffix).Prints (spelling ++ tail) := by
  intro page
  constructor
  · intro col
    rw [layout_append, Block.chars_append]
    exact ((h page).1 col).append ((hsuffix page).1 _)
  · intro text htext
    rw [flat_append, Option.map₂_eq_some_iff] at htext
    obtain ⟨first, last, hfirst, hlast, rfl⟩ := htext
    rw [String.toList_append]
    exact ((h page).2 first hfirst).append ((hsuffix page).2 last hlast)

end Doc

end SqlLayout
