import SqlLayout.Proofs.Layout.Plain

/-!
# Spellings of Forms

The two forms of a piece of syntax print the same spelling. Where an expanded form puts a line break, the
compact one has a blank, or nothing directly inside parentheses.
-/

namespace SqlLayout

namespace Atom

def word (text : String) : Atom :=
  .glyph { kind := .word, text }

def symbol (kind : Token.Kind) (text : String) : Atom :=
  .glyph { kind, text }

def comma : Atom := symbol .comma ","

def dot : Atom := symbol .dot "."

def parenOpen : Atom := symbol .parenOpen "("

def parenClose : Atom := symbol .parenClose ")"

def bracketOpen : Atom := symbol .bracketOpen "["

def bracketClose : Atom := symbol .bracketClose "]"

end Atom

namespace Spelling

/-- Words with blanks between them. -/
def words (texts : List String) : Spelling :=
  (texts.map Atom.word).intersperse .gap

def spaced (spellings : List Spelling) : Spelling :=
  List.intercalate [.gap] spellings

def commas (spellings : List Spelling) : Spelling :=
  List.intercalate [Atom.comma, .gap] spellings

/-- A spelling in parentheses that may stand on lines of its own. -/
def enclosed (body : Spelling) : Spelling :=
  Atom.parenOpen :: .soft .opening :: body ++ [.soft .closing, Atom.parenClose]

@[simp]
theorem plain_nil : plain [] = [] :=
  rfl

@[simp]
theorem plain_cons_word (text : String) (spelling : Spelling) :
    plain (Atom.word text :: spelling) = text.toList ++ spelling.plain :=
  rfl

@[simp]
theorem plain_cons_symbol (kind : Token.Kind) (text : String) (spelling : Spelling) :
    plain (Atom.symbol kind text :: spelling) = text.toList ++ spelling.plain :=
  rfl

@[simp]
theorem plain_cons_glyph (glyph : Glyph) (spelling : Spelling) :
    plain (.glyph glyph :: spelling) = glyph.text.toList ++ spelling.plain :=
  rfl

@[simp]
theorem plain_cons_gap (spelling : Spelling) : plain (.gap :: spelling) = ' ' :: spelling.plain :=
  rfl

@[simp]
theorem plain_cons_line (spelling : Spelling) : plain (.line :: spelling) = '\n' :: spelling.plain :=
  rfl

end Spelling

section Lists

variable {α β : Type} {R : α → β → Prop}

theorem forall₂_intersperse {as : List α} {bs : List β} (h : List.Forall₂ R as bs) {a : α} {b : β}
    (hsep : R a b) : List.Forall₂ R (as.intersperse a) (bs.intersperse b) := by
  induction h with
  | nil => exact .nil
  | cons hhead htail ih =>
    cases htail with
    | nil => exact .cons hhead .nil
    | cons hnext htail => exact .cons hhead (.cons hsep ih)

theorem forall₂_append {as as' : List α} {bs bs' : List β} (h : List.Forall₂ R as bs)
    (h' : List.Forall₂ R as' bs') : List.Forall₂ R (as ++ as') (bs ++ bs') := by
  induction h with
  | nil => exact h'
  | cons hhead htail ih => exact .cons hhead ih

end Lists

namespace Form

/-- The compact form is plain and spells the spelling, and the full one prints it. -/
structure Prints (form : Form) (spelling : Spelling) : Prop where
  compact : form.compact.Spells spelling
  full : form.full.Prints spelling

variable {form : Form} {forms : List Form} {docs : List Doc} {spelling : Spelling}
  {spellings : List Spelling}

theorem prints_text {content : String} (h : content.toList = spelling.plain) :
    (text content).Prints spelling :=
  ⟨.text h, Doc.prints_plain h⟩

theorem Prints.of_eq {other : Spelling} (h : form.Prints spelling) (heq : spelling = other) :
    form.Prints other :=
  heq ▸ h

theorem prints_choose {compact expanded : Doc} (h : compact.Spells spelling)
    (hexpanded : expanded.Prints spelling) : (choose compact expanded).Prints spelling :=
  ⟨h, h.prints.choice hexpanded⟩

theorem Prints.append {suffix : String} {tail : Spelling} (h : form.Prints spelling)
    (hsuffix : suffix.toList = tail.plain) : (form.append suffix).Prints (spelling ++ tail) :=
  ⟨h.compact.append (.text hsuffix), h.full.append (Doc.prints_plain hsuffix)⟩

theorem compacts (h : List.Forall₂ Prints forms spellings) :
    List.Forall₂ Doc.Spells (forms.map Form.compact) spellings := by
  rw [List.forall₂_map_left_iff]
  exact h.imp fun _ _ => Prints.compact

theorem fulls (h : List.Forall₂ Prints forms spellings) :
    List.Forall₂ Doc.Prints (forms.map Form.full) spellings := by
  rw [List.forall₂_map_left_iff]
  exact h.imp fun _ _ => Prints.full

theorem prints_line (h : List.Forall₂ Prints forms spellings) :
    (line forms).Prints spellings.flatten :=
  ⟨.line (compacts h), .line (fulls h)⟩

theorem spells_spaced (h : List.Forall₂ Doc.Spells docs spellings) :
    (spaced docs).Spells (Spelling.spaced spellings) := by
  have hblank : (Doc.text " ").Spells [.gap] := .text (by decide)
  exact Doc.Spells.line (forall₂_intersperse h hblank)

theorem spells_commaLine (h : List.Forall₂ Doc.Spells docs spellings) :
    (commaLine docs).Spells (Spelling.commas spellings) := by
  have hcomma : (Doc.text ", ").Spells [Atom.comma, .gap] := .text (by decide)
  exact Doc.Spells.line (forall₂_intersperse h hcomma)

theorem prints_commaLine (h : List.Forall₂ Doc.Prints docs spellings) :
    (commaLine docs).Prints (Spelling.commas spellings) := by
  have hcomma : (Doc.text ", ").Prints [Atom.comma, .gap] := Doc.prints_plain (by decide)
  exact Doc.Prints.line (forall₂_intersperse h hcomma)

/-- What `withCommas` prints, part by part. -/
def commaParts (tail : Spelling) : List Spelling → List Spelling
  | [] => []
  | [last] => [last ++ tail]
  | part :: next :: parts => (part ++ [Atom.comma]) :: commaParts tail (next :: parts)

theorem spaced_commaParts (tail : Spelling) (h : spellings ≠ []) :
    Spelling.spaced (commaParts tail spellings) = Spelling.commas spellings ++ tail := by
  induction spellings with
  | nil => exact absurd rfl h
  | cons part parts ih =>
    cases parts with
    | nil => simp [commaParts, Spelling.spaced, Spelling.commas]
    | cons next parts =>
      have hrest := ih (by simp)
      have hne : commaParts tail (next :: parts) ≠ [] := by
        cases parts <;> simp [commaParts]
      simp only [Spelling.spaced, Spelling.commas, commaParts] at hrest ⊢
      rw [List.intercalate_cons_of_ne_nil hne, hrest, List.intercalate_cons_cons]
      simp

theorem prints_withCommas {tail : String} {tailSpelling : Spelling}
    (h : List.Forall₂ Doc.Prints docs spellings) (htail : tail.toList = tailSpelling.plain)
    (hempty : tail.isEmpty → tailSpelling = []) :
    List.Forall₂ Doc.Prints (withCommas tail docs) (commaParts tailSpelling spellings) := by
  induction h with
  | nil => exact .nil
  | cons hdoc hdocs ih =>
    cases hdocs with
    | nil =>
      refine .cons ?_ .nil
      split
      · rename_i hnone
        rw [hempty hnone, List.append_nil]
        exact hdoc
      · exact hdoc.append (Doc.prints_plain htail)
    | cons hnext hdocs => exact .cons (hdoc.append (Doc.prints_plain (by decide))) ih

theorem prints_commaWrap {tail : String} {tailSpelling : Spelling}
    (h : List.Forall₂ Doc.Prints docs spellings) (htail : tail.toList = tailSpelling.plain)
    (hempty : tail.isEmpty → tailSpelling = []) :
    (commaWrap docs tail).Prints (Spelling.commas spellings ++ tailSpelling) := by
  cases h with
  | nil => exact Doc.prints_plain htail
  | cons hdoc hdocs =>
    rw [← spaced_commaParts tailSpelling (by simp)]
    exact Doc.Prints.wrap (prints_withCommas (.cons hdoc hdocs) htail hempty)

theorem prints_stack (h : List.Forall₂ Doc.Prints docs spellings) :
    (Doc.stack docs).Prints (Spelling.spaced spellings) := by
  cases h with
  | nil => exact Doc.prints_stack_nil
  | cons hdoc hdocs => exact hdoc.stack (hdocs.imp fun _ _ => Doc.Prints.trails)

theorem prints_commaStack (h : List.Forall₂ Doc.Prints docs spellings) :
    (commaStack docs).Prints (Spelling.commas spellings) := by
  have htail : "".toList = Spelling.plain [] := by decide
  have hparts := prints_stack (prints_withCommas h htail fun _ => rfl)
  cases h with
  | nil => exact hparts
  | cons hdoc hdocs =>
    rw [spaced_commaParts [] (by simp), List.append_nil] at hparts
    exact hparts

theorem prints_phrases (h : List.Forall₂ Prints forms spellings) :
    (phrases forms).Prints (Spelling.spaced spellings) :=
  prints_choose (spells_spaced (compacts h)) (prints_stack (fulls h))

theorem prints_commas (h : List.Forall₂ Prints forms spellings) :
    (commas forms).Prints (Spelling.commas spellings) :=
  ⟨spells_commaLine (compacts h), prints_commaStack (fulls h)⟩

/-- Two documents side by side. -/
theorem prints_pair {first second : Doc} {other : Spelling} (h : first.Prints spelling)
    (h' : second.Prints other) : (Doc.line [first, second]).Prints (spelling ++ other) := by
  have hline := Doc.Prints.line (.cons h (.cons h' .nil))
  rw [List.flatten_cons, List.flatten_cons, List.flatten_nil, List.append_nil] at hline
  exact hline

/-- Two plain documents side by side. -/
theorem spells_pair {first second : Doc} {other : Spelling} (h : first.Spells spelling)
    (h' : second.Spells other) : (Doc.line [first, second]).Spells (spelling ++ other) := by
  have hline := Doc.Spells.line (.cons h (.cons h' .nil))
  rw [List.flatten_cons, List.flatten_cons, List.flatten_nil, List.append_nil] at hline
  exact hline

/-- Three plain documents side by side. -/
theorem spells_triple {first second third : Doc} {other last : Spelling} (h : first.Spells spelling)
    (h' : second.Spells other) (h'' : third.Spells last) :
    (Doc.line [first, second, third]).Spells (spelling ++ other ++ last) := by
  have hline := Doc.Spells.line (.cons h (.cons h' (.cons h'' .nil)))
  simp only [List.flatten_cons, List.flatten_nil, List.append_nil] at hline
  rw [List.append_assoc]
  exact hline

theorem prints_call {head tail : String} {headSpelling tailSpelling : Spelling}
    (h : List.Forall₂ Prints forms spellings) (hhead : head.toList = headSpelling.plain)
    (htail : tail.toList = tailSpelling.plain) (hempty : tail.isEmpty → tailSpelling = []) :
    (call head tail forms).Prints (headSpelling ++ Spelling.commas spellings ++ tailSpelling) := by
  apply prints_choose
  · exact spells_triple (.text hhead) (spells_commaLine (compacts h)) (.text htail)
  · rw [List.append_assoc]
    exact prints_pair (Doc.prints_plain hhead) (prints_commaWrap (fulls h) htail hempty)

theorem prints_clause {keyword : String} {keywordSpelling : Spelling} (h : form.Prints spelling)
    (hkeyword : keyword.toList = keywordSpelling.plain) :
    (clause keyword form).Prints (keywordSpelling ++ .gap :: spelling) := by
  apply prints_choose
  · have hhead : (keyword ++ " ").toList = (keywordSpelling ++ [Atom.gap]).plain := by
      simp [hkeyword]
    have hpair := spells_pair (.text hhead) h.compact
    rw [List.append_assoc] at hpair
    exact hpair
  · have hstack := Doc.Prints.stack (Doc.prints_plain hkeyword) (.cons h.full.indent .nil)
    rw [List.intercalate_cons_cons, List.intercalate_singleton, List.append_assoc] at hstack
    exact hstack

theorem prints_listClause {keyword : String} {keywordSpelling : Spelling}
    (h : List.Forall₂ Prints forms spellings) (hkeyword : keyword.toList = keywordSpelling.plain) :
    (listClause keyword forms).Prints (keywordSpelling ++ .gap :: Spelling.commas spellings) :=
  prints_clause (prints_commas h) hkeyword

/-- What stands directly inside brackets, on their lines or on lines of its own. -/
theorem prints_between {head tail : String} {compact full : Doc}
    {headSpelling tailSpelling : Spelling} (hcompact : compact.Spells spelling)
    (hfull : full.Prints spelling) (hhead : head.toList = headSpelling.plain)
    (htail : tail.toList = tailSpelling.plain) :
    (choose (.line [.text head, compact, .text tail])
      (.stack [.text head, .indent full, .text tail])).Prints
      (headSpelling ++ .soft .opening :: spelling ++ .soft .closing :: tailSpelling) := by
  apply prints_choose
  · exact spells_triple (.text hhead) (hcompact.soft .opening) (.soft (.text htail) .closing)
  · have hstack := Doc.Prints.stack (Doc.prints_plain hhead)
      (.cons hfull.indent (.cons (Doc.prints_plain htail).trails .nil))
    simp only [List.intercalate_cons_cons, List.intercalate_singleton, List.append_assoc,
      List.singleton_append] at hstack
    have hfirst := hstack.soften .opening
    rw [← List.cons_append, ← List.append_assoc] at hfirst
    exact hfirst.soften .closing

theorem prints_enclosed {head tail : String} {headSpelling tailSpelling : Spelling}
    (h : form.Prints spelling) (hhead : head.toList = headSpelling.plain)
    (htail : tail.toList = tailSpelling.plain) :
    (enclosed head form tail).Prints
      (headSpelling ++ .soft .opening :: spelling ++ .soft .closing :: tailSpelling) :=
  prints_between h.compact h.full hhead htail

theorem prints_aggregate {head : String} {headSpelling : Spelling}
    (h : List.Forall₂ Prints forms spellings) (hhead : head.toList = headSpelling.plain) :
    (aggregate head forms).Prints
      (headSpelling ++ .soft .opening :: Spelling.spaced spellings ++ [.soft .closing, Atom.parenClose]) :=
  prints_between (spells_spaced (compacts h)) (prints_stack (fulls h)) hhead (by decide)

theorem prints_distinct (h : form.Prints spelling) (isDistinct : Bool) :
    (distinct isDistinct form).Prints
      (if isDistinct then Atom.word "DISTINCT" :: .gap :: spelling else spelling) := by
  unfold distinct
  split
  · have hword : (text "DISTINCT ").Prints [Atom.word "DISTINCT", .gap] := prints_text (by decide)
    have hline := prints_line (.cons hword (.cons h .nil))
    simp only [List.flatten_cons, List.flatten_nil, List.append_nil] at hline
    exact hline
  · exact h

end Form

end SqlLayout
