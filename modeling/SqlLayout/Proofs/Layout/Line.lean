import Mathlib.Algebra.BigOperators.Group.List.Basic
import Mathlib.Data.Option.NAry
import SqlLayout.Doc.Layout

/-!
# Lines Are Products

The rendering of a document is all that shows of it: its lines on every page and at every column, its form
on one line, and whether it leaves a choice open. Renderings are multiplied side by side, the second one from
the column where the first one ends, and a line is the product of its parts. So its parts can be grouped in
any way and empty ones left out, and as a document shows no more of its parts than their renderings, this can
be done anywhere in it.
-/

namespace SqlLayout

namespace Block

theorem append_mk_nil (first : String) (tail : Block) :
    append ⟨first, []⟩ tail = ⟨first ++ tail.first, tail.rest⟩ :=
  rfl

theorem append_mk_cons (first line : String) (lines : List String) (tail : Block) :
    append ⟨first, line :: lines⟩ tail = ⟨first, (append ⟨line, lines⟩ tail).lines⟩ :=
  rfl

theorem endColumn_mk_cons (first line : String) (lines : List String) (col : Nat) :
    endColumn ⟨first, line :: lines⟩ col = endColumn ⟨line, lines⟩ 0 := by
  cases lines with
  | nil => simp [endColumn]
  | cons next lines =>
    have hlast := List.getLast?_eq_some_getLast (List.cons_ne_nil next lines)
    simp only [endColumn, List.getLast?_cons_cons, hlast]

theorem empty_append (block : Block) : append { first := "" } block = block := by
  rw [append_mk_nil, String.empty_append]

theorem append_empty (block : Block) : block.append { first := "" } = block := by
  obtain ⟨first, rest⟩ := block
  induction rest generalizing first with
  | nil => simp [append_mk_nil]
  | cons line lines ih =>
    rw [append_mk_cons, ih]
    rfl

theorem append_assoc (first second third : Block) :
    (first.append second).append third = first.append (second.append third) := by
  obtain ⟨line, rest⟩ := first
  induction rest generalizing line with
  | nil =>
    obtain ⟨next, rest⟩ := second
    cases rest with
    | nil => simp [append_mk_nil, String.append_assoc]
    | cons other rest => rfl
  | cons next rest ih =>
    exact congrArg (fun block : Block => Block.mk line block.lines) (ih next)

theorem endColumn_append (block tail : Block) (col : Nat) :
    (block.append tail).endColumn col = tail.endColumn (block.endColumn col) := by
  obtain ⟨first, rest⟩ := block
  induction rest generalizing first col with
  | nil =>
    obtain ⟨next, rest⟩ := tail
    cases rest with
    | nil => simp [append_mk_nil, endColumn, Nat.add_assoc]
    | cons line rest => rw [append_mk_nil, endColumn_mk_cons, endColumn_mk_cons]
  | cons line lines ih =>
    rw [append_mk_cons, endColumn_mk_cons, ← ih 0 line]
    exact endColumn_mk_cons first _ _ col

end Block

/-- All that shows of a document. -/
@[ext]
structure Rendering where
  layout : Page → Nat → Block
  flat : Page → Option String
  hasChoice : Bool

namespace Rendering

/-- Side by side, the second rendering starts where the first one ends. -/
instance : Mul Rendering where
  mul before after :=
    { layout := fun page col =>
        let block := before.layout page col
        block.append (after.layout page (block.endColumn col))
      flat := fun page => Option.map₂ (· ++ ·) (before.flat page) (after.flat page)
      hasChoice := before.hasChoice || after.hasChoice }

/-- A single empty line. -/
instance : One Rendering where
  one := { layout := fun _ _ => { first := "" }, flat := fun _ => some "", hasChoice := false }

theorem mul_def (before after : Rendering) :
    before * after =
      { layout := fun page col =>
          (before.layout page col).append
            (after.layout page ((before.layout page col).endColumn col))
        flat := fun page => Option.map₂ (· ++ ·) (before.flat page) (after.flat page)
        hasChoice := before.hasChoice || after.hasChoice } :=
  rfl

instance : Monoid Rendering where
  one_mul rendering := by
    ext1
    · funext page col
      exact Block.empty_append (rendering.layout page col)
    · funext page
      exact Option.map₂_left_identity (fun _ => String.empty_append) (rendering.flat page)
    · exact Bool.false_or rendering.hasChoice
  mul_one rendering := by
    ext1
    · funext page col
      exact Block.append_empty (rendering.layout page col)
    · funext page
      exact Option.map₂_right_identity (fun _ => String.append_empty) (rendering.flat page)
    · exact Bool.or_false rendering.hasChoice
  mul_assoc first second third := by
    ext1
    · -- Where the third one starts is the same column, for the second one ends where both of them do.
      funext page col
      simp only [mul_def, Block.endColumn_append, Block.append_assoc]
    · funext page
      exact Option.map₂_assoc fun _ _ _ => String.append_assoc
    · exact Bool.or_assoc first.hasChoice second.hasChoice third.hasChoice

end Rendering

namespace Doc

def rendering (doc : Doc) : Rendering where
  layout page col := doc.layout page col
  flat page := doc.flat page
  hasChoice := doc.hasChoice

theorem rendering_eq_iff {doc other : Doc} :
    doc.rendering = other.rendering ↔
      (∀ page col, doc.layout page col = other.layout page col) ∧
        (∀ page, doc.flat page = other.flat page) ∧ doc.hasChoice = other.hasChoice := by
  simp only [Rendering.ext_iff, funext_iff, rendering]

section Products

theorem rendering_empty : empty.rendering = 1 :=
  rfl

theorem rendering_line_cons (part : Doc) (parts : List Doc) :
    (line (part :: parts)).rendering = part.rendering * (line parts).rendering := by
  have hflat (page : Page) : (line (part :: parts)).flat page =
      Option.map₂ (· ++ ·) (part.flat page) ((line parts).flat page) := by
    rw [flat, flat, flats]
    cases part.flat page with
    | none => rfl
    | some first =>
      cases flats page parts with
      | none => rfl
      | some rest => exact congrArg some String.join_cons
  exact Rendering.ext rfl (funext hflat) rfl

theorem rendering_line (parts : List Doc) : (line parts).rendering = (parts.map rendering).prod := by
  induction parts with
  | nil => rfl
  | cons part parts ih => rw [rendering_line_cons, ih, List.map_cons, List.prod_cons]

theorem rendering_line_pair (doc suffix : Doc) :
    (line [doc, suffix]).rendering = doc.rendering * suffix.rendering := by
  rw [rendering_line, List.map_cons, List.map_singleton, List.prod_pair]

/-- A suffix stands after a document, whether or not it joins a line. -/
theorem rendering_append (doc suffix : Doc) :
    (doc.append suffix).rendering = doc.rendering * suffix.rendering := by
  unfold append
  split
  · rw [rendering_line, rendering_line, List.map_append, List.prod_append, List.map_singleton,
      List.prod_singleton]
  · rw [rendering_line_pair]

theorem layout_append (page : Page) (doc suffix : Doc) (col : Nat) :
    (doc.append suffix).layout page col =
      (doc.layout page col).append (suffix.layout page ((doc.layout page col).endColumn col)) :=
  congrFun (congrFun (congrArg Rendering.layout (rendering_append doc suffix)) page) col

theorem flat_append (page : Page) (doc suffix : Doc) :
    (doc.append suffix).flat page = Option.map₂ (· ++ ·) (doc.flat page) (suffix.flat page) :=
  congrFun (congrArg Rendering.flat (rendering_append doc suffix)) page

/-- Parts can also be added to a block one by one, each from the column where the block ends so far. -/
theorem foldl_append_layout (page : Page) (parts : List Doc) (col : Nat) (block : Block) :
    parts.foldl (fun block part => block.append (part.layout page (block.endColumn col))) block =
      block.append (layoutLine page parts (block.endColumn col)) := by
  induction parts generalizing block with
  | nil => exact (Block.append_empty block).symm
  | cons part parts ih => rw [List.foldl_cons, ih, layoutLine, Block.endColumn_append, Block.append_assoc]

theorem layout_line_eq_foldl (page : Page) (parts : List Doc) (col : Nat) :
    (line parts).layout page col =
      parts.foldl (fun block part => block.append (part.layout page (block.endColumn col)))
        { first := "" } := by
  rw [foldl_append_layout, Block.empty_append]
  rfl

end Products

section Places

theorem layouts_eq_map (page : Page) (docs : List Doc) (col : Nat) :
    layouts page docs col = docs.map fun doc => doc.layout page col := by
  induction docs with
  | nil => rfl
  | cons doc docs ih => rw [layouts, ih, List.map_cons]

/-- What a document takes from a list of parts can be read off their renderings. -/
theorem layouts_eq_map_rendering (page : Page) (docs : List Doc) (col : Nat) :
    layouts page docs col = (docs.map rendering).map fun part => part.layout page col := by
  rw [layouts_eq_map, List.map_map]
  rfl

theorem flats_eq_mapM_rendering (page : Page) (docs : List Doc) :
    flats page docs = (docs.map rendering).mapM fun part => part.flat page := by
  induction docs with
  | nil => rfl
  | cons doc docs ih =>
    rw [flats, ih, List.map_cons, List.mapM_cons]
    rfl

theorem anyChoice_eq_any_rendering (docs : List Doc) :
    anyChoice docs = (docs.map rendering).any Rendering.hasChoice := by
  rw [anyChoice_eq_any, List.any_map]
  rfl

theorem flat_stack_eq_rendering (page : Page) (docs : List Doc) :
    (stack docs).flat page =
      match docs.map rendering with
      | [] => some ""
      | [only] => only.flat page
      | _ :: _ :: _ => none := by
  rcases docs with _ | ⟨only, _ | ⟨next, rest⟩⟩ <;> rfl

variable {doc other : Doc} {docs others : List Doc}

theorem rendering_stack_congr (h : docs.map rendering = others.map rendering) :
    (stack docs).rendering = (stack others).rendering := by
  refine rendering_eq_iff.mpr ⟨fun page col => ?_, fun page => ?_, ?_⟩
  · rw [layout, layout, layouts_eq_map_rendering, layouts_eq_map_rendering, h]
  · rw [flat_stack_eq_rendering, flat_stack_eq_rendering, h]
  · rw [hasChoice, hasChoice, anyChoice_eq_any_rendering, anyChoice_eq_any_rendering, h]

theorem rendering_wrap_congr (h : docs.map rendering = others.map rendering) (sep : String) :
    (wrap docs sep).rendering = (wrap others sep).rendering := by
  have hflats (page : Page) : flats page docs = flats page others := by
    rw [flats_eq_mapM_rendering, flats_eq_mapM_rendering, h]
  refine rendering_eq_iff.mpr ⟨fun page col => ?_, fun page => ?_, ?_⟩
  · rw [layout, layout, hflats, layouts_eq_map_rendering, layouts_eq_map_rendering, h]
  · rw [flat, flat, hflats]
  · rw [hasChoice, hasChoice, anyChoice_eq_any_rendering, anyChoice_eq_any_rendering, h]

theorem rendering_indent_congr (h : doc.rendering = other.rendering) :
    (indent doc).rendering = (indent other).rendering := by
  obtain ⟨hlayout, hflat, hchoice⟩ := rendering_eq_iff.mp h
  refine rendering_eq_iff.mpr ⟨fun page col => ?_, fun page => ?_, hchoice⟩
  · rw [layout, layout, hlayout]
  · rw [flat, flat, hflat]

theorem rendering_choice_congr {compact compact' full full' : Doc}
    (hcompact : compact.rendering = compact'.rendering)
    (hfull : full.rendering = full'.rendering) :
    (choice compact full).rendering = (choice compact' full').rendering := by
  obtain ⟨hlayout, hflat, -⟩ := rendering_eq_iff.mp hcompact
  obtain ⟨hlayout', hflat', -⟩ := rendering_eq_iff.mp hfull
  refine rendering_eq_iff.mpr ⟨fun page col => ?_, fun page => ?_, rfl⟩
  · rw [layout, layout, hlayout, hlayout']
  · rw [flat, flat, hflat, hflat']

/-- A document with one place in it left open. -/
inductive Context where
  | here
  | line (before : List Doc) (inside : Context) (after : List Doc)
  | stack (before : List Doc) (inside : Context) (after : List Doc)
  | indent (inside : Context)
  | wrap (before : List Doc) (inside : Context) (after : List Doc) (sep : String)
  | compactSide (inside : Context) (full : Doc)
  | fullSide (compact : Doc) (inside : Context)

/-- Puts a document in the open place. -/
def Context.fill : Context → Doc → Doc
  | .here, doc => doc
  | .line before inside after, doc => .line (before ++ inside.fill doc :: after)
  | .stack before inside after, doc => .stack (before ++ inside.fill doc :: after)
  | .indent inside, doc => .indent (inside.fill doc)
  | .wrap before inside after sep, doc => .wrap (before ++ inside.fill doc :: after) sep
  | .compactSide inside full, doc => .choice (inside.fill doc) full
  | .fullSide compact inside, doc => .choice compact (inside.fill doc)

/-- Nothing shows of what stands in a place but its rendering. -/
theorem rendering_fill_congr (context : Context) (h : doc.rendering = other.rendering) :
    (context.fill doc).rendering = (context.fill other).rendering := by
  have hparts {doc other : Doc} (before after : List Doc) (h : doc.rendering = other.rendering) :
      (before ++ doc :: after).map rendering = (before ++ other :: after).map rendering := by
    rw [List.map_append, List.map_append, List.map_cons, List.map_cons, h]
  induction context with
  | here => exact h
  | line before inside after ih =>
    rw [Context.fill, Context.fill, rendering_line, rendering_line, hparts before after ih]
  | stack before inside after ih => exact rendering_stack_congr (hparts before after ih)
  | indent inside ih => exact rendering_indent_congr ih
  | wrap before inside after sep ih => exact rendering_wrap_congr (hparts before after ih) sep
  | compactSide inside full ih => exact rendering_choice_congr ih rfl
  | fullSide compact inside ih => exact rendering_choice_congr rfl ih

theorem rendering_line_nested (before inner after : List Doc) :
    (line (before ++ line inner :: after)).rendering = (line (before ++ inner ++ after)).rendering := by
  simp only [rendering_line, List.map_append, List.map_cons, List.prod_append, List.prod_cons, mul_assoc]

theorem rendering_line_blank {blank : Doc} (h : blank.rendering = 1) (before after : List Doc) :
    (line (before ++ blank :: after)).rendering = (line (before ++ after)).rendering := by
  simp only [rendering_line, List.map_append, List.map_cons, List.prod_append, List.prod_cons, h, one_mul]

/-- A line is the product of its parts. So anywhere in a document, a line directly inside a line can be
replaced by its parts, a part of a line that is an empty text or an empty line can be left out, and a document
with a suffix is the line of the two: the layout on every page and at every column stays the same, and so do
the one-line form and whether there is a choice. -/
theorem rendering_line_regrouped (context : Context) (before parts after : List Doc) (doc suffix : Doc) :
    (line parts).rendering = (parts.map rendering).prod ∧
      (context.fill (line (before ++ line parts :: after))).rendering =
        (context.fill (line (before ++ parts ++ after))).rendering ∧
      (context.fill (line (before ++ text "" :: after))).rendering =
        (context.fill (line (before ++ after))).rendering ∧
      (context.fill (line (before ++ line [] :: after))).rendering =
        (context.fill (line (before ++ after))).rendering ∧
      (context.fill (doc.append suffix)).rendering = (context.fill (line [doc, suffix])).rendering := by
  refine ⟨rendering_line parts, ?_, ?_, ?_, ?_⟩
  · exact rendering_fill_congr context (rendering_line_nested before parts after)
  · exact rendering_fill_congr context (rendering_line_blank rendering_empty before after)
  · exact rendering_fill_congr context (rendering_line_blank (rendering_line []) before after)
  · have hpair := (rendering_line_pair doc suffix).symm
    exact rendering_fill_congr context ((rendering_append doc suffix).trans hpair)

/-- The inner line starts after a text of two lines, so what it stacks hangs from the end of the second one. -/
example :
    let stacked : Doc := .stack [.text "d", .text "e"]
    let nested : Doc := .line [.text "a\nb", .line [.text "c", stacked], .empty]
    let level : Doc := .line [.text "a\nb", .text "c", stacked]
    (nested.layout {} 7).lines = ["a", "bcd", "  e"] ∧ nested.layout {} 7 = level.layout {} 7 := by
  decide

end Places

end Doc

end SqlLayout
