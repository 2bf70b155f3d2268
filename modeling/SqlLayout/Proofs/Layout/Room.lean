import SqlLayout.Proofs.Layout.Block

/-!
# Layout Depends on the Room Left

A document is told the width of the page and the column where it starts, and nothing it decides depends on
either alone: where both are moved by the same amount, its first line stays as it is and its later lines
move with the column. So a part can be laid out before it is known how far to the right it will hang. A line
of a text that spans several ones stays where it is, and so does a line that is left blank; both are kept
out here.
-/

namespace SqlLayout

namespace Block

/-- Puts `pad` blanks before every line but the first. -/
def padRest (pad : Nat) (block : Block) : Block :=
  { block with rest := block.rest.map (Text.spaces pad ++ ·) }

variable {block tail : Block} {pad col : Nat} {line : String}

theorem spaces_add (count more : Nat) : Text.spaces (count + more) = Text.spaces count ++ Text.spaces more := by
  rw [Text.spaces, List.replicate_add, String.ofList_append]
  rfl

theorem length_spaces (count : Nat) : (Text.spaces count).length = count := by
  simp [Text.spaces]

section PadRest

theorem padRest_padRest (pad more : Nat) (block : Block) :
    (block.padRest more).padRest pad = block.padRest (pad + more) := by
  simp [padRest, spaces_add, String.append_assoc, Function.comp_def]

/-- All lines move if the later lines of what is continued move, and all of what continues them. -/
theorem lines_append_map (pad : Nat) (line : String) (rest : List String) (tail : Block) :
    (append ⟨Text.spaces pad ++ line, rest.map (Text.spaces pad ++ ·)⟩ (tail.padRest pad)).lines =
      (append ⟨line, rest⟩ tail).lines.map (Text.spaces pad ++ ·) := by
  induction rest generalizing line with
  | nil => simp [append_mk_nil, lines, padRest, String.append_assoc]
  | cons next rest ih =>
    rw [List.map_cons, append_mk_cons, append_mk_cons, ih]
    rfl

theorem append_padRest (pad : Nat) (block tail : Block) :
    (block.padRest pad).append (tail.padRest pad) = (block.append tail).padRest pad := by
  obtain ⟨first, rest⟩ := block
  cases rest with
  | nil => rfl
  | cons line rest => exact congrArg (Block.mk first) (lines_append_map pad line rest tail)

/-- Moving a line that is not blank, at once or in two steps. -/
theorem padLine_add (h : line ≠ "") (col pad : Nat) :
    padLine (col + pad) line = Text.spaces pad ++ padLine col line := by
  have hline : line.isEmpty = false := by simpa [String.isEmpty_iff] using h
  rw [padLine, padLine, hline, if_neg Bool.false_ne_true, if_neg Bool.false_ne_true, Nat.add_comm,
    spaces_add, String.append_assoc]

theorem above_padRest (h : tail.first ≠ "") (block : Block) (col pad : Nat) :
    (block.padRest pad).above ((tail.padRest pad).padFirst (col + pad)) =
      (block.above (tail.padFirst col)).padRest pad := by
  simp [above, padRest, padFirst, lines, padLine_add h]

theorem endColumn_padRest (block : Block) (col pad : Nat) :
    (block.padRest pad).endColumn (col + pad) = block.endColumn col + pad := by
  unfold endColumn padRest
  rw [List.getLast?_map]
  cases block.rest.getLast? with
  | none => exact Nat.add_right_comm col pad _
  | some last =>
    simp only [Option.map_some, String.length_append, length_spaces]
    exact Nat.add_comm pad _

theorem fits_padRest (width col pad : Nat) (block : Block) :
    (block.padRest pad).fits (width + pad) (col + pad) = block.fits width col := by
  have hfirst : col + pad + block.first.length ≤ width + pad ↔ col + block.first.length ≤ width := by
    omega
  have hline (line : String) : (Text.spaces pad ++ line).length ≤ width + pad ↔ line.length ≤ width := by
    rw [String.length_append, length_spaces]
    omega
  simp only [fits, padRest, List.all_map, Function.comp_def, hfirst, hline]

end PadRest

end Block

namespace Doc

/-- On some page and at some column, the document is an empty line. -/
def CanBeBlank (doc : Doc) : Prop :=
  ∃ page col, (doc.layout page col).IsBlank

/-- No text has a newline, and nothing that a stack or a wrap puts on lines of its own can be blank. -/
inductive IsSolid : Doc → Prop
  | text {content : String} (h : '\n' ∉ content.toList) : IsSolid (.text content)
  | line {parts : List Doc} (h : ∀ part ∈ parts, IsSolid part) : IsSolid (.line parts)
  | stack {parts : List Doc} (h : ∀ part ∈ parts, IsSolid part)
    (hinked : ∀ part ∈ parts, ¬part.CanBeBlank) : IsSolid (.stack parts)
  | indent {body : Doc} (h : IsSolid body) : IsSolid (.indent body)
  | wrap {items : List Doc} (sep : String) (h : ∀ item ∈ items, IsSolid item)
    (hinked : ∀ item ∈ items, ¬item.CanBeBlank) : IsSolid (.wrap items sep)
  | choice {compact full : Doc} (hcompact : IsSolid compact) (hfull : IsSolid full) :
    IsSolid (.choice compact full)

variable {page other : Page} {doc : Doc} {docs : List Doc} {col pad : Nat}

section Measuring

mutual

/-- What a document is on one line does not depend on the width of the page. -/
theorem flat_width (page : Page) (width : Nat) : (doc : Doc) → doc.flat { page with width } = doc.flat page
  | .text _ | .stack [] | .stack (_ :: _ :: _) => rfl
  | .line parts => congrArg (Option.map String.join) (flats_width page width parts)
  | .stack [only] => flat_width page width only
  | .indent body => congrArg (Option.map (Block.padLine page.indent)) (flat_width page width body)
  | .wrap items sep => congrArg (Option.map sep.intercalate) (flats_width page width items)
  | .choice compact full => by
    rw [flat, flat, flat_width page width compact, flat_width page width full]

theorem flats_width (page : Page) (width : Nat) : (docs : List Doc) →
    flats { page with width } docs = flats page docs
  | [] => rfl
  | doc :: docs => by rw [flats, flats, flat_width page width doc, flats_width page width docs]

end

end Measuring

section Inked

theorem layout_text_of_notMem {content : String} (h : '\n' ∉ content.toList) (page : Page) (col : Nat) :
    (Doc.text content).layout page col = { first := content } := by
  have hchars := Block.ofChars_of_notMem h
  rw [String.ofList_toList] at hchars
  exact hchars

/-- A wrap is one line or a stack. -/
theorem layout_wrap_cases (page : Page) (items : List Doc) (sep : String) (col : Nat) :
    (∃ joined, (Doc.wrap items sep).layout page col = { first := joined }) ∨
      (Doc.wrap items sep).layout page col = .stack col (layouts page items col) := by
  rw [layout]
  split
  · split
    · exact .inl ⟨_, rfl⟩
    · exact .inr rfl
  · exact .inr rfl

theorem layout_choice_cases (page : Page) (compact full : Doc) (col : Nat) :
    (Doc.choice compact full).layout page col = compact.layout page col ∨
      (Doc.choice compact full).layout page col = full.layout page col := by
  rw [layout]
  split
  · exact .inl rfl
  · exact .inr rfl

theorem rest_stack_eq_nil (hinked : ∀ doc ∈ docs, (doc.layout page col).first ≠ "")
    (hfirst : (Block.stack col (layouts page docs col)).first = "") :
    (Block.stack col (layouts page docs col)).rest = [] := by
  cases docs with
  | nil => rfl
  | cons doc docs => exact absurd hfirst (hinked doc List.mem_cons_self)

theorem rest_layoutLine_eq_nil
    (h : ∀ doc ∈ docs, ∀ col, (doc.layout page col).first = "" → (doc.layout page col).rest = [])
    (hfirst : (layoutLine page docs col).first = "") : (layoutLine page docs col).rest = [] := by
  induction docs generalizing col with
  | nil => rfl
  | cons doc docs ih =>
    have hdoc := h doc List.mem_cons_self col
    have hdocs := @ih ((doc.layout page col).endColumn col) fun next hmem =>
      h next (List.mem_cons_of_mem _ hmem)
    rw [layoutLine] at hfirst ⊢
    generalize doc.layout page col = block at hdoc hdocs hfirst ⊢
    obtain ⟨first, rest⟩ := block
    cases rest with
    | nil => exact hdocs (String.append_eq_empty_iff.mp hfirst).2
    | cons line rest => exact absurd (hdoc hfirst) (List.cons_ne_nil _ _)

/-- A solid document that starts with an empty line is nothing but that line. -/
theorem IsSolid.rest_eq_nil (h : doc.IsSolid) (hfirst : (doc.layout page col).first = "") :
    (doc.layout page col).rest = [] := by
  induction h generalizing col with
  | text h => rw [layout_text_of_notMem h]
  | line h ih => exact rest_layoutLine_eq_nil (fun part hmem _ => ih part hmem) hfirst
  | stack h hinked ih =>
    exact rest_stack_eq_nil (fun part hmem hempty => hinked part hmem ⟨page, col, hempty, ih part hmem hempty⟩)
      hfirst
  | @indent body h ih =>
    by_cases hempty : (body.layout page (col + page.indent)).first = ""
    · exact ih hempty
    · simp [layout, Block.padFirst, Block.padLine, hempty] at hfirst
  | @wrap items sep h hinked ih =>
    obtain ⟨joined, hjoined⟩ | hstack := layout_wrap_cases page items sep col
    · rw [hjoined]
    · rw [hstack] at hfirst ⊢
      exact rest_stack_eq_nil
        (fun item hmem hempty => hinked item hmem ⟨page, col, hempty, ih item hmem hempty⟩) hfirst
  | @choice compact full hcompact hfull ihCompact ihFull =>
    obtain hside | hside := layout_choice_cases page compact full col
    · rw [hside] at hfirst ⊢
      exact ihCompact hfirst
    · rw [hside] at hfirst ⊢
      exact ihFull hfirst

/-- What stands on lines of its own does not start with an empty one. -/
theorem IsSolid.first_ne (h : doc.IsSolid) (hinked : ¬doc.CanBeBlank) (page : Page) (col : Nat) :
    (doc.layout page col).first ≠ "" :=
  fun hfirst => hinked ⟨page, col, hfirst, h.rest_eq_nil hfirst⟩

end Inked

section Moving

theorem layoutLine_moved
    (h : ∀ doc ∈ docs, ∀ col, doc.layout other (col + pad) = (doc.layout page col).padRest pad) :
    layoutLine other docs (col + pad) = (layoutLine page docs col).padRest pad := by
  induction docs generalizing col with
  | nil => rfl
  | cons doc docs ih =>
    have hdocs := @ih ((doc.layout page col).endColumn col) fun next hmem =>
      h next (List.mem_cons_of_mem _ hmem)
    rw [layoutLine, layoutLine, h doc List.mem_cons_self, Block.endColumn_padRest]
    exact (congrArg _ hdocs).trans (Block.append_padRest pad _ _)

theorem stack_moved
    (h : ∀ doc ∈ docs, doc.layout other (col + pad) = (doc.layout page col).padRest pad)
    (hinked : ∀ doc ∈ docs, (doc.layout page col).first ≠ "") :
    Block.stack (col + pad) (layouts other docs (col + pad)) =
      (Block.stack col (layouts page docs col)).padRest pad := by
  induction docs with
  | nil => rfl
  | cons doc docs ih =>
    have hdoc := h doc List.mem_cons_self
    cases docs with
    | nil => simpa [layouts, Block.stack_singleton] using hdoc
    | cons next docs =>
      have hdocs := ih (fun later hmem => h later (List.mem_cons_of_mem _ hmem))
        fun later hmem => hinked later (List.mem_cons_of_mem _ hmem)
      have hnext : (Block.stack col (layouts page (next :: docs) col)).first ≠ "" :=
        hinked next (List.mem_cons_of_mem _ List.mem_cons_self)
      simp only [layouts, Block.stack_cons_cons] at hdocs hnext ⊢
      rw [hdoc, hdocs, Block.above_padRest hnext]

/-- A solid document that is moved to the right together with the edge of the page keeps its first line, and
its later lines move with it. -/
theorem IsSolid.layout_moved (h : doc.IsSolid) (page : Page) (col pad : Nat) :
    doc.layout { page with width := page.width + pad } (col + pad) = (doc.layout page col).padRest pad := by
  induction h generalizing col with
  | text h => rw [layout_text_of_notMem h, layout_text_of_notMem h]; rfl
  | line h ih => exact layoutLine_moved fun part hmem col => ih part hmem col
  | stack h hinked ih =>
    exact stack_moved (fun part hmem => ih part hmem col)
      fun part hmem => (h part hmem).first_ne (hinked part hmem) page col
  | indent h ih =>
    have hbody := ih (col + page.indent)
    rw [Nat.add_right_comm] at hbody
    exact congrArg (Block.padFirst page.indent) hbody
  | @wrap items sep h hinked ih =>
    have hstack := stack_moved (fun item hmem => ih item hmem col)
      fun item hmem => (h item hmem).first_ne (hinked item hmem) page col
    rw [layout, layout, flats_width]
    cases (flats page items).map sep.intercalate with
    | none => exact hstack
    | some joined =>
      have hfits : col + pad + joined.length ≤ page.width + pad ↔ col + joined.length ≤ page.width := by
        omega
      simp only [hfits]
      split
      · rfl
      · exact hstack
  | choice hcompact hfull ihCompact ihFull =>
    have hfits := Block.fits_padRest page.width col pad
    rw [layout, layout, ihCompact, ihFull]
    simp only [hfits]
    split
    · rfl
    · rfl

end Moving

section Hanging

theorem exists_layoutLine_eq_padRest
    (h : ∀ doc ∈ docs, ∀ col, ∃ block : Block, doc.layout page col = block.padRest col) :
    ∃ block : Block, layoutLine page docs col = block.padRest col := by
  induction docs generalizing col with
  | nil => exact ⟨{ first := "" }, rfl⟩
  | cons doc docs ih =>
    obtain ⟨block, hblock⟩ := h doc List.mem_cons_self col
    -- The next part starts where this one ends, which is no further to the left than its own start.
    have hend : (doc.layout page col).endColumn col = col + block.endColumn 0 := by
      have hcolumn := Block.endColumn_padRest block 0 col
      rw [Nat.zero_add] at hcolumn
      rw [hblock, hcolumn, Nat.add_comm]
    obtain ⟨rest, hrest⟩ := @ih ((doc.layout page col).endColumn col) fun next hmem =>
      h next (List.mem_cons_of_mem _ hmem)
    refine ⟨block.append (rest.padRest (block.endColumn 0)), ?_⟩
    have hjoined := Block.append_padRest col block (rest.padRest (block.endColumn 0))
    rw [Block.padRest_padRest, ← hend, ← hrest, ← hblock] at hjoined
    exact hjoined

theorem exists_stack_eq_padRest
    (h : ∀ doc ∈ docs, ∃ block : Block, doc.layout page col = block.padRest col)
    (hinked : ∀ doc ∈ docs, (doc.layout page col).first ≠ "") :
    ∃ block : Block, Block.stack col (layouts page docs col) = block.padRest col := by
  induction docs with
  | nil => exact ⟨{ first := "" }, rfl⟩
  | cons doc docs ih =>
    obtain ⟨block, hblock⟩ := h doc List.mem_cons_self
    cases docs with
    | nil => exact ⟨block, by rw [layouts, layouts, Block.stack_singleton, hblock]⟩
    | cons next docs =>
      obtain ⟨below, hbelow⟩ := ih (fun later hmem => h later (List.mem_cons_of_mem _ hmem))
        fun later hmem => hinked later (List.mem_cons_of_mem _ hmem)
      have hnext : (Block.stack col (layouts page (next :: docs) col)).first ≠ "" :=
        hinked next (List.mem_cons_of_mem _ List.mem_cons_self)
      have hfirst : below.first ≠ "" := by
        rw [hbelow] at hnext
        exact hnext
      have habove := Block.above_padRest hfirst block 0 col
      rw [Nat.zero_add, ← hbelow, ← hblock] at habove
      refine ⟨block.above (below.padFirst 0), ?_⟩
      simp only [layouts, Block.stack_cons_cons] at habove ⊢
      exact habove

/-- The later lines of a solid document do not start left of the document. -/
theorem IsSolid.exists_eq_padRest (h : doc.IsSolid) (page : Page) (col : Nat) :
    ∃ block : Block, doc.layout page col = block.padRest col := by
  induction h generalizing col with
  | @text content h => exact ⟨{ first := content }, layout_text_of_notMem h page col⟩
  | line h ih => exact exists_layoutLine_eq_padRest ih
  | stack h hinked ih =>
    exact exists_stack_eq_padRest (fun part hmem => ih part hmem col)
      fun part hmem => (h part hmem).first_ne (hinked part hmem) page col
  | @indent body h ih =>
    obtain ⟨block, hblock⟩ := ih (col + page.indent)
    refine ⟨(block.padRest page.indent).padFirst page.indent, ?_⟩
    rw [layout, hblock, ← Block.padRest_padRest]
    rfl
  | @wrap items sep h hinked ih =>
    obtain ⟨joined, hjoined⟩ | hstack := layout_wrap_cases page items sep col
    · exact ⟨{ first := joined }, hjoined⟩
    · rw [hstack]
      exact exists_stack_eq_padRest (fun item hmem => ih item hmem col)
        fun item hmem => (h item hmem).first_ne (hinked item hmem) page col
  | @choice compact full hcompact hfull ihCompact ihFull =>
    obtain hside | hside := layout_choice_cases page compact full col
    · rw [hside]
      exact ihCompact col
    · rw [hside]
      exact ihFull col

/-- The layout of a solid document depends on its column and on the width of the page only by the room
between them: with as much more of both, its later lines move to the right and nothing else changes. And on
every page, its later lines start no further to the left than the document. -/
theorem layout_add_room (h : doc.IsSolid) (page : Page) (col more : Nat) :
    doc.layout { page with width := page.width + more } (col + more) =
        (doc.layout page col).padRest more ∧
      ∀ line ∈ (doc.layout page col).rest, ∃ text, line = Text.spaces col ++ text := by
  refine ⟨h.layout_moved page col more, ?_⟩
  intro line hmem
  obtain ⟨block, hblock⟩ := h.exists_eq_padRest page col
  rw [hblock] at hmem
  obtain ⟨text, -, rfl⟩ := List.mem_map.mp hmem
  exact ⟨text, rfl⟩

theorem not_canBeBlank_text {content : String} (h : (Block.ofText content).first ≠ "") :
    ¬(Doc.text content).CanBeBlank := by
  rintro ⟨page, col, hfirst, -⟩
  exact h hfirst

/-- A call after some text: its arguments hang below each other, with less room and with more. -/
theorem layout_add_room_call :
    ∃ doc : Doc, doc.IsSolid ∧
      (doc.layout { width := 12 } 3).lines = ["x = f(b,", "         c)"] ∧
      doc.layout { width := 17 } 8 = (doc.layout { width := 12 } 3).padRest 5 ∧
      ∀ line ∈ (doc.layout { width := 12 } 3).rest, ∃ text, line = Text.spaces 3 ++ text := by
  let call : Doc := .choice (.text "f(b, c)") (.line [.text "f(", .wrap [.text "b,", .text "c)"] " "])
  have htext (content : String) (h : '\n' ∉ content.toList) : (Doc.text content).IsSolid := .text h
  have hboth {P : Doc → Prop} {one two : Doc} (hone : P one) (htwo : P two) : ∀ doc ∈ [one, two], P doc :=
    List.forall_mem_cons.mpr ⟨hone, List.forall_mem_singleton.mpr htwo⟩
  have hitems : (Doc.wrap [.text "b,", .text "c)"] " ").IsSolid :=
    .wrap " " (hboth (htext _ (by decide)) (htext _ (by decide)))
      (hboth (not_canBeBlank_text (by decide)) (not_canBeBlank_text (by decide)))
  have hcall : call.IsSolid :=
    .choice (htext _ (by decide)) (.line (hboth (htext _ (by decide)) hitems))
  have hsolid : (Doc.line [.text "x = ", call]).IsSolid := .line (hboth (htext _ (by decide)) hcall)
  exact ⟨_, hsolid, by decide, layout_add_room hsolid { width := 12 } 3 5⟩

end Hanging

end Doc

end SqlLayout
