import SqlLayout.Proofs.Nesting.Clause
import SqlLayout.Proofs.Reading.Expr

/-!
# Types Are Read Back

The text of a type is read as the type again, whatever words and quoted names it is made of, so two types
with one text are one type. What could go on with a type never stands after one in a text, and a field
without a name is told from one with a name by its second token. The induction is on the type, with a level
less for what is between angle brackets.
-/

namespace SqlLayout

open Rule

namespace Cursor

/-- Nothing at the cursor goes on with a type. -/
structure EndsType (cursor : Cursor) : Prop where
  sees : ∀ pattern ∈ ["(", "<", "<>"], cursor.sees pattern = false
  kind? : cursor.kind? 0 ≠ some .word

variable {cursor : Cursor}

theorem endsType_of_sees {pattern : String} (h : cursor.sees pattern = true)
    (hword : isWordPattern pattern = false)
    (hpattern : ∀ other ∈ ["(", "<", "<>"], excludes pattern other = true) : cursor.EndsType where
  sees other hmem := sees_eq_false h (hpattern other hmem)
  kind? := by
    obtain ⟨token, htoken, hfits⟩ := token_of_seesAt h
    rw [fits, hword, if_neg Bool.false_ne_true, Bool.and_eq_true] at hfits
    rw [kind?_of_token? htoken]
    intro hkind
    rw [Option.some.inj hkind] at hfits
    exact absurd hfits.1 (by decide)

theorem endsType_of_comma (h : cursor.sees "," = true) : cursor.EndsType :=
  endsType_of_sees h (by decide) (by decide)

theorem endsType_of_angle (h : cursor.sees ">" = true) : cursor.EndsType :=
  endsType_of_sees h (by decide) (by decide)

theorem endsType_of_token? (h : cursor.token? 0 = none) : cursor.EndsType where
  sees pattern _ := by rw [Cursor.sees, seesAt, h]
  kind? := by simp [Cursor.kind?, h]

/-- A word is next only where a word pattern can match. -/
theorem sees_eq_false_of_kind? {pattern : String} (h : cursor.kind? 0 ≠ some .word)
    (hword : isWordPattern pattern = true) : cursor.sees pattern = false := by
  by_contra hsees
  obtain ⟨token, htoken, hfits⟩ := token_of_seesAt (Bool.not_eq_false _ ▸ hsees)
  rw [fits, hword, if_pos rfl, Bool.and_eq_true, decide_eq_true_eq] at hfits
  exact h (by rw [kind?_of_token? htoken, hfits.1])

theorem EndsType.deeper (h : cursor.EndsType) : EndsType { cursor with depth := cursor.depth + 1 } :=
  ⟨h.sees, h.kind?⟩

/-- Two patterns do not match where the second one does not match the second token. -/
theorem seesAll_two_of_not {first second : String} (h : (cursor.advance 1).sees second = false) :
    cursor.seesAll [first, second] = false := by
  have hsecond : cursor.seesAt 1 second = false := h
  simp [seesAll, seesAllAt, hsecond]

theorem seesAll_two {first second : String} (h : cursor.sees first = true)
    (hsecond : (cursor.advance 1).sees second = true) : cursor.seesAll [first, second] = true := by
  have hfirst : cursor.seesAt 0 first = true := h
  have hsecond : cursor.seesAt 1 second = true := hsecond
  simp [seesAll, seesAllAt, hfirst, hsecond]

end Cursor

section Reading

variable {α : Type} {levels : Nat} {spelling : Spelling} {ends : Cursor → Prop} {value : α}

theorem Rule.ReadsAt.require {rule : Rule (Option α)} (h : rule.ReadsAt levels spelling ends (some value))
    (what : String) : (Rule.require what rule).ReadsAt levels spelling ends value :=
  fun cursor after hready hspells hends => require_of_ok (h cursor after hready hspells hends) what

theorem Rule.ReadsAt.descend {rule : Rule α} (h : rule.ReadsAt levels spelling ends value)
    (hends : ∀ cursor : Cursor, ends cursor → ends { cursor with depth := cursor.depth + 1 }) :
    (Rule.descend rule).ReadsAt (levels + 1) spelling ends value :=
  fun _ after hready hspells hafter =>
    descend_of_ok hready.depth_lt (h _ _ hready.deeper hspells.deeper (hends after hafter))

end Reading

section Spelled

variable {cursor after : Cursor} {type : SqlType}

/-- A type starts with a word. -/
theorem SqlType.exists_spelling (h : type.IsSound) :
    ∃ glyph rest, type.spelling = .glyph glyph :: rest ∧ glyph.kind = .word := by
  cases type with
  | named name params =>
    rw [SqlType.IsSound] at h
    exact ⟨name.glyph, _, by rw [SqlType.spelling]; rfl, name.kind_of_isWord h.1⟩
  | array element => exact ⟨_, _, by rw [SqlType.spelling]; rfl, rfl⟩
  | struct fields => exact ⟨_, _, by rw [SqlType.spelling]; rfl, rfl⟩
  | any => exact ⟨_, _, by rw [SqlType.spelling]; rfl, rfl⟩

theorem SqlType.kind?_of_spells (h : type.IsSound) (hspells : cursor.Spells type.spelling after) :
    cursor.kind? 0 = some .word := by
  obtain ⟨glyph, rest, hspelling, hkind⟩ := SqlType.exists_spelling h
  rw [hspelling] at hspells
  rw [hspells.1.kind?, hkind]

/-- Only `ANY TYPE` goes on with another word. -/
theorem SqlType.kind?_one_of_spells (h : type ≠ .any) (hspells : cursor.Spells type.spelling after)
    (hends : after.EndsType) : cursor.kind? 1 ≠ some .word := by
  have hnot {glyph : Glyph} (hnext : (cursor.advance 1).HasNext glyph) (hkind : glyph.kind ≠ .word) :
      cursor.kind? 1 ≠ some .word := by
    have hsecond : cursor.kind? 1 = some glyph.kind := hnext.kind?
    rw [hsecond]
    exact fun hword => hkind (Option.some.inj hword)
  cases type with
  | named name params =>
    rw [SqlType.spelling] at hspells
    obtain ⟨-, hspells⟩ := hspells
    cases params with
    | nil =>
      obtain rfl : after = cursor.advance 1 := hspells
      exact hends.kind?
    | cons first rest => exact hnot hspells.1 (by decide)
  | array element =>
    rw [SqlType.spelling] at hspells
    exact hnot hspells.2.1 (by decide)
  | struct fields =>
    rw [SqlType.spelling] at hspells
    obtain ⟨-, hspells⟩ := hspells
    unfold angled at hspells
    split at hspells
    · exact hnot hspells.1 (by decide)
    · exact hnot hspells.1 (by decide)
  | any => exact absurd rfl h

end Spelled

/-- What one field spells. -/
def Field.spelling : Field → Spelling
  | ⟨none, type⟩ => type.spelling
  | ⟨some name, type⟩ => name.spelling ++ .gap :: type.spelling

/-- What fields spell after `<`, up to the `>` that closes them. -/
def closedFields (fields : List Field) : Spelling :=
  Spelling.commas (fields.map Field.spelling) ++ [Atom.symbol .gt ">"]

theorem fieldSpellings_eq_map (fields : List Field) : fieldSpellings fields = fields.map Field.spelling := by
  induction fields with
  | nil => rw [fieldSpellings, List.map_nil]
  | cons field fields ih =>
    obtain ⟨name, type⟩ := field
    cases name with
    | none => rw [fieldSpellings, ih, List.map_cons, Field.spelling]
    | some name => rw [fieldSpellings, ih, List.map_cons, Field.spelling]

namespace Grammar

variable {cursor middle after : Cursor} {levels : Nat}

section Constants

/-- A constant is one token, which says what kind it is of. -/
theorem readsAt_constant {value : Constant} (h : value.IsSound) (ends : Cursor → Prop) :
    constant.ReadsAt levels value.spelling ends value := by
  rintro cursor after - ⟨hnext, rfl⟩ -
  apply require_of_ok
  obtain ⟨kind, text⟩ := value
  have hkind : Rule.kind? cursor = .ok (some kind.tokenKind) cursor := by
    rw [Rule.kind?, ask_apply, hnext.kind?]
    rfl
  have hbump : bump cursor = .ok (some text) (cursor.advance 1) := by
    rw [bump, hnext.text?]
    rfl
  have hword {word : String} (hsees : cursor.sees word = true) :
      take? word cursor = .ok (some text) (cursor.advance 1) := by
    rw [take?_of_sees hsees, hnext.text?]
    rfl
  refine (bind_of_ok hkind).trans ?_
  cases kind with
  | string => exact (bind_of_ok hbump).trans (by rw [h.2]; rfl)
  | bytes => exact (bind_of_ok hbump).trans (by rw [h.2]; rfl)
  | number => exact (bind_of_ok hbump).trans rfl
  | boolean =>
    obtain rfl | rfl : text = "TRUE" ∨ text = "FALSE" := h
    · have htrue : cursor.sees "TRUE" = true := hnext.sees_of (by decide)
      have htake : takeAny? ["TRUE", "FALSE"] cursor = .ok (some "TRUE") (cursor.advance 1) :=
        (bind_of_ok (hword htrue)).trans rfl
      exact (bind_of_ok htake).trans rfl
    · have hfalse : cursor.sees "FALSE" = true := hnext.sees_of (by decide)
      have htrue : cursor.sees "TRUE" = false := Cursor.sees_eq_false hfalse (by decide)
      have htake : takeAny? ["TRUE", "FALSE"] cursor = .ok (some "FALSE") (cursor.advance 1) :=
        (bind_of_ok (take?_of_not htrue)).trans ((bind_of_ok (hword hfalse)).trans rfl)
      exact (bind_of_ok htake).trans rfl
  | null =>
    obtain rfl : text = "NULL" := h
    have hnull : cursor.sees "NULL" = true := hnext.sees_of (by decide)
    have hother {word : String} (hexcludes : Cursor.excludes "NULL" word = true) :
        take? word cursor = .ok none cursor :=
      take?_of_not (Cursor.sees_eq_false hnull hexcludes)
    have htake : takeAny? ["TRUE", "FALSE"] cursor = .ok none cursor :=
      (bind_of_ok (hother (by decide))).trans ((bind_of_ok (hother (by decide))).trans rfl)
    exact (bind_of_ok htake).trans ((bind_of_ok (skip_of_sees hnull)).trans rfl)

theorem typeParams_of_not (h : cursor.sees "(" = false) : typeParams cursor = .ok [] cursor := by
  refine (bind_of_ok (sees_apply "(" cursor)).trans ?_
  refine (bind_of_ok (ask_apply _ _)).trans ?_
  rw [h]
  rfl

theorem typeParams_of_spells {first : Constant} {rest : List Constant} (hready : cursor.IsReady levels)
    (hsound : ∀ param ∈ first :: rest, param.IsSound) (hnumber : first.kind = .number)
    (hspells : cursor.Spells
      (Atom.parenOpen :: Spelling.commas ((first :: rest).map Constant.spelling) ++ [Atom.parenClose])
      after) :
    typeParams cursor = .ok (first :: rest) after := by
  obtain ⟨hopen, hspells⟩ := hspells
  obtain ⟨last, hparams, hclose, rfl⟩ := Cursor.spells_append.mp hspells
  have hsees : cursor.sees "(" = true := hopen.sees_of (by decide)
  have hseesClose : last.sees ")" = true := hclose.sees_of (by decide)
  have hkind : cursor.kind? 1 = some .number := by
    obtain ⟨tail, htail⟩ := commas_cons first.spelling (rest.map Constant.spelling)
    rw [List.map_cons, htail] at hparams
    have hfirst : (cursor.advance 1).kind? 0 = some first.glyph.kind := hparams.1.kind?
    rw [Constant.glyph, hnumber] at hfirst
    exact hfirst
  have hlist : commaSeparated constant (cursor.advance 1) = .ok (first :: rest) last :=
    commaSeparated_of_spells (fun param hmem => readsAt_constant (hsound param hmem) fun _ => True)
      (fun _ _ => trivial) (hready.advance 1) hparams trivial (Cursor.sees_eq_false hseesClose (by decide))
  refine (bind_of_ok (sees_apply "(" cursor)).trans ?_
  refine (bind_of_ok (ask_apply _ _)).trans ?_
  rw [hsees, hkind]
  refine (bind_of_ok (discard_expect_of_sees hsees)).trans ?_
  refine (bind_of_ok hlist).trans ?_
  exact (bind_of_ok (discard_expect_of_sees hseesClose)).trans rfl

end Constants

section Types

variable {element : Rule SqlType} {fields : Rule (List Field)} {type : SqlType}

theorem readsAt_any (ends : Cursor → Prop) :
    (typeWith? element fields).ReadsAt levels SqlType.any.spelling ends (some .any) := by
  rintro cursor after - hspells -
  rw [SqlType.spelling] at hspells
  obtain ⟨hany, htype, rfl⟩ := hspells
  have hsees : cursor.seesAll ["ANY", "TYPE"] = true :=
    Cursor.seesAll_two (hany.sees_of (by decide)) (htype.sees_of (by decide))
  exact (bind_of_ok (skipAll_of_seesAll hsees)).trans rfl

theorem readsAt_array (ends : Cursor → Prop)
    (h : element.ReadsAt levels type.spelling Cursor.EndsType type) :
    (typeWith? element fields).ReadsAt levels (SqlType.array type).spelling ends (some (.array type)) := by
  rintro cursor after hready hspells -
  rw [SqlType.spelling] at hspells
  obtain ⟨last, ⟨harray, hopen, helement⟩, hclose, rfl⟩ := Cursor.spells_append.mp hspells
  have hsees : cursor.sees "ARRAY" = true := harray.sees_of (by decide)
  have hangle : last.sees ">" = true := hclose.sees_of (by decide)
  have hany : cursor.sees "ANY" = false := Cursor.sees_eq_false hsees (by decide)
  have hstart : cursor.seesAll ["ARRAY", "<"] = true :=
    Cursor.seesAll_two hsees (hopen.sees_of (by decide))
  have hread : element (cursor.advance 2) = .ok type last :=
    h _ _ (hready.advance 2) helement (Cursor.endsType_of_angle hangle)
  refine (bind_of_ok (skipAll_of_not hany)).trans ?_
  refine (bind_of_ok (skipAll_of_seesAll hstart)).trans ?_
  refine (bind_of_ok hread).trans ?_
  exact (bind_of_ok (discard_expect_of_sees hangle)).trans rfl

theorem readsAt_struct_nil (ends : Cursor → Prop) :
    (typeWith? element fields).ReadsAt levels (SqlType.struct []).spelling ends (some (.struct [])) := by
  rintro cursor after - hspells -
  rw [SqlType.spelling, fieldSpellings] at hspells
  obtain ⟨hstruct, hempty, rfl⟩ := hspells
  have hsees : cursor.sees "STRUCT" = true := hstruct.sees_of (by decide)
  have hany : cursor.sees "ANY" = false := Cursor.sees_eq_false hsees (by decide)
  have harray : cursor.sees "ARRAY" = false := Cursor.sees_eq_false hsees (by decide)
  have hstart : cursor.seesAll ["STRUCT", "<>"] = true :=
    Cursor.seesAll_two hsees (hempty.sees_of (by decide))
  refine (bind_of_ok (skipAll_of_not hany)).trans ?_
  refine (bind_of_ok (skipAll_of_not harray)).trans ?_
  exact (bind_of_ok (skipAll_of_seesAll hstart)).trans rfl

theorem readsAt_struct {list : List Field} (hne : list ≠ []) (ends : Cursor → Prop)
    (h : fields.ReadsAt levels (closedFields list) (fun _ => True) list) :
    (typeWith? element fields).ReadsAt levels (SqlType.struct list).spelling ends (some (.struct list)) := by
  rintro cursor after hready hspells -
  have hangled : angled (fieldSpellings list) = Atom.symbol .lt "<" :: closedFields list := by
    rw [angled, fieldSpellings_eq_map, if_neg (by simpa using hne)]
    rfl
  rw [SqlType.spelling, hangled] at hspells
  obtain ⟨hstruct, hopen, hspells⟩ := hspells
  have hsees : cursor.sees "STRUCT" = true := hstruct.sees_of (by decide)
  have hangle : (cursor.advance 1).sees "<" = true := hopen.sees_of (by decide)
  have hany : cursor.sees "ANY" = false := Cursor.sees_eq_false hsees (by decide)
  have harray : cursor.sees "ARRAY" = false := Cursor.sees_eq_false hsees (by decide)
  have hempty : cursor.seesAll ["STRUCT", "<>"] = false :=
    Cursor.seesAll_two_of_not (Cursor.sees_eq_false hangle (by decide))
  have hread : fields (cursor.advance 2) = .ok list after :=
    h _ _ (hready.advance 2) hspells trivial
  refine (bind_of_ok (skipAll_of_not hany)).trans ?_
  refine (bind_of_ok (skipAll_of_not harray)).trans ?_
  refine (bind_of_ok (skipAll_of_not_seesAll hempty)).trans ?_
  refine (bind_of_ok (skipAll_of_seesAll (Cursor.seesAll_two hsees hangle))).trans ?_
  exact (bind_of_ok hread).trans rfl

/-- A word is the name of a type whatever word it is, if nothing after it makes it the start of another. -/
theorem readsAt_named {name : Identifier} {params : List Constant} (h : (SqlType.named name params).IsSound) :
    (typeWith? element fields).ReadsAt levels (SqlType.named name params).spelling Cursor.EndsType
      (some (.named name params)) := by
  intro cursor after hready hspells hends
  rw [SqlType.IsSound] at h
  obtain ⟨hword, hsound, hnumber⟩ := h
  rw [SqlType.spelling] at hspells
  obtain ⟨hname, hspells⟩ := hspells
  have hparams : typeParams (cursor.advance 1) = .ok params after := by
    cases params with
    | nil =>
      obtain rfl : after = cursor.advance 1 := hspells
      exact typeParams_of_not (hends.sees "(" (by decide))
    | cons first rest =>
      exact typeParams_of_spells (hready.advance 1) hsound (hnumber first rfl) hspells
  have hothers : ∀ pattern ∈ ["TYPE", "<", "<>"], (cursor.advance 1).sees pattern = false := by
    cases params with
    | nil =>
      obtain rfl : after = cursor.advance 1 := hspells
      simp only [List.forall_mem_cons]
      refine ⟨Cursor.sees_eq_false_of_kind? hends.kind? (by decide), hends.sees "<" (by decide),
        hends.sees "<>" (by decide), by simp⟩
    | cons first rest =>
      have hopen : (cursor.advance 1).sees "(" = true := hspells.1.sees_of (by decide)
      have hexcludes : ∀ pattern ∈ ["TYPE", "<", "<>"], Cursor.excludes "(" pattern = true := by decide
      exact fun pattern hmem => Cursor.sees_eq_false hopen (hexcludes pattern hmem)
  have hnone {first second : String} (hmem : second ∈ ["TYPE", "<", "<>"]) :
      skipAll [first, second] cursor = .ok false cursor :=
    skipAll_of_not_seesAll (Cursor.seesAll_two_of_not (hothers second hmem))
  have hkind : Rule.kind? cursor = .ok (some .word) cursor := by
    rw [Rule.kind?, ask_apply, hname.kind?, name.kind_of_isWord hword]
  have hbump : bump cursor = .ok (some name.raw) (cursor.advance 1) := by
    rw [bump, hname.text?]
    rfl
  have htake : takeKind? .word cursor = .ok (some name.raw) (cursor.advance 1) :=
    (bind_of_ok hkind).trans hbump
  refine (bind_of_ok (hnone (by decide))).trans ?_
  refine (bind_of_ok (hnone (by decide))).trans ?_
  refine (bind_of_ok (hnone (by decide))).trans ?_
  refine (bind_of_ok (hnone (by decide))).trans ?_
  refine (bind_of_ok htake).trans ?_
  exact (bind_of_ok hparams).trans rfl

end Types

section Fields

variable {type? : Rule (Option SqlType)}

/-- Whether a field has a name shows in its second token. -/
theorem readsAt_field {field : Field} (hname : ∀ label ∈ field.name, label.IsSegment)
    (hany : field.name = none → field.type ≠ .any) (hsound : field.type.IsSound)
    (h : type?.ReadsAt levels field.type.spelling Cursor.EndsType (some field.type)) :
    (fieldWith type?).ReadsAt levels field.spelling Cursor.EndsType field := by
  intro cursor after hready hspells hends
  obtain ⟨name, type⟩ := field
  refine (bind_of_ok (ask_apply _ cursor)).trans ?_
  cases name with
  | none =>
    have htype : require "a type" type? cursor = .ok type after :=
      h.require _ cursor after hready hspells hends
    have hsecond : cursor.kind? 1 ≠ some .word := SqlType.kind?_one_of_spells (hany rfl) hspells hends
    rw [decide_eq_false hsecond, Bool.and_false]
    refine (bind_of_ok (Rule.pure_apply none cursor)).trans ?_
    exact (bind_of_ok htype).trans rfl
  | some label =>
    obtain ⟨hlabel, hspells⟩ := hspells
    have htype : require "a type" type? (cursor.advance 1) = .ok type after :=
      h.require _ _ after (hready.advance 1) hspells hends
    have hsecond : cursor.kind? 1 = some .word := SqlType.kind?_of_spells hsound hspells
    have hkind : label.glyph.kind = .word ∨ label.glyph.kind = .quotedIdent :=
      (hname label rfl).imp label.kind_of_isWord label.kind_of_isQuotedName
    have hfirst : (decide (cursor.kind? 0 = some .word) || decide (cursor.kind? 0 = some .quotedIdent)) =
        true := by
      rw [hlabel.kind?]
      rcases hkind with hkind | hkind
      · rw [hkind]
        decide
      · rw [hkind]
        decide
    have hsegment : segment? cursor = .ok (some label) (cursor.advance 1) := by
      obtain ⟨token, htoken, htokenKind, htext⟩ := hlabel.token?
      rw [← htokenKind] at hkind
      have htext : token.text = label.raw := htext
      rcases hkind with hkind | hkind
      · simp [segment?, htoken, hkind, htext]
      · simp [segment?, htoken, hkind, htext]
    rw [hfirst, decide_eq_true hsecond]
    refine (bind_of_ok hsegment).trans ?_
    exact (bind_of_ok htype).trans rfl

/-- No field starts with what closes the fields. -/
theorem sees_angle_of_field {field : Field} (hname : ∀ label ∈ field.name, label.IsSegment)
    (hsound : field.type.IsSound) (hspells : cursor.Spells field.spelling after) :
    cursor.sees ">" = false := by
  have hkind : cursor.kind? 0 = some .word ∨ cursor.kind? 0 = some .quotedIdent := by
    obtain ⟨name, type⟩ := field
    cases name with
    | none => exact .inl (SqlType.kind?_of_spells hsound hspells)
    | some label =>
      rw [hspells.1.kind?]
      exact (hname label rfl).imp (fun h => congrArg some (label.kind_of_isWord h))
        fun h => congrArg some (label.kind_of_isQuotedName h)
  by_contra hangle
  obtain ⟨token, htoken, hfits⟩ := Cursor.token_of_seesAt (Bool.not_eq_false _ ▸ hangle)
  have hsymbol : Cursor.isWordPattern ">" = false := by decide
  rw [Cursor.fits, hsymbol, if_neg Bool.false_ne_true, Bool.and_eq_true] at hfits
  rw [Cursor.kind?_of_token? htoken, Option.some.injEq, Option.some.injEq] at hkind
  rcases hkind with hkind | hkind
  · rw [hkind] at hfits
    exact absurd hfits.1 (by decide)
  · rw [hkind] at hfits
    exact absurd hfits.1 (by decide)

theorem readsAt_fieldsWith {first : Field} {rest : List Field} (hsound : fieldsAreSound (first :: rest))
    (h : ∀ field ∈ first :: rest,
      type?.ReadsAt levels field.type.spelling Cursor.EndsType (some field.type)) :
    (fieldsWith type?).ReadsAt levels (closedFields (first :: rest)) (fun _ => True) (first :: rest) := by
  rintro cursor after hready hspells -
  obtain ⟨last, hfields, hclose, rfl⟩ := Cursor.spells_append.mp hspells
  have hangle : last.sees ">" = true := hclose.sees_of (by decide)
  have hfield (field : Field) (hmem : field ∈ first :: rest) :
      (fieldWith type?).ReadsAt levels field.spelling Cursor.EndsType field := by
    obtain ⟨hname, hany, htype⟩ := fieldsAreSound_iff.mp hsound field hmem
    exact readsAt_field hname hany htype (h field hmem)
  have hlist : commaSeparated (fieldWith type?) cursor = .ok (first :: rest) last :=
    commaSeparated_of_spells hfield (fun _ => Cursor.endsType_of_comma) hready hfields
      (Cursor.endsType_of_angle hangle) (Cursor.sees_eq_false hangle (by decide))
  have hstart : cursor.sees ">" = false := by
    obtain ⟨hname, -, htype⟩ := fieldsAreSound_iff.mp hsound first List.mem_cons_self
    obtain ⟨tail, htail⟩ := commas_cons first.spelling (rest.map Field.spelling)
    rw [List.map_cons, htail] at hfields
    obtain ⟨middle, hfirst, -⟩ := Cursor.spells_append.mp hfields
    exact sees_angle_of_field hname htype hfirst
  refine (bind_of_ok (skip_of_not hstart)).trans ?_
  refine (bind_of_ok hlist).trans ?_
  exact (bind_of_ok (discard_expect_of_sees hangle)).trans rfl

end Fields

section Levels

variable {type : SqlType} {element : Nat → Rule SqlType} {fields : Nat → Rule (List Field)}
  {left : Nat → Nat}

/-- Rules that read what is one level further in, with a number of levels left for it. -/
structure ReadInside (element : Nat → Rule SqlType) (fields : Nat → Rule (List Field))
    (left : Nat → Nat) : Prop where
  inArray : ∀ levels type, (typeWith? (element levels) (fields levels)).ReadsAt (left levels)
      type.spelling Cursor.EndsType (some type) →
    (element (levels + 1)).ReadsAt (left (levels + 1)) type.spelling Cursor.EndsType type
  inStruct : ∀ levels first rest, fieldsAreSound (first :: rest) →
    (∀ field ∈ first :: rest, (typeWith? (element levels) (fields levels)).ReadsAt (left levels)
      field.type.spelling Cursor.EndsType (some field.type)) →
    (fields (levels + 1)).ReadsAt (left (levels + 1)) (closedFields (first :: rest)) (fun _ => True)
      (first :: rest)

theorem readInside_typeAt? : ReadInside elementAt nestedFieldsAt id where
  inArray levels type h := by
    rw [elementAt]
    exact (h.require "a type").descend fun _ => Cursor.EndsType.deeper
  inStruct levels first rest hsound h := by
    rw [nestedFieldsAt]
    exact (readsAt_fieldsWith hsound h).descend fun _ _ => trivial

mutual

/-- A sound type is read by the rule for as many levels as it has. -/
theorem ReadInside.readsAt (hinside : ReadInside element fields left) : (type : SqlType) → type.IsSound →
    (levels : Nat) → type.nesting ≤ levels → (typeWith? (element levels) (fields levels)).ReadsAt
      (left levels) type.spelling Cursor.EndsType (some type)
  | .named name params, h, levels, _ => readsAt_named h
  | .array inner, h, levels, hlevels => by
    rw [SqlType.IsSound] at h
    rw [SqlType.nesting] at hlevels
    obtain ⟨levels, rfl⟩ := Nat.exists_eq_add_one_of_ne_zero (Nat.ne_of_gt (Nat.zero_lt_of_lt hlevels))
    have hinner := ReadInside.readsAt hinside inner h levels (Nat.le_of_succ_le_succ hlevels)
    exact readsAt_array _ (hinside.inArray levels inner hinner)
  | .struct [], _, levels, _ => readsAt_struct_nil _
  | .struct (first :: rest), h, levels, hlevels => by
    rw [SqlType.IsSound] at h
    rw [SqlType.nesting, List.isEmpty_cons, if_neg Bool.false_ne_true] at hlevels
    obtain ⟨levels, rfl⟩ := Nat.exists_eq_add_one_of_ne_zero (Nat.ne_of_gt (Nat.zero_lt_of_lt hlevels))
    have hfields := ReadInside.readsAt_fields hinside (first :: rest) h levels (Nat.le_of_succ_le_succ hlevels)
    exact readsAt_struct (List.cons_ne_nil first rest) _ (hinside.inStruct levels first rest h hfields)
  | .any, _, _, _ => readsAt_any _

theorem ReadInside.readsAt_fields (hinside : ReadInside element fields left) : (list : List Field) →
    fieldsAreSound list → (levels : Nat) → fieldsNesting list ≤ levels → ∀ field ∈ list,
      (typeWith? (element levels) (fields levels)).ReadsAt (left levels) field.type.spelling
        Cursor.EndsType (some field.type)
  | [], _, _, _ => by simp
  | ⟨name, type⟩ :: list, h, levels, hlevels => by
    rw [fieldsAreSound] at h
    rw [fieldsNesting, Nat.max_le] at hlevels
    rw [List.forall_mem_cons]
    exact ⟨ReadInside.readsAt hinside type h.2.2.1 levels hlevels.1,
      ReadInside.readsAt_fields hinside list h.2.2.2 levels hlevels.2⟩

end

theorem nestedAt_type? (levels : Nat) : (nestedAt levels).type? = typeAt? levels := by
  cases levels <;> rfl

/-- A sound type that nests no deeper than types may is read from its text, and nothing is left over. -/
theorem exists_type_of_isSound (h : type.IsSound) (hnesting : type.nesting ≤ Cursor.maxDepth) :
    ∃ start last, Cursor.ofSource type.text = .ok start ∧
      atDepth Nested.type start = .ok type last ∧ last.atEnd = true := by
  have hphrase := (SqlType.isTypePhrase type h).toIsPhrase
  have hexpands : Expands type.spelling type.text.toList := by
    rw [SqlType.toList_text]
    exact Spelling.expands_plain _
  obtain ⟨start, after, hstart, hdepth, hready, hspells, hend⟩ := Cursor.exists_spells hphrase hexpands
  have htoken : after.token? 0 = none := by
    rw [Cursor.token?, Array.getElem?_eq_none_iff]
    omega
  have hread : typeAt? Cursor.maxDepth start.forgetful = .ok (some type) after :=
    readInside_typeAt?.readsAt type h Cursor.maxDepth hnesting _ _ hready hspells
      (Cursor.endsType_of_token? htoken)
  obtain ⟨last, hlast, rfl⟩ := (isQuiet_typeAt? Cursor.maxDepth start).exists_of_forgetful hread
  refine ⟨start, last, hstart, ?_, ?_⟩
  · have hrule : (nestedAt (Cursor.maxDepth - start.depth)).type? start = .ok (some type) last := by
      rw [hdepth, nestedAt_type?]
      exact hlast
    exact require_of_ok hrule "a type"
  · exact decide_eq_true (Nat.le_of_eq hend)

mutual

/-- The rules for what is inside a type, without a bound on how deep types may nest. -/
def looseElement : Nat → Rule SqlType
  | 0 => tooDeep
  | steps + 1 => require "a type" (typeWith? (looseElement steps) (looseFields steps))

def looseFields : Nat → Rule (List Field)
  | 0 => tooDeep
  | steps + 1 => fieldsWith (typeWith? (looseElement steps) (looseFields steps))

end

theorem readInside_loose : ReadInside looseElement looseFields fun _ => 0 where
  inArray steps type h := by
    rw [looseElement]
    exact h.require "a type"
  inStruct steps first rest hsound h := by
    rw [looseFields]
    exact readsAt_fieldsWith hsound h

end Levels

end Grammar

section Texts

variable {source : String} {start cursor after : Cursor} {type : SqlType}

/-- Two types with one text are one type: the rules without a bound read either of them from the text. -/
theorem SqlType.eq_of_text {other : SqlType} (h : type.IsSound) (hother : other.IsSound)
    (htext : type.text = other.text) : type = other := by
  let steps := max type.nesting other.nesting
  have hread {read : SqlType} (hsound : read.IsSound) (hsame : read.text = type.text)
      (hsteps : read.nesting ≤ steps) :
      ∃ start after, Cursor.ofSource type.text = .ok start ∧
        Grammar.typeWith? (Grammar.looseElement steps) (Grammar.looseFields steps) start.forgetful =
          .ok (some read) after := by
    have hexpands : Expands read.spelling type.text.toList := by
      rw [← hsame, SqlType.toList_text]
      exact Spelling.expands_plain _
    obtain ⟨start, after, hstart, hdepth, hready, hspells, hend⟩ :=
      Cursor.exists_spells (SqlType.isTypePhrase read hsound).toIsPhrase hexpands
    have htoken : after.token? 0 = none := by
      rw [Cursor.token?, Array.getElem?_eq_none_iff]
      omega
    have hloose : start.forgetful.IsReady 0 := ⟨hready.clean, (Nat.le_add_right _ _).trans hready.depth_le⟩
    exact ⟨start, after, hstart, Grammar.readInside_loose.readsAt read hsound steps hsteps _ _ hloose
      hspells (Cursor.endsType_of_token? htoken)⟩
  obtain ⟨start, after, hstart, hrun⟩ := hread h rfl (Nat.le_max_left _ _)
  obtain ⟨start', after', hstart', hrun'⟩ := hread hother htext.symm (Nat.le_max_right _ _)
  rw [hstart] at hstart'
  cases hstart'
  rw [hrun] at hrun'
  cases hrun'
  rfl

/-- A cursor over the tokens of a source, wherever it stands and whatever it has kept so far. -/
theorem Cursor.isClean_of_tokens (hstart : Cursor.ofSource source = .ok start)
    (htokens : cursor.tokens = start.tokens) (hcomments : cursor.comments = start.comments) :
    cursor.forgetful.IsClean := by
  rw [Cursor.ofSource] at hstart
  cases hstream : TokenStream.ofSource source with
  | error failure =>
    rw [hstream] at hstart
    cases hstart
  | ok stream =>
    rw [hstream] at hstart
    cases hstart
    have hclean := Grammar.isClean_ofStream hstream
    refine ⟨rfl, rfl, ?_, ?_⟩
    · intro token hmem
      exact hclean.tokens token (htokens ▸ hmem)
    · intro comment hmem
      exact hclean.comments comment (hcomments ▸ hmem)

/-- A type that is read anywhere in a source has a text that is read as the type again, to the end. -/
theorem SqlType.reads_back (hstart : Cursor.ofSource source = .ok start)
    (htokens : cursor.tokens = start.tokens) (hcomments : cursor.comments = start.comments)
    (hread : Grammar.atDepth Grammar.Nested.type cursor = .ok type after) :
    ∃ fresh last, Cursor.ofSource type.text = .ok fresh ∧
      Grammar.atDepth Grammar.Nested.type fresh = .ok type last ∧ last.atEnd = true := by
  have hclean := Cursor.isClean_of_tokens hstart htokens hcomments
  let levels := Cursor.maxDepth - cursor.depth
  have hquiet : (Grammar.nestedAt levels).type.IsQuiet := by
    rw [Grammar.Nested.type, Grammar.nestedAt_type?]
    exact (Grammar.isQuiet_typeAt? levels).require "a type"
  have hrun : (Grammar.nestedAt levels).type cursor.forgetful = .ok type after.forgetful :=
    (hquiet cursor).forgetful_of_ok hread
  rw [Grammar.Nested.type, Grammar.nestedAt_type?] at hrun
  have hsound : type.IsSound :=
    ((Grammar.gives_typeAt? levels).require "a type" _ hclean _ _ hrun).2
  have hnesting : type.nesting ≤ levels :=
    ((Grammar.gives_nesting_typeAt? levels).require "a type" _ hclean _ _ hrun).2
  exact Grammar.exists_type_of_isSound hsound (hnesting.trans (Nat.sub_le _ _))

/-- Fields with and without names, one of them quoted and one a reserved word, ahead of something else. -/
def SqlType.fieldSource : String :=
  "STRUCT<a ARRAY<NUMERIC(10, 2)>, \x60my key\x60 STRUCT<>, select ANY TYPE, DATE>)"

theorem SqlType.reads_back_fieldSource :
    ∃ start type after, Cursor.ofSource SqlType.fieldSource = .ok start ∧
      Grammar.atDepth Grammar.Nested.type start.forgetful = .ok type after ∧
      ∃ fresh last, Cursor.ofSource type.text = .ok fresh ∧
        Grammar.atDepth Grammar.Nested.type fresh = .ok type last ∧ last.atEnd = true := by
  have hread : (Grammar.runAfreshOn (Grammar.atDepth Grammar.Nested.type) SqlType.fieldSource).isOk := by
    decide +kernel
  obtain ⟨type, htype⟩ := exists_of_isOk hread
  obtain ⟨stream, after, hstream, hrun⟩ := Grammar.exists_run_of_runAfreshOn htype
  let start := Cursor.ofStream SqlType.fieldSource.utf8ByteSize stream
  have hstart : Cursor.ofSource SqlType.fieldSource = .ok start := by
    rw [Cursor.ofSource, hstream]
    rfl
  have hback := @SqlType.reads_back SqlType.fieldSource start start.forgetful after type hstart rfl rfl hrun
  exact ⟨start, type, after, hstart, hrun, hback⟩

end Texts

end SqlLayout
