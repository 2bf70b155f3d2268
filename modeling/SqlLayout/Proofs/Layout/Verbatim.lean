import SqlLayout.Proofs.Syntax.Verbatim

/-!
# Verbatim Texts of Spellings

The texts that are kept as they are stand in a spelling piece by piece. Keywords, punctuation and blanks
add none.
-/

namespace SqlLayout

open Token Spelling

section Spellings

def Atom.verbatims : Atom → List String
  | glyph token => token.verbatims
  | _ => []

/-- The verbatim texts of a spelling. -/
def Spelling.verbatims (spelling : Spelling) : List String :=
  spelling.flatMap Atom.verbatims

section Options

variable {α : Type} {texts : α → List String}

@[simp] theorem verbatims?_none : verbatims? texts none = [] :=
  rfl

@[simp] theorem verbatims?_some (value : α) : verbatims? texts (some value) = texts value :=
  rfl

@[simp] theorem verbatims?_of_nil (o : Option α) : verbatims? (fun _ => []) o = [] := by
  cases o <;> rfl

end Options

namespace Spelling

variable {α : Type}

@[simp] theorem verbatims_nil : verbatims [] = [] :=
  rfl

@[simp] theorem verbatims_cons (atom : Atom) (spelling : Spelling) :
    verbatims (atom :: spelling) = atom.verbatims ++ spelling.verbatims :=
  List.flatMap_cons

@[simp] theorem verbatims_append (spelling other : Spelling) :
    verbatims (spelling ++ other) = spelling.verbatims ++ other.verbatims :=
  List.flatMap_append

@[simp] theorem verbatims_gap : Atom.gap.verbatims = [] :=
  rfl

@[simp] theorem verbatims_soft (side : Side) : (Atom.soft side).verbatims = [] :=
  rfl

@[simp] theorem verbatims_word (text : String) : (Atom.word text).verbatims = [] :=
  rfl

@[simp] theorem verbatims_symbols : Atom.comma.verbatims = [] ∧ Atom.dot.verbatims = [] ∧
    Atom.parenOpen.verbatims = [] ∧ Atom.parenClose.verbatims = [] ∧
    Atom.bracketOpen.verbatims = [] ∧ Atom.bracketClose.verbatims = [] ∧
    (Atom.symbol .lt "<").verbatims = [] ∧ (Atom.symbol .gt ">").verbatims = [] ∧
    (Atom.symbol .star "*").verbatims = [] ∧ (Atom.symbol .eq "=").verbatims = [] ∧
    (Atom.symbol .semicolon ";").verbatims = [] :=
  ⟨rfl, rfl, rfl, rfl, rfl, rfl, rfl, rfl, rfl, rfl, rfl⟩

theorem verbatims_intercalate {separator : Spelling} (h : separator.verbatims = [])
    (spellings : List Spelling) :
    verbatims (List.intercalate separator spellings) = spellings.flatMap verbatims := by
  induction spellings with
  | nil => rfl
  | cons spelling spellings ih =>
    cases spellings with
    | nil => simp
    | cons next spellings => simp [ih, h]

@[simp] theorem verbatims_commas (spellings : List Spelling) :
    verbatims (commas spellings) = spellings.flatMap verbatims :=
  verbatims_intercalate rfl spellings

@[simp] theorem verbatims_spaced (spellings : List Spelling) :
    verbatims (spaced spellings) = spellings.flatMap verbatims :=
  verbatims_intercalate rfl spellings

@[simp] theorem verbatims_words (texts : List String) : verbatims (words texts) = [] := by
  induction texts with
  | nil => rfl
  | cons text texts ih =>
    cases texts with
    | nil => rfl
    | cons next texts => simpa [words] using ih

@[simp] theorem verbatims_enclosed (spelling : Spelling) :
    verbatims (enclosed spelling) = spelling.verbatims := by
  simp [enclosed]

@[simp] theorem verbatims_modifier (o : Option α) (f : α → Spelling) :
    verbatims (modifier (o.map f)) = verbatims? (fun value => (f value).verbatims) o := by
  cases o <;> rfl

@[simp] theorem verbatims_call (head : Spelling) (spellings : List Spelling) :
    verbatims (callSpelling head spellings) = head.verbatims ++ spellings.flatMap verbatims := by
  simp [callSpelling]

@[simp] theorem verbatims_clause (keyword : List String) (body : Spelling) :
    verbatims (clauseSpelling keyword body) = body.verbatims := by
  simp [clauseSpelling]

@[simp] theorem verbatims_listClauses (keyword : List String) (spellings : List Spelling) :
    (listClauses keyword spellings).flatMap verbatims = spellings.flatMap verbatims := by
  cases spellings <;> simp [listClauses]

@[simp] theorem verbatims_distinct (isDistinct : Bool) (spelling : Spelling) :
    verbatims (distinctSpelling isDistinct spelling) = spelling.verbatims := by
  cases isDistinct <;> simp [distinctSpelling]

@[simp] theorem verbatims_modifyFirst (isDistinct : Bool) (spellings : List Spelling) :
    (modifyFirst (distinctSpelling isDistinct) spellings).flatMap verbatims =
      spellings.flatMap verbatims := by
  cases spellings <;> simp [modifyFirst]

theorem verbatims_modifyLast {tail : Spelling} (h : tail.verbatims = []) (spellings : List Spelling) :
    (modifyLast (· ++ tail) spellings).flatMap verbatims = spellings.flatMap verbatims := by
  induction spellings with
  | nil => rfl
  | cons spelling spellings ih =>
    cases spellings with
    | nil => simp [modifyLast, h]
    | cons next spellings => rw [modifyLast, List.flatMap_cons, ih, ← List.flatMap_cons]

@[simp] theorem verbatims_aggregate (head : Spelling) (spellings : List Spelling) :
    verbatims (aggregateSpelling head spellings) = head.verbatims ++ spellings.flatMap verbatims := by
  simp [aggregateSpelling]

@[simp] theorem verbatims_suffix (keyword : String) (spellings : List Spelling) :
    verbatims (suffixSpelling keyword spellings) = spellings.flatMap verbatims := by
  cases spellings <;> simp [suffixSpelling]

@[simp] theorem verbatims_window (spellings : List Spelling) :
    verbatims (windowSpelling spellings) = spellings.flatMap verbatims := by
  cases spellings <;> simp [windowSpelling]

@[simp] theorem verbatims_subscript (kind : Option IndexKind) (position : Spelling) :
    verbatims (subscriptSpelling kind position) = position.verbatims := by
  cases kind <;> simp [subscriptSpelling, IndexKind.spelling]

@[simp] theorem verbatims_angled (spellings : List Spelling) :
    verbatims (angled spellings) = spellings.flatMap verbatims := by
  cases spellings with
  | nil => rfl
  | cons spelling spellings => simp [angled]

@[simp] theorem verbatims_combine (op : SetOperator) (quantifier : Option SetQuantifier) :
    verbatims (combineSpelling op quantifier) = [] := by
  cases quantifier <;> rfl

@[simp] theorem verbatims_selectHead (distinct : Bool) (shape : Option SelectAs) :
    verbatims (selectHeadSpelling distinct shape) = [] := by
  rcases shape with _ | shape
  · cases distinct <;> rfl
  · cases distinct <;> cases shape <;> rfl

theorem verbatims_join (left : Spelling) (kind : JoinKind) (right : Spelling) {condition : Spelling}
    (h : kind = .comma → condition = []) :
    verbatims (joinSpelling left kind right condition) =
      left.verbatims ++ right.verbatims ++ condition.verbatims := by
  have hkind : kind.spelling.verbatims = [] := by cases kind <;> rfl
  unfold joinSpelling
  split
  · rename_i hcomma
    simp [h hcomma]
  · simp [hkind]

@[simp] theorem flatMap_verbatims_toList (o : Option α) (f : α → Spelling) :
    (o.map f).toList.flatMap verbatims = verbatims? (fun value => (f value).verbatims) o := by
  cases o <;> simp [verbatims?]

end Spelling

end Spellings

section Words

@[simp] theorem Identifier.verbatims_spelling (name : Identifier) :
    name.spelling.verbatims = name.verbatims :=
  List.append_nil _

@[simp] theorem QualifiedName.verbatims_spelling (name : QualifiedName) :
    name.spelling.verbatims = name.verbatims := by
  rw [spelling, Spelling.verbatims_intercalate rfl, List.flatMap_map]
  simp [QualifiedName.verbatims]

@[simp] theorem Constant.verbatims_spelling (constant : Constant) :
    constant.spelling.verbatims = constant.verbatims :=
  List.append_nil _

@[simp] theorem BinaryOp.verbatims_spelling (op : BinaryOp) : op.spelling.verbatims = [] := by
  cases op <;> rfl

@[simp] theorem UnaryOp.verbatims_spelling (op : UnaryOp) : op.spelling.verbatims = [] := by
  cases op <;> rfl

@[simp] theorem NullHandling.verbatims_spelling (nulls : NullHandling) :
    nulls.spelling.verbatims = [] := by
  cases nulls <;> rfl

@[simp] theorem StringFunction.verbatims_spelling (function : StringFunction) :
    function.spelling.verbatims = [] :=
  rfl

@[simp] theorem Direction.verbatims_spelling (direction : Direction) :
    direction.spelling.verbatims = [] :=
  rfl

@[simp] theorem NullsOrder.verbatims_spelling (nulls : NullsOrder) : nulls.spelling.verbatims = [] := by
  cases nulls <;> rfl

@[simp] theorem FrameBound.verbatims_spelling (bound : FrameBound) :
    bound.spelling.verbatims = bound.verbatims := by
  cases bound <;> simp [spelling, verbatims]

@[simp] theorem Frame.verbatims_spelling (frame : Frame) :
    frame.spelling.verbatims = frame.verbatims := by
  obtain ⟨unit, bound | ⟨start, stop⟩⟩ := frame <;> simp [spelling, verbatims]

@[simp] theorem Spelling.verbatims_alias (aliasName : Option Identifier) :
    (aliasSpelling aliasName).verbatims = verbatims? Identifier.verbatims aliasName := by
  cases aliasName <;> simp [aliasSpelling, verbatims?]

mutual

@[simp] theorem SqlType.verbatims_spelling : (type : SqlType) → type.spelling.verbatims = type.verbatims
  | .named name params => by
    rw [SqlType.spelling, SqlType.verbatims, Spelling.verbatims_append, Identifier.verbatims_spelling]
    cases params <;> simp [List.flatMap_map]
  | .array element => by
    rw [SqlType.spelling, SqlType.verbatims]
    simp [SqlType.verbatims_spelling element]
  | .struct fields => by
    rw [SqlType.spelling, SqlType.verbatims, Spelling.verbatims_cons, Spelling.verbatims_angled,
      flatMap_verbatims_fields fields]
    simp
  | .any => by
    rw [SqlType.spelling, SqlType.verbatims, Spelling.verbatims_words]

@[simp] theorem flatMap_verbatims_fields : (fields : List Field) →
    (fieldSpellings fields).flatMap Spelling.verbatims = fieldsVerbatims fields
  | [] => rfl
  | ⟨none, type⟩ :: fields => by
    rw [fieldSpellings, fieldsVerbatims, List.flatMap_cons, flatMap_verbatims_fields fields,
      SqlType.verbatims_spelling type]
    rfl
  | ⟨some name, type⟩ :: fields => by
    rw [fieldSpellings, fieldsVerbatims, List.flatMap_cons, flatMap_verbatims_fields fields,
      Spelling.verbatims_append, Spelling.verbatims_cons, SqlType.verbatims_spelling type]
    simp [verbatims?]

end

@[simp] theorem Declaration.verbatims_spelling (declaration : Declaration) :
    declaration.spelling.verbatims = declaration.verbatims := by
  simp [spelling, verbatims]

end Words

end SqlLayout
