import SqlLayout.Proofs.Layout.Query

/-!
# Layouts of Statements and Scripts

The documents of a script stand at the first column, so its text is theirs with a newline between each
two of them: comments as they are, expansions of the statements, and empty lines.
-/

namespace SqlLayout

open Spelling Form

section Spellings

def createWords (orReplace : Bool) (temporary : Option TempKeyword) (object : String) : List String :=
  "CREATE" :: (if orReplace then ["OR", "REPLACE"] else [])
    ++ (temporary.map TempKeyword.text).toList ++ [object]

/-- The words before the name of an object, and the name. -/
def objectSpelling (head : List String) (ifNotExists : Bool) (name : QualifiedName) : Spelling :=
  words (head ++ if ifNotExists then ["IF", "NOT", "EXISTS"] else []) ++ .gap :: name.spelling

def OptionItem.spelling (item : OptionItem) : Spelling :=
  item.name.spelling ++ [.gap, Atom.symbol .eq "=", .gap] ++ item.value.spelling

def optionSpellings (options : List OptionItem) : List Spelling :=
  if options.isEmpty then []
  else [callSpelling [Atom.word "OPTIONS"] (options.map OptionItem.spelling)]

def FunctionBody.spellings : FunctionBody → List Spelling
  | .sql body => [clauseSpelling ["AS"] body.spelling]
  | .foreign language code options =>
    [clauseSpelling ["LANGUAGE"] language.spelling, clauseSpelling ["AS"] code.spelling]
      ++ optionSpellings options

def FunctionDef.spelling (function : FunctionDef) : Spelling :=
  let head := objectSpelling (createWords function.orReplace function.temporary "FUNCTION") false
    function.name
  spaced (callSpelling head (function.params.map Declaration.spelling)
    :: (function.returns.map fun type => clauseSpelling ["RETURNS"] type.spelling).toList
    ++ function.body.spellings)

def TableDef.spelling (table : TableDef) : Spelling :=
  let head :=
    objectSpelling (createWords table.orReplace table.temporary "TABLE") table.ifNotExists table.name
  spaced ((if table.columns.isEmpty then head
      else callSpelling (head ++ [Atom.gap]) (table.columns.map Declaration.spelling))
    :: optionSpellings table.options
    ++ (table.query.map fun query => clauseSpelling ["AS"] query.spelling).toList)

def ViewDef.spelling (view : ViewDef) : Spelling :=
  spaced (objectSpelling (createWords view.orReplace none "VIEW") view.ifNotExists view.name
    :: optionSpellings view.options ++ [clauseSpelling ["AS"] view.query.spelling])

def rowSpelling (row : List Expr) : Spelling :=
  callSpelling [] (exprSpellings row)

def InsertSource.spelling : InsertSource → Spelling
  | .query body => body.spelling
  | .values rows => clauseSpelling ["VALUES"] (commas (rows.map rowSpelling))

/-- The columns of an insertion after its table. -/
def columnSpelling (columns : List Identifier) : Spelling :=
  if columns.isEmpty then [] else .gap :: callSpelling [] (columns.map Identifier.spelling)

def Insertion.spelling (insertion : Insertion) : Spelling :=
  clauseSpelling ["INSERT", "INTO"] insertion.table.spelling ++ columnSpelling insertion.columns
    ++ .gap :: insertion.source.spelling

def Action.spelling : Action → Spelling
  | .query body => body.spelling
  | .createFunction definition => definition.spelling
  | .createTable definition => definition.spelling
  | .createView definition => definition.spelling
  | .insert insertion => insertion.spelling

end Spellings

section Parts

theorem createHead_toList (orReplace : Bool) (temporary : Option TempKeyword) (object : String) :
    (createHead orReplace temporary object).toList =
      (words (createWords orReplace temporary object)).plain := by
  cases orReplace <;> rcases temporary with _ | keyword <;> try cases keyword
  all_goals simp [createHead, createWords, words, TempKeyword.text]

theorem words_append {first second : List String} (h : first ≠ []) (h' : second ≠ []) :
    words (first ++ second) = words first ++ .gap :: words second := by
  induction first with
  | nil => exact absurd rfl h
  | cons text texts ih =>
    cases texts with
    | nil =>
      cases second with
      | nil => exact absurd rfl h'
      | cons next second => rfl
    | cons next texts =>
      have hrest := ih (by simp)
      simp only [words, List.map_cons, List.cons_append, List.intersperse_cons_cons] at hrest ⊢
      rw [hrest]

theorem objectHead_toList {head : String} {headWords : List String} (hne : headWords ≠ [])
    (h : head.toList = (words headWords).plain) (ifNotExists : Bool) (name : QualifiedName) :
    (objectHead head ifNotExists name).toList =
      (objectSpelling headWords ifNotExists name).plain := by
  have hexists : " IF NOT EXISTS".toList = ' ' :: (words ["IF", "NOT", "EXISTS"]).plain := by decide
  cases ifNotExists with
  | false => simp [objectHead, objectSpelling, h, QualifiedName.toList_dotted]
  | true =>
    simp [objectHead, objectSpelling, h, QualifiedName.toList_dotted, words_append hne, hexists]

theorem createWords_ne_nil (orReplace : Bool) (temporary : Option TempKeyword) (object : String) :
    createWords orReplace temporary object ≠ [] := by
  simp [createWords]

theorem prints_declarations (declarations : List Declaration) :
    List.Forall₂ Form.Prints (declarationForms declarations)
      (declarations.map Declaration.spelling) := by
  induction declarations with
  | nil => exact .nil
  | cons declaration declarations ih => exact .cons (prints_text declaration.toList_text) ih

theorem OptionItem.prints (item : OptionItem) : item.form.Prints item.spelling := by
  have hhead : (item.name.raw ++ " = ").toList =
      plain (item.name.spelling ++ [.gap, Atom.symbol .eq "=", .gap]) := by
    simp [Identifier.toList_raw]
  exact prints_pairLine (prints_text hhead) item.value.prints.toForm

theorem prints_map {α : Type} {form : α → Form} {spelling : α → Spelling}
    (h : ∀ a, (form a).Prints (spelling a)) (items : List α) :
    List.Forall₂ Form.Prints (items.map form) (items.map spelling) := by
  induction items with
  | nil => exact .nil
  | cons item items ih => exact .cons (h item) ih

theorem prints_options (options : List OptionItem) :
    List.Forall₂ Form.Prints (optionForms options) (optionSpellings options) := by
  unfold optionForms optionSpellings
  split
  · exact .nil
  · exact .cons (prints_named _ (prints_map OptionItem.prints options) (by decide)) .nil

theorem FunctionBody.prints (body : FunctionBody) :
    List.Forall₂ Form.Prints body.forms body.spellings := by
  cases body with
  | sql body => exact .cons (prints_clause body.prints.toForm (by decide)) .nil
  | «foreign» language code options =>
    have hlanguage : ("LANGUAGE " ++ language.raw).toList =
        plain (clauseSpelling ["LANGUAGE"] language.spelling) := by
      simp [clauseSpelling, words, Identifier.toList_raw]
    have hcode : ("AS " ++ code.text).toList = plain (clauseSpelling ["AS"] code.spelling) := by
      simp [clauseSpelling, words, Constant.toList_text]
    exact .cons (prints_text hlanguage) (.cons (prints_text hcode) (prints_options options))

theorem prints_types {head : String} (keyword : List String) (type : Option SqlType)
    (h : head.toList = (words keyword ++ [Atom.gap]).plain) :
    List.Forall₂ Form.Prints
      (match type with
        | some type => [Form.text (head ++ type.text)]
        | none => [])
      (type.map fun type => clauseSpelling keyword type.spelling).toList := by
  cases type with
  | none => exact .nil
  | some type =>
    exact .cons (prints_text (by simp [clauseSpelling, h, SqlType.toList_text])) .nil

end Parts

section Actions

theorem FunctionDef.prints (function : FunctionDef) : function.form.Prints function.spelling := by
  have hhead := objectHead_toList (createWords_ne_nil _ _ _)
    (createHead_toList function.orReplace function.temporary "FUNCTION") false function.name
  have hcall := prints_named _ (prints_declarations function.params) (show (_ ++ "(").toList = _ by
    rw [String.toList_append, hhead, plain_append]
    rfl)
  exact prints_phrases (forall₂_append (.cons hcall (prints_types ["RETURNS"] _ (by decide)))
    function.body.prints)

theorem prints_query? {head : String} (keyword : List String) (query : Option Query)
    (h : head.toList = (words keyword).plain) :
    List.Forall₂ Form.Prints
      (match query with
        | some query => [Form.clause head query.form]
        | none => [])
      (query.map fun query => clauseSpelling keyword query.spelling).toList := by
  cases query with
  | none => exact .nil
  | some query => exact .cons (prints_clause query.prints h) .nil

theorem TableDef.prints (table : TableDef) : table.form.Prints table.spelling := by
  have hhead := objectHead_toList (createWords_ne_nil _ _ _)
    (createHead_toList table.orReplace table.temporary "TABLE") table.ifNotExists table.name
  refine prints_phrases (forall₂_append (.cons ?_ (prints_options table.options))
    (prints_query? ["AS"] table.query (by decide)))
  split
  · exact prints_text hhead
  · exact prints_named _ (prints_declarations table.columns) (by
      rw [String.toList_append, hhead, List.append_assoc, plain_append]
      rfl)

theorem ViewDef.prints (view : ViewDef) : view.form.Prints view.spelling := by
  have hhead := objectHead_toList (createWords_ne_nil _ _ _)
    (createHead_toList view.orReplace none "VIEW") view.ifNotExists view.name
  exact prints_phrases (forall₂_append (.cons (prints_text hhead) (prints_options view.options))
    (.cons (prints_clause view.query.prints (by decide)) .nil))

theorem prints_rows (rows : List (List Expr)) :
    List.Forall₂ Form.Prints (rows.map rowForm) (rows.map rowSpelling) :=
  prints_map (fun row => prints_named [] (prints_exprs row) (by decide)) rows

theorem columns_toList (columns : List Identifier) :
    (if columns.isEmpty then ""
      else " (" ++ ", ".intercalate (columns.map Identifier.raw) ++ ")").toList =
      (columnSpelling columns).plain := by
  have hnames : (", ".intercalate (columns.map Identifier.raw)).toList =
      (Spelling.commas (columns.map Identifier.spelling)).plain := by
    apply intercalate_commas
    simp [Identifier.toList_raw]
  unfold columnSpelling
  split
  · decide
  · rw [String.toList_append, String.toList_append, hnames]
    simp [callSpelling, Atom.parenOpen, Atom.parenClose]

theorem insertionHead_toList (table : QualifiedName) (columns : List Identifier) :
    ("INSERT INTO " ++ table.dotted ++ if columns.isEmpty then ""
      else " (" ++ ", ".intercalate (columns.map Identifier.raw) ++ ")").toList =
      plain (clauseSpelling ["INSERT", "INTO"] table.spelling ++ columnSpelling columns) := by
  rw [String.toList_append, String.toList_append, columns_toList]
  simp [clauseSpelling, words, QualifiedName.toList_dotted]

/-- A head and a body, on one line or on two. -/
theorem prints_below {head : String} {headSpelling spelling : Spelling} {compact full : Doc}
    (hhead : head.toList = headSpelling.plain)
    (hcompact : compact.Spells spelling) (hfull : full.Prints spelling) :
    (Form.choose (.line [.text (head ++ " "), compact]) (.stack [.text head, full])).Prints
      (headSpelling ++ .gap :: spelling) := by
  apply prints_choose
  · have htext : (head ++ " ").toList = plain (headSpelling ++ [Atom.gap]) := by simp [hhead]
    exact (spells_pair (.text htext) hcompact).of_eq (by simp)
  · exact ((Doc.prints_plain hhead).stack (.cons hfull.trails .nil)).of_eq (by simp)

theorem Insertion.prints (insertion : Insertion) : insertion.form.Prints insertion.spelling := by
  obtain ⟨table, columns, source⟩ := insertion
  have hhead := insertionHead_toList table columns
  cases source with
  | query body => exact prints_below hhead body.prints.compact body.prints.full
  | values rows =>
    have hrows := prints_commas (prints_rows rows)
    have hclause := prints_clause hrows (show "VALUES".toList = plain (words ["VALUES"]) by decide)
    apply prints_choose
    · have hvalues : " VALUES ".toList = plain (.gap :: words ["VALUES"] ++ [Atom.gap]) := by decide
      have htext := congrArg₂ (· ++ ·) hhead hvalues
      rw [← String.toList_append, ← plain_append] at htext
      have hline := spells_pair (.text htext) hrows.compact
      exact hline.of_eq (by simp [Insertion.spelling, InsertSource.spelling, clauseSpelling])
    · have hstack := (Doc.prints_plain hhead).stack (.cons hclause.full.trails .nil)
      exact hstack.of_eq (by simp [Insertion.spelling, InsertSource.spelling, clauseSpelling])

theorem Action.prints (action : Action) : action.form.Prints action.spelling := by
  cases action with
  | query body => exact body.prints
  | createFunction definition => exact definition.prints
  | createTable definition => exact definition.prints
  | createView definition => exact definition.prints
  | insert insertion => exact insertion.prints

end Actions

end SqlLayout
