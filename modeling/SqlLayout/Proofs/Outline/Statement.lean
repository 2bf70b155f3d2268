import SqlLayout.Proofs.Outline.Query
import SqlLayout.Proofs.Outline.Quoted
import SqlLayout.Proofs.Outline.Readable
import SqlLayout.Proofs.Sound.Statement

/-!
# Scripts Known from Their Outlines

Comments and code are quoted in their labels, so they are known from them whatever they hold. With that,
every node that is clear is known from its outline, and a script is known from the text that shows it.
-/

namespace SqlLayout

open Outline

section Items

theorem haveWords_options (options : List OptionItem) : HaveWords ["Option"] (optionOutlines options) :=
  haveWords_map fun item _ => firstWord_after_mem "Option" (by decide) (by decide) item.name.raw []

theorem eq_of_options {options others : List OptionItem}
    (h : ∀ node ∈ Node.optionValues options, node.IsKnown)
    (hclear : ∀ node ∈ Node.optionValues others, node.IsClear)
    (heq : optionOutlines options = optionOutlines others) : options = others := by
  refine eq_of_nodes (fun item other hknown hclear hsame => ?_) h hclear heq
  obtain ⟨hlabel, hvalue⟩ := above_inj hsame
  have hvalues := hknown other.value hclear hvalue
  have hname : item.name = other.name := Identifier.raw_inj (by simpa using hlabel)
  cases item
  cases other
  simp_all

theorem haveWords_declarations {label : String} (hlabel : firstWord label = label)
    (declarations : List Declaration) : HaveWords [label] (declarationOutlines label declarations) :=
  haveWords_map fun declaration _ => firstWord_after_mem label rfl hlabel declaration.text []

theorem eq_of_declarations {label : String} {declarations others : List Declaration}
    (h : ∀ declaration ∈ declarations, declaration.IsSound) (hother : ∀ other ∈ others, other.IsSound)
    (heq : declarationOutlines label declarations = declarationOutlines label others) :
    declarations = others := by
  refine eq_of_outlines (fun declaration hmem other hnext hsame => ?_) heq
  have htext : declaration.text = other.text := by simpa using (node.inj hsame).1
  exact Declaration.eq_of_text (h declaration hmem) (hother other hnext) htext

theorem haveWords_comments (comments : List String) : HaveWords ["Comment"] (commentOutlines comments) :=
  haveWords_map fun comment _ =>
    firstWord_after_mem "Comment" (by decide) (by decide) (Text.quoted comment) []

theorem commentOutlines_inj {comments others : List String}
    (h : commentOutlines comments = commentOutlines others) : comments = others := by
  refine eq_of_outlines (fun comment _ other _ hsame => ?_) h
  have hquoted : Text.quoted comment = Text.quoted other := by simpa using (node.inj hsame).1
  exact Text.quoted_inj hquoted

end Items

section Functions

theorem haveWords_body (body : FunctionBody) :
    HaveWords ["Body", "Language", "Code", "Option"] body.outlines := by
  cases body with
  | sql body =>
    have hbody : HaveWords ["Body"] [above "Body" body.outline] :=
      haveWords_singleton (firstWord_mem "Body" (by decide) [])
    exact hbody.mono (by decide)
  | foreign language code options =>
    have hlanguage : HaveWords ["Language"] [leaf ("Language " ++ language.raw)] :=
      haveWords_singleton (firstWord_after_mem "Language" (by decide) (by decide) language.raw [])
    have hcode : HaveWords ["Code"] [leaf ("Code " ++ Text.quoted code.text)] :=
      haveWords_singleton (firstWord_after_mem "Code" (by decide) (by decide) (Text.quoted code.text) [])
    exact (hlanguage.append (hcode.append (haveWords_options options))).mono (by decide)

theorem FunctionBody.eq_of_outlines {body other : FunctionBody} (h : body.IsSound) (hother : other.IsSound)
    (hknown : ∀ node ∈ Node.ofBody body, node.IsKnown) (hclear : ∀ node ∈ Node.ofBody other, node.IsClear)
    (heq : body.outlines = other.outlines) : body = other := by
  have hwords {value : Outline} {language : Identifier} {rest : List Outline}
      (hsame : [above "Body" value] = leaf ("Language " ++ language.raw) :: rest) : False := by
    have hword := congrArg firstWord (node.inj (List.cons.inj hsame).1).1
    rw [firstWord_after "Language" (by decide) (by decide)] at hword
    exact absurd hword (by decide)
  cases body with
  | sql value =>
    cases other with
    | sql value' =>
      have hvalues : [value] = [value'] :=
        eq_of_exprs hknown hclear (by simpa using (above_inj (List.cons.inj heq).1).2)
      cases hvalues
      rfl
    | foreign => exact (hwords heq).elim
  | foreign language code options =>
    cases other with
    | sql => exact (hwords heq.symm).elim
    | foreign language' code' options' =>
      obtain ⟨hlanguage, hparts⟩ := List.cons.inj heq
      obtain ⟨hcode, hoptions⟩ := List.cons.inj hparts
      have hraw : language.raw = language'.raw := by simpa using (node.inj hlanguage).1
      have hquoted : Text.quoted code.text = Text.quoted code'.text := by simpa using (node.inj hcode).1
      rw [Identifier.raw_inj hraw, Constant.eq_of_text h.2.1 hother.2.1 (Text.quoted_inj hquoted),
        eq_of_options hknown hclear hoptions]

theorem FunctionDef.isKnown {definition : FunctionDef} (h : (Node.function definition).IsClear)
    (hknown : ∀ node ∈ Node.ofBody definition.body, node.IsKnown) :
    (Node.function definition).IsKnown := by
  intro other hother heq
  have hlocal : definition.IsLocallySound := h.sound.here
  have hlocal' : other.IsLocallySound := hother.sound.here
  have hclear : ∀ node ∈ Node.ofBody other.body, node.IsClear := fun node hnode => hother.child hnode
  obtain ⟨hlabel, hparts⟩ := node.inj heq
  obtain ⟨hname, htail⟩ := eq_of_flagged "CreateFunction" (by decide) (by decide)
    (QualifiedName.isSegment_of_isSound hlocal.name) (QualifiedName.isSegment_of_isSound hlocal'.name)
    (isFlag_createFunction definition.orReplace definition.temporary)
    (isFlag_createFunction other.orReplace other.temporary) hlabel
  obtain ⟨hreplace, htemporary⟩ := eq_of_createFunctionFlags htail
  have hreturns (definition : FunctionDef) : HaveWords ["Returns"]
      (definition.returns.map fun type => leaf ("Returns " ++ type.text)).toList :=
    haveWords_leaf "Returns" (by decide) (by decide) SqlType.text definition.returns
  have hparams (definition : FunctionDef) : HaveWords ["Param"]
      (declarationOutlines "Param" definition.params) :=
    haveWords_declarations (by decide) definition.params
  simp only [Action.outlines, List.append_assoc] at hparts
  obtain ⟨hparam, hparts⟩ := append_inj_of_words (by decide) (hparams definition) (hparams other)
    ((hreturns definition).append (haveWords_body definition.body))
    ((hreturns other).append (haveWords_body other.body)) hparts
  obtain ⟨hreturn, hbody⟩ := append_inj_of_words (by decide) (hreturns definition) (hreturns other)
    (haveWords_body definition.body) (haveWords_body other.body) hparts
  have hparamsEq := eq_of_declarations hlocal.params hlocal'.params hparam
  have hbodyEq := FunctionBody.eq_of_outlines hlocal.body hlocal'.body hknown hclear hbody
  have hreturnsEq : definition.returns = other.returns :=
    eq_of_leaf (fun type htype next hnext =>
      SqlType.eq_of_text (hlocal.returns type htype) (hlocal'.returns next hnext)) hreturn
  cases definition
  cases other
  simp_all

end Functions

section Actions

theorem InsertSource.haveWords (source : InsertSource) : HaveWords ["Query", "Values"] [source.outline] := by
  apply haveWords_singleton
  cases source with
  | query body => simp [InsertSource.outline, body.word_outline]
  | values rows => exact List.mem_append_right ["Query"] (firstWord_mem "Values" (by decide) [])

theorem InsertSource.eq_of_outline {source other : InsertSource}
    (hknown : ∀ node ∈ Node.ofInsertSource source, node.IsKnown)
    (hclear : ∀ node ∈ Node.ofInsertSource other, node.IsClear)
    (heq : source.outline = other.outline) : source = other := by
  have hwords {body : Query} {outlines : List Outline} (hsame : body.outline = node "Values" outlines) :
      False := by
    have hword : firstWord "Values" = "Query" := by
      rw [← body.word_outline, hsame]
      rfl
    exact absurd hword (by decide)
  cases source with
  | query body =>
    cases other with
    | query body' =>
      have hbody : body = body' := hknown (.query body) (by simp [Node.ofInsertSource]) body'
        (hclear _ (by simp [Node.ofInsertSource])) heq
      rw [hbody]
    | values rows => exact (hwords heq).elim
  | values rows =>
    cases other with
    | query body => exact (hwords heq.symm).elim
    | values rows' =>
      have hrows : rows = rows' := by
        refine eq_of_outlines (fun row hrow row' hrow' hsame => ?_) (node.inj heq).2
        rw [exprOutlines_eq_map, exprOutlines_eq_map, node.injEq] at hsame
        exact eq_of_exprs (fun node hnode => hknown node (List.mem_flatMap.mpr ⟨row, hrow, hnode⟩))
          (fun node hnode => hclear node (List.mem_flatMap.mpr ⟨row', hrow', hnode⟩)) hsame.2
      rw [hrows]

theorem haveWords_columns (insertion : Insertion) : HaveWords ["Columns"]
    (if insertion.columns.isEmpty then []
      else [leaf ("Columns " ++ identifierList insertion.columns)]) := by
  split
  · exact haveWords_nil
  · exact haveWords_singleton
      (firstWord_after_mem "Columns" (by decide) (by decide) (identifierList insertion.columns) [])

theorem haveWords_query (query : Option Query) : HaveWords ["Query"] (query.map Query.outline).toList := by
  rw [Option.toList_map]
  exact haveWords_map fun query _ => List.mem_singleton.mpr query.word_outline

theorem eq_of_queries {query other : Option Query} (h : ∀ node ∈ query.toList.map Node.query, node.IsKnown)
    (hclear : ∀ node ∈ other.toList.map Node.query, node.IsClear)
    (heq : (query.map Query.outline).toList = (other.map Query.outline).toList) : query = other := by
  rw [Option.toList_map, Option.toList_map] at heq
  have hlists : query.toList = other.toList :=
    @eq_of_nodes _ Node.query Query.outline (fun _ next hknown hclear => hknown next hclear) _ _ h hclear heq
  cases query <;> cases other <;> simp_all

theorem TableDef.eq_of_outline {table other : TableDef} (h : table.IsSound) (hother : other.IsSound)
    (hknown : ∀ node ∈ Node.ofAction (.createTable table), node.IsKnown)
    (hclear : ∀ node ∈ Node.ofAction (.createTable other), node.IsClear)
    (hlabel : (Action.createTable table).label = (Action.createTable other).label)
    (hparts : (Action.createTable table).outlines = (Action.createTable other).outlines) : table = other := by
  simp only [Node.ofAction, List.forall_mem_append] at hknown hclear
  simp only [Action.outlines, List.append_assoc] at hparts
  obtain ⟨hname, htail⟩ := eq_of_flagged "CreateTable" (by decide) (by decide)
    (QualifiedName.isSegment_of_isSound h.name) (QualifiedName.isSegment_of_isSound hother.name)
    (isFlag_createTable table.orReplace table.temporary table.ifNotExists)
    (isFlag_createTable other.orReplace other.temporary other.ifNotExists) hlabel
  obtain ⟨hreplace, htemporary, hexists⟩ := eq_of_createTableFlags htail
  have hcolumns (table : TableDef) : HaveWords ["Column"] (declarationOutlines "Column" table.columns) :=
    haveWords_declarations (by decide) table.columns
  obtain ⟨hcolumn, hparts⟩ := append_inj_of_words (by decide) (hcolumns table) (hcolumns other)
    ((haveWords_options table.options).append (haveWords_query table.query))
    ((haveWords_options other.options).append (haveWords_query other.query)) hparts
  obtain ⟨hoption, hquery⟩ := append_inj_of_words (by decide) (haveWords_options table.options)
    (haveWords_options other.options) (haveWords_query table.query) (haveWords_query other.query) hparts
  have hcolumnsEq := eq_of_declarations h.columns hother.columns hcolumn
  have hoptionsEq := eq_of_options hknown.1 hclear.1 hoption
  have hqueryEq := eq_of_queries hknown.2 hclear.2 hquery
  cases table
  cases other
  simp_all

theorem ViewDef.eq_of_outline {view other : ViewDef} (h : view.IsSound) (hother : other.IsSound)
    (hknown : ∀ node ∈ Node.ofAction (.createView view), node.IsKnown)
    (hclear : ∀ node ∈ Node.ofAction (.createView other), node.IsClear)
    (hlabel : (Action.createView view).label = (Action.createView other).label)
    (hparts : (Action.createView view).outlines = (Action.createView other).outlines) : view = other := by
  simp only [Node.ofAction, List.forall_mem_append, List.forall_mem_singleton] at hknown hclear
  obtain ⟨hname, htail⟩ := eq_of_flagged "CreateView" (by decide) (by decide)
    (QualifiedName.isSegment_of_isSound h.name) (QualifiedName.isSegment_of_isSound hother.name)
    (isFlag_createView view.orReplace view.ifNotExists)
    (isFlag_createView other.orReplace other.ifNotExists) hlabel
  obtain ⟨hreplace, hexists⟩ := eq_of_createViewFlags htail
  obtain ⟨hoption, hquery⟩ := append_inj_of_words (by decide) (haveWords_options view.options)
    (haveWords_options other.options) (haveWords_query (some view.query)) (haveWords_query (some other.query))
    hparts
  have hoptionsEq := eq_of_options hknown.1 hclear.1 hoption
  have hqueryEq : view.query = other.query := hknown.2 other.query hclear.2 (List.cons.inj hquery).1
  cases view
  cases other
  simp_all

theorem Insertion.eq_of_outline {insertion other : Insertion} (h : insertion.IsSound)
    (hother : other.IsSound) (hknown : ∀ node ∈ Node.ofAction (.insert insertion), node.IsKnown)
    (hclear : ∀ node ∈ Node.ofAction (.insert other), node.IsClear)
    (hlabel : (Action.insert insertion).label = (Action.insert other).label)
    (hparts : (Action.insert insertion).outlines = (Action.insert other).outlines) : insertion = other := by
  have htext : insertion.table.dotted = other.table.dotted := by simpa [Action.label] using hlabel
  have htable := QualifiedName.eq_of_dotted (QualifiedName.isSegment_of_isSound h.table)
    (QualifiedName.isSegment_of_isSound hother.table) htext
  obtain ⟨hcolumn, hsource⟩ := append_inj_of_words (by decide) (haveWords_columns insertion)
    (haveWords_columns other) insertion.source.haveWords other.source.haveWords hparts
  have hsourceEq := InsertSource.eq_of_outline hknown hclear (List.cons.inj hsource).1
  have hcolumnsEq : insertion.columns = other.columns := by
    cases hcolumns : insertion.columns with
    | nil =>
      cases hothers : other.columns with
      | nil => rfl
      | cons => simp [hcolumns, hothers] at hcolumn
    | cons first rest =>
      cases hothers : other.columns with
      | nil => simp [hcolumns, hothers] at hcolumn
      | cons next others =>
        have htexts : identifierList (first :: rest) = identifierList (next :: others) := by
          simpa [hcolumns, hothers, leaf] using hcolumn
        exact eq_of_identifierList (hcolumns ▸ h.columns) (hothers ▸ hother.columns) htexts
  cases insertion
  cases other
  simp_all

/-- The word that the label of a statement starts with. -/
def Action.word : Action → String
  | query _ => "QueryStatement"
  | createFunction _ => "CreateFunction"
  | createTable _ => "CreateTable"
  | createView _ => "CreateView"
  | insert _ => "Insert"

theorem Action.firstWord_label (action : Action) : firstWord action.label = action.word := by
  cases action with
  | query body => exact show firstWord "QueryStatement" = "QueryStatement" by decide
  | createFunction definition =>
    exact List.mem_singleton.mp
      (firstWord_after_mem "CreateFunction" (by decide) (by decide) definition.name.dotted _)
  | createTable definition =>
    exact List.mem_singleton.mp
      (firstWord_after_mem "CreateTable" (by decide) (by decide) definition.name.dotted _)
  | createView definition =>
    exact List.mem_singleton.mp
      (firstWord_after_mem "CreateView" (by decide) (by decide) definition.name.dotted _)
  | insert insertion => exact firstWord_after "Insert" (by decide) (by decide) insertion.table.dotted

theorem Action.eq_of_outlines {action other : Action} (h : action.IsSound) (hother : other.IsSound)
    (hknown : ∀ node ∈ Node.ofAction action, node.IsKnown)
    (hclear : ∀ node ∈ Node.ofAction other, node.IsClear)
    (hlabel : action.label = other.label) (hparts : action.outlines = other.outlines) : action = other := by
  have hword : action.word = other.word := by rw [← firstWord_label, hlabel, firstWord_label]
  cases action with
  | query body =>
    cases other with
    | query body' =>
      have hbody : body = body' := hknown (.query body) (by simp [Node.ofAction]) body'
        (hclear _ (by simp [Node.ofAction])) (List.cons.inj hparts).1
      rw [hbody]
    | _ => simp [Action.word] at hword
  | createFunction definition =>
    cases other with
    | createFunction definition' =>
      have hsame : (Node.function definition).outline = (Node.function definition').outline := by
        rw [Node.outline, Node.outline, hlabel, hparts]
      have hdefinition : definition = definition' := hknown (.function definition) (by simp [Node.ofAction])
        definition' (hclear _ (by simp [Node.ofAction])) hsame
      rw [hdefinition]
    | _ => simp [Action.word] at hword
  | createTable definition =>
    cases other with
    | createTable definition' => rw [TableDef.eq_of_outline h hother hknown hclear hlabel hparts]
    | _ => simp [Action.word] at hword
  | createView definition =>
    cases other with
    | createView definition' => rw [ViewDef.eq_of_outline h hother hknown hclear hlabel hparts]
    | _ => simp [Action.word] at hword
  | insert insertion =>
    cases other with
    | insert insertion' => rw [Insertion.eq_of_outline h hother hknown hclear hlabel hparts]
    | _ => simp [Action.word] at hword

theorem Action.haveWords_outlines (action : Action) :
    HaveWords ["Query", "Param", "Returns", "Body", "Language", "Code", "Option", "Column", "Columns",
      "Values"] action.outlines := by
  cases action with
  | query body => exact (haveWords_query (some body)).mono (by decide)
  | createFunction definition =>
    have hparams : HaveWords ["Param"] (declarationOutlines "Param" definition.params) :=
      haveWords_declarations (by decide) definition.params
    have hreturns : HaveWords ["Returns"]
        (definition.returns.map fun type => leaf ("Returns " ++ type.text)).toList :=
      haveWords_leaf "Returns" (by decide) (by decide) SqlType.text definition.returns
    exact ((hparams.append hreturns).append (haveWords_body definition.body)).mono (by decide)
  | createTable definition =>
    have hcolumns : HaveWords ["Column"] (declarationOutlines "Column" definition.columns) :=
      haveWords_declarations (by decide) definition.columns
    exact ((hcolumns.append (haveWords_options definition.options)).append
      (haveWords_query definition.query)).mono (by decide)
  | createView definition =>
    exact ((haveWords_options definition.options).append (haveWords_query (some definition.query))).mono
      (by decide)
  | insert insertion =>
    exact ((haveWords_columns insertion).append insertion.source.haveWords).mono (by decide)

end Actions

section Scripts

theorem Statement.isKnown {statement : Statement} (h : (Node.statement statement).IsClear)
    (hknown : ∀ node ∈ Node.ofAction statement.action, node.IsKnown) :
    (Node.statement statement).IsKnown := by
  intro other hother heq
  have hlocal : statement.IsLocallySound := h.sound.here
  have hlocal' : other.IsLocallySound := hother.sound.here
  have hclear : ∀ node ∈ Node.ofAction other.action, node.IsClear := fun node hnode => hother.child hnode
  obtain ⟨hlabel, hparts⟩ := node.inj heq
  obtain ⟨hcomments, hactions⟩ := append_inj_of_words (by decide) (haveWords_comments statement.comments)
    (haveWords_comments other.comments) statement.action.haveWords_outlines other.action.haveWords_outlines
    hparts
  have haction := Action.eq_of_outlines hlocal.action hlocal'.action hknown hclear hlabel hactions
  have hcommentsEq := commentOutlines_inj hcomments
  cases statement
  cases other
  simp_all

theorem Script.isKnown {script : Script}
    (hknown : ∀ node ∈ script.statements.map Node.statement, node.IsKnown) :
    (Node.script script).IsKnown := by
  intro other hother heq
  have hclear : ∀ node ∈ other.statements.map Node.statement, node.IsClear :=
    fun node hnode => hother.child hnode
  have hstatements (script : Script) :
      HaveWords ["QueryStatement", "CreateFunction", "CreateTable", "CreateView", "Insert"]
        (script.statements.map (Statement.outline true)) := by
    refine haveWords_map fun statement _ => ?_
    rw [Statement.outline, word, Action.firstWord_label]
    cases statement.action <;> simp [Action.word]
  obtain ⟨hstatement, hcomment⟩ := append_inj_of_words (by decide) (hstatements script) (hstatements other)
    (haveWords_comments script.trailingComments) (haveWords_comments other.trailingComments)
    (node.inj heq).2
  have hstatementsEq : script.statements = other.statements :=
    @eq_of_nodes _ Node.statement (Statement.outline true) (fun _ next hknown hclear => hknown next hclear)
      _ _ hknown hclear hstatement
  have hcommentsEq := commentOutlines_inj hcomment
  cases script
  cases other
  simp_all

end Scripts

/-- A clear node is known from its outline. -/
theorem Node.isKnown (node : Node) : node.IsClear → node.IsKnown := by
  induction node using Node.induct with
  | h node ih =>
    intro hclear
    have h : ∀ child ∈ node.children, child.IsKnown := fun child hchild =>
      ih child hchild (hclear.child hchild)
    cases node with
    | script body => exact Script.isKnown h
    | statement body => exact Statement.isKnown hclear h
    | function definition => exact FunctionDef.isKnown hclear h
    | query body => exact Query.isKnown hclear h
    | commonTable table => exact CommonTable.isKnown (h (.query table.query) (by simp [Node.children]))
    | setExpr body => exact SetExpr.isKnown h
    | select body => exact Select.isKnown h
    | selectItem item => exact SelectItem.isKnown hclear h
    | tableExpr table => exact TableExpr.isKnown hclear h
    | expr body => exact Expr.isKnown hclear h

namespace Script

theorem isClear_of_ofSource {source : String} {script : Script} (h : ofSource source = .ok script)
    (hshown : script.hidesSubscript = false) : (Node.script script).IsClear where
  sound := isSound_of_ofSource h
  subscripts inner hinner := by
    have hnone := List.any_eq_false.mp hshown inner hinner
    simpa using hnone

/-- Where no subscript is hidden, two sources whose trees are shown by one text have one tree. -/
theorem eq_of_render_outline {source other : String} {script script' : Script}
    (h : ofSource source = .ok script) (hother : ofSource other = .ok script')
    (hshown : script.hidesSubscript = false) (hshown' : script'.hidesSubscript = false)
    (htext : script.outline.render = script'.outline.render) : script = script' := by
  have hclear := isClear_of_ofSource h hshown
  have hclear' := isClear_of_ofSource hother hshown'
  have houtline : script.outline = script'.outline :=
    render_inj ((Node.script script).isReadable hclear.sound) ((Node.script script').isReadable hclear'.sound)
      htext
  exact Node.isKnown (.script script) hclear script' hclear' houtline

/-- What is shown of a source, and whether that hides a subscript. -/
def shown (source : String) : Option (Bool × String) :=
  (ofSource source).toOption.map fun script => (script.hidesSubscript, script.outline.render)

theorem exists_of_shown {source text : String} {isHidden : Bool} (h : shown source = some (isHidden, text)) :
    ∃ script, ofSource source = .ok script ∧ script.hidesSubscript = isHidden ∧
      script.outline.render = text := by
  unfold shown at h
  cases hread : ofSource source with
  | error failure =>
    rw [hread] at h
    cases h
  | ok script =>
    rw [hread] at h
    obtain ⟨hhides, htext⟩ := Prod.mk.inj (Option.some.inj h)
    exact ⟨script, rfl, hhides, htext⟩

/-- What is shown of an aggregate with a limit and an offset. -/
def offsetText : String :=
  "Script\n  QueryStatement\n    Query\n      Select\n        Item\n          ArrayAgg\n            Path x\n"
    ++ "            Limit\n              Constant Number 1\n            Offset\n"
    ++ "              Constant Number 2\n"

theorem shown_offsets :
    shown "SELECT ARRAY_AGG(x LIMIT 1 OFFSET 2)" = some (false, offsetText) ∧
      shown "select array_agg(x\nlimit 1 offset 2)" = some (false, offsetText) ∧
      shown "SELECT ARRAY_AGG(x LIMIT 1)[OFFSET(2)]" = some (true, offsetText) := by
  decide +kernel

/-- The words of a source may be written in either case. -/
theorem eq_of_render_outline_offset :
    ∃ script script', ofSource "SELECT ARRAY_AGG(x LIMIT 1 OFFSET 2)" = .ok script ∧
      ofSource "select array_agg(x\nlimit 1 offset 2)" = .ok script' ∧
      script.hidesSubscript = false ∧ script'.hidesSubscript = false ∧
      script.outline.render = script'.outline.render ∧ script = script' := by
  obtain ⟨hupper, hlower, -⟩ := shown_offsets
  obtain ⟨script, hscript, hshown, htext⟩ := exists_of_shown hupper
  obtain ⟨script', hscript', hshown', htext'⟩ := exists_of_shown hlower
  have hsame : script.outline.render = script'.outline.render := htext.trans htext'.symm
  exact ⟨script, script', hscript, hscript', hshown, hshown', hsame,
    eq_of_render_outline hscript hscript' hshown hshown' hsame⟩

/-- A subscript right after a limit is shown like the offset of that limit. -/
theorem render_outline_subscript :
    ∃ script script', ofSource "SELECT ARRAY_AGG(x LIMIT 1 OFFSET 2)" = .ok script ∧
      ofSource "SELECT ARRAY_AGG(x LIMIT 1)[OFFSET(2)]" = .ok script' ∧
      script.outline.render = script'.outline.render ∧ script ≠ script' := by
  obtain ⟨hoffset, -, hsubscript⟩ := shown_offsets
  obtain ⟨script, hscript, hshown, htext⟩ := exists_of_shown hoffset
  obtain ⟨script', hscript', hhides, htext'⟩ := exists_of_shown hsubscript
  refine ⟨script, script', hscript, hscript', htext.trans htext'.symm, ?_⟩
  rintro rfl
  rw [hshown] at hhides
  cases hhides

end Script

end SqlLayout
