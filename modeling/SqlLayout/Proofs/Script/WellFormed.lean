import SqlLayout.Proofs.Echo.Name
import SqlLayout.Proofs.Sound.Statement

/-!
# Well-Formed Trees

The printer takes several things for granted that the types of a tree do not say: that a modifier has
something to modify, that a list or a clause is not empty, that operands on the right are no operations
of their own kind, and that a name is read as one. They hold of every node of every script that was read.
-/

namespace SqlLayout

open Token.Scan

section Names

/-- A name that is read as one wherever it stands: backquoted, or a word that is not reserved. -/
def Identifier.IsFree (name : Identifier) : Prop :=
  name.isQuoted = true ∨ Keyword.isReserved name.raw = false

/-- What may be called: a path that starts with a free name, or one reserved word of a few. -/
def QualifiedName.IsCallee (function : QualifiedName) : Prop :=
  function.first.IsFree ∨ function.isSingle = true ∧ Keyword.isCallable function.first.raw = true

def FunctionBody.names : FunctionBody → List Identifier
  | sql _ => []
  | foreign language _ options => language :: options.map OptionItem.name

def Action.names : Action → List Identifier
  | query _ | createFunction _ => []
  | createTable table =>
    table.name.first :: (table.columns.map Declaration.name ++ table.options.map OptionItem.name)
  | createView view => view.name.first :: view.options.map OptionItem.name
  | insert insertion => insertion.table.first :: insertion.columns

def SelectItem.names : SelectItem → List Identifier
  | wildcard qualifier except replace =>
    qualifier.toList.map QualifiedName.first ++ except ++ replace.map Replacement.aliasName
  | expr _ aliasName => aliasName.toList

def JoinCondition.names : JoinCondition → List Identifier
  | condition _ => []
  | columns names => names

def TableExpr.names : TableExpr → List Identifier
  | table name aliasName => name.first :: aliasName.toList
  | subquery _ aliasName => aliasName.toList
  | unnest _ aliasName offset => aliasName.toList ++ offset.toList.flatMap Option.toList
  | join _ _ _ condition => condition.toList.flatMap JoinCondition.names

def Expr.names : Expr → List Identifier
  | name path => [path.first]
  | struct _ items => items.filterMap StructItem.aliasName
  | interval _ unit => [unit]
  | _ => []

/-- The aliases, tables, columns, parameters, options, languages and units of a node, and what its paths
start with. The name of a call is not among them. -/
def Node.names : Node → List Identifier
  | script _ | query _ | setExpr _ | select _ => []
  | statement body => body.action.names
  | function definition =>
    definition.name.first :: (definition.params.map Declaration.name ++ definition.body.names)
  | commonTable table => [table.name]
  | selectItem item => item.names
  | tableExpr table => table.names
  | expr body => body.names

end Names

section Parts

mutual

/-- Wherever a type has parameters, the first one is a number. -/
def SqlType.HasNumericParams : SqlType → Prop
  | .named _ params => ∀ param ∈ params.head?, param.kind = .number
  | .array element => element.HasNumericParams
  | .struct fields => fieldsHaveNumericParams fields
  | .any => True

def fieldsHaveNumericParams : List Field → Prop
  | [] => True
  | ⟨_, type⟩ :: fields => type.HasNumericParams ∧ fieldsHaveNumericParams fields

end

/-- There is a sort key or a limit, and an offset only with a limit. -/
structure RowOrder.SaysSomething (order : RowOrder) : Prop where
  nonempty : order.keys ≠ [] ∨ order.limit.isSome = true
  limit : order.offset.isSome = true → order.limit.isSome = true

def FrameBound.count? : FrameBound → Option Constant
  | preceding count | following count => some count
  | unboundedPreceding | unboundedFollowing | currentRow => none

def Frame.bounds (frame : Frame) : List FrameBound :=
  match frame.extent with
  | .single bound => [bound]
  | .between start stop => [start, stop]

/-- Rows are counted with numbers. -/
def Frame.CountsInNumbers (frame : Frame) : Prop :=
  ∀ bound ∈ frame.bounds, ∀ count ∈ bound.count?, count.kind = .number

def TableExpr.isJoin : TableExpr → Bool
  | join _ _ _ _ => true
  | _ => false

def SetExpr.isCombination : SetExpr → Bool
  | combine _ _ _ _ => true
  | _ => false

/-- The fields of a constructor are a type of their own without a name. -/
def Expr.types : Expr → List SqlType
  | array type _ => type.toList
  | struct fields _ => fields.toList.map SqlType.struct
  | cast _ _ type => [type]
  | _ => []

def Expr.order? : Expr → Option RowOrder
  | arrayAgg _ _ _ order _ _ | stringAgg _ _ _ _ _ order _ _ => order
  | _ => none

def Expr.window? : Expr → Option Window
  | arrayAgg _ _ _ _ window _ | stringAgg _ _ _ _ _ _ window _ => window
  | .over _ window => some window
  | _ => none

/-- A modifier modifies an argument, a choice has a branch, and there is something to be in. -/
def Expr.HasParts : Expr → Prop
  | call function distinct args nulls =>
    function.IsCallee ∧ (distinct = true ∨ nulls.isSome = true → args ≠ [])
  | case _ branches _ => branches ≠ []
  | member _ _ (.list items) => items ≠ []
  | _ => True

end Parts

namespace Node

/-- The types of a node itself. -/
def types : Node → List SqlType
  | statement ⟨_, .createTable table⟩ => table.columns.map Declaration.type
  | function definition => definition.params.map Declaration.type ++ definition.returns.toList
  | expr body => body.types
  | _ => []

def order? : Node → Option RowOrder
  | query body => body.order
  | expr body => body.order?
  | _ => none

def frame? : Node → Option Frame
  | expr body => body.window?.bind Window.frame
  | _ => none

/-- What stands in a node is there and is of the right kind. -/
def HasParts : Node → Prop
  | statement ⟨_, .insert ⟨_, _, .values rows⟩⟩ => rows ≠ []
  | function definition =>
    ∀ language code options, definition.body = .foreign language code options →
      code.kind = .string ∨ code.kind = .bytes
  | query body => ∀ common ∈ body.common, common.tables ≠ []
  | setExpr (.combine _ _ _ right) => right.isCombination = false
  | select body => body.items ≠ []
  | tableExpr (.join _ kind right condition) =>
    right.isJoin = false ∧ (kind = .comma ∨ kind = .cross → condition = none)
  | expr body => body.HasParts
  | _ => True

/-- What the printer takes for granted of a node. -/
structure IsWellFormed (node : Node) : Prop where
  names : ∀ name ∈ node.names, name.IsFree
  types : ∀ type ∈ node.types, type.HasNumericParams
  order : ∀ order ∈ node.order?, order.SaysSomething
  frame : ∀ frame ∈ node.frame?, frame.CountsInNumbers
  parts : node.HasParts

end Node

section Sound

theorem Identifier.IsSound.isFree {name : Identifier} (h : name.IsSound) : name.IsFree := by
  rcases h with ⟨-, hfree⟩ | hquoted
  · exact .inr hfree
  · exact .inl (isQuoted_of_isQuotedName hquoted)

theorem QualifiedName.IsFunction.isCallee {function : QualifiedName} (h : function.IsFunction) :
    function.IsCallee := by
  cases h with
  | name h => exact .inl h.first.isFree
  | callable _ hcallable hsingle => exact .inr ⟨by simp [isSingle, hsingle], hcallable⟩

mutual

theorem SqlType.IsSound.hasNumericParams : {type : SqlType} → type.IsSound → type.HasNumericParams
  | .named _ _, h => h.2.2
  | .array element, h => @SqlType.IsSound.hasNumericParams element h
  | .struct fields, h => @fieldsHaveNumericParams_of_areSound fields h
  | .any, _ => trivial

theorem fieldsHaveNumericParams_of_areSound :
    {fields : List Field} → fieldsAreSound fields → fieldsHaveNumericParams fields
  | [], _ => trivial
  | ⟨_, _⟩ :: _, ⟨_, _, htype, hfields⟩ =>
    ⟨htype.hasNumericParams, fieldsHaveNumericParams_of_areSound hfields⟩

end

theorem RowOrder.IsSound.saysSomething {order : RowOrder} (h : order.IsSound) : order.SaysSomething :=
  ⟨h.nonempty, h.offset_limit⟩

theorem Frame.IsSound.countsInNumbers {frame : Frame} (h : frame.IsSound) : frame.CountsInNumbers := by
  have hbound {bound : FrameBound} (h : bound.IsSound) : ∀ count ∈ bound.count?, count.kind = .number := by
    intro count hcount
    cases bound with
    | preceding other | following other =>
      cases hcount
      exact h.2
    | unboundedPreceding | unboundedFollowing | currentRow => cases hcount
  obtain ⟨unit, bound | ⟨start, stop⟩⟩ := frame
  · simpa [CountsInNumbers, bounds] using hbound h
  · simpa [CountsInNumbers, bounds] using ⟨@hbound start h.1, @hbound stop h.2⟩

namespace Node

variable {node : Node}

theorem isFree_of_isLocallySound (h : node.IsLocallySound) : ∀ name ∈ node.names, name.IsFree := by
  cases node with
  | script body => simp [names]
  | query body => simp [names]
  | setExpr body => simp [names]
  | select body => simp [names]
  | commonTable table => simpa [names] using Identifier.IsSound.isFree h
  | statement body =>
    obtain ⟨comments, action⟩ := body
    have haction := h.action
    cases action with
    | query body => simp [names, Action.names]
    | createFunction definition => simp [names, Action.names]
    | createTable table =>
      obtain ⟨hname, hcolumns, hoptions⟩ := haction
      simp only [names, Action.names, List.forall_mem_cons, List.forall_mem_append, List.forall_mem_map]
      exact ⟨hname.first.isFree, fun column hcolumn => (hcolumns column hcolumn).name.isFree,
        fun item hitem => (hoptions item hitem).name.isFree⟩
    | createView view =>
      obtain ⟨hname, hoptions⟩ := haction
      simp only [names, Action.names, List.forall_mem_cons, List.forall_mem_map]
      exact ⟨hname.first.isFree, fun item hitem => (hoptions item hitem).name.isFree⟩
    | insert insertion =>
      obtain ⟨htable, hcolumns, -⟩ := haction
      simp only [names, Action.names, List.forall_mem_cons]
      exact ⟨htable.first.isFree, fun column hcolumn => (hcolumns column hcolumn).isFree⟩
  | function definition =>
    obtain ⟨hname, hparams, -, hbody⟩ := h
    simp only [names, List.forall_mem_cons, List.forall_mem_append, List.forall_mem_map]
    refine ⟨hname.first.isFree, fun param hparam => (hparams param hparam).name.isFree, ?_⟩
    cases hkind : definition.body with
    | sql body => simp [FunctionBody.names]
    | foreign language code options =>
      rw [hkind] at hbody
      simp only [FunctionBody.names, List.forall_mem_cons, List.forall_mem_map]
      exact ⟨hbody.1.isFree, fun item hitem => (hbody.2.2.2 item hitem).name.isFree⟩
  | selectItem item =>
    cases item with
    | wildcard qualifier except replace =>
      obtain ⟨hqualifier, hexcept, hreplace⟩ := h
      simp only [names, SelectItem.names, List.forall_mem_append, List.forall_mem_map, Option.mem_toList]
      exact ⟨⟨fun path hpath => (hqualifier path hpath).first.isFree,
        fun name hname => (hexcept name hname).isFree⟩,
        fun item hitem => (hreplace item hitem).aliasName.isFree⟩
    | expr body aliasName =>
      simp only [names, SelectItem.names, Option.mem_toList]
      exact fun name hname => (h.2 name hname).isFree
  | tableExpr table =>
    cases table with
    | table name aliasName =>
      simp only [names, TableExpr.names, List.forall_mem_cons, Option.mem_toList]
      exact ⟨h.1.first.isFree, fun name hname => (h.2 name hname).isFree⟩
    | subquery body aliasName =>
      simp only [names, TableExpr.names, Option.mem_toList]
      exact fun name hname => (h name hname).isFree
    | unnest array aliasName offset =>
      simp only [names, TableExpr.names, List.forall_mem_append, List.forall_mem_flatMap, Option.mem_toList]
      exact ⟨fun name hname => (h.2.1 name hname).isFree,
        fun inner hinner name hname => (h.2.2 inner hinner name hname).isFree⟩
    | join left kind right condition =>
      simp only [names, TableExpr.names, List.forall_mem_flatMap, Option.mem_toList]
      intro condition hcondition
      have hsound := h.2.2 condition hcondition
      cases condition with
      | condition test => simp [JoinCondition.names]
      | columns columns => exact fun name hname => (hsound name hname).isFree
  | expr body =>
    have hbody := h.1
    cases body with
    | name path => simpa [names, Expr.names] using hbody.first.isFree
    | interval count unit => simpa [names, Expr.names] using Identifier.IsSound.isFree hbody
    | struct fields items =>
      intro name hname
      obtain ⟨item, hitem, haliasName⟩ := List.mem_filterMap.mp hname
      exact ((hbody.2 item hitem).aliasName name haliasName).isFree
    | _ => simp [names, Expr.names]

theorem hasNumericParams_of_isLocallySound (h : node.IsLocallySound) :
    ∀ type ∈ node.types, type.HasNumericParams := by
  cases node with
  | statement body =>
    obtain ⟨comments, action⟩ := body
    cases action with
    | createTable table =>
      simp only [types, List.forall_mem_map]
      exact fun column hcolumn => (h.action.columns column hcolumn).type.hasNumericParams
    | _ => simp [types]
  | function definition =>
    simp only [types, List.forall_mem_append, List.forall_mem_map, Option.mem_toList]
    exact ⟨fun param hparam => (h.params param hparam).type.hasNumericParams,
      fun type htype => (h.returns type htype).hasNumericParams⟩
  | expr body =>
    have hbody := h.1
    cases body with
    | array type items =>
      simp only [types, Expr.types, Option.mem_toList]
      exact fun inner hinner => (hbody.1 inner hinner).hasNumericParams
    | struct fields items =>
      simp only [types, Expr.types, List.forall_mem_map, Option.mem_toList]
      exact fun inner hinner => fieldsHaveNumericParams_of_areSound (hbody.1 inner hinner)
    | cast safe operand type => simpa [types, Expr.types] using hbody.2.hasNumericParams
    | _ => simp [types, Expr.types]
  | _ => simp [types]

theorem saysSomething_of_isLocallySound (h : node.IsLocallySound) :
    ∀ order ∈ node.order?, order.SaysSomething := by
  cases node with
  | query body => exact fun order horder => (h.2 order horder).saysSomething
  | expr body =>
    have hbody := h.1
    cases body with
    | arrayAgg => exact fun order horder => (hbody.2.1 order horder).saysSomething
    | stringAgg => exact fun order horder => (hbody.2.2.1 order horder).saysSomething
    | _ => simp [order?, Expr.order?]
  | _ => simp [order?]

theorem countsInNumbers_of_isLocallySound (h : node.IsLocallySound) :
    ∀ frame ∈ node.frame?, frame.CountsInNumbers := by
  cases node with
  | expr body =>
    have hbody := h.1
    have hwindow : ∀ window ∈ body.window?, window.IsSound := by
      cases body with
      | arrayAgg => exact hbody.2.2.1
      | stringAgg => exact hbody.2.2.2.1
      | «over» operand window => simpa [Expr.window?] using hbody.2
      | _ => simp [Expr.window?]
    intro frame hframe
    obtain ⟨window, hmem, hframe⟩ := Option.bind_eq_some_iff.mp hframe
    exact ((hwindow window hmem).frame frame hframe).countsInNumbers
  | _ => simp [frame?]

theorem hasParts_of_isLocallySound (h : node.IsLocallySound) : node.HasParts := by
  cases node with
  | statement body =>
    obtain ⟨comments, action⟩ := body
    cases action with
    | insert insertion =>
      obtain ⟨table, columns, source⟩ := insertion
      cases source with
      | query body => trivial
      | values rows => exact h.action.source.1
    | _ => trivial
  | function definition =>
    intro language code options hforeign
    have hbody := h.body
    rw [hforeign] at hbody
    have hkind : code.kind.tokenKind = .string := hbody.2.2.1
    cases hcode : code.kind <;> simp [hcode, ConstantKind.tokenKind] at hkind ⊢
  | query body => exact h.1
  | setExpr body =>
    cases body with
    | combine op quantifier left right =>
      cases right with
      | combine => cases h
      | _ => rfl
    | _ => trivial
  | select body => exact h.items
  | tableExpr table =>
    cases table with
    | join left kind right condition =>
      obtain ⟨hright, hcondition, -⟩ := h
      refine ⟨?_, ?_⟩
      · cases right with
        | join => cases hright
        | _ => rfl
      · rintro (rfl | rfl)
        · simpa [JoinKind.takesCondition] using hcondition
        · simpa [JoinKind.takesCondition] using hcondition
    | _ => trivial
  | expr body =>
    have hbody := h.1
    cases body with
    | call function distinct args nulls =>
      obtain ⟨hfunction, hargs⟩ := hbody
      refine ⟨hfunction.isCallee, fun hmodified hnil => ?_⟩
      obtain ⟨rfl, rfl⟩ := hargs hnil
      simp at hmodified
    | case operand branches otherwise => exact hbody.2.1
    | member operand negated target =>
      cases target with
      | list items => exact hbody.1
      | _ => trivial
    | _ => trivial
  | _ => trivial

theorem isWellFormed_of_isLocallySound (h : node.IsLocallySound) : node.IsWellFormed where
  names := isFree_of_isLocallySound h
  types := hasNumericParams_of_isLocallySound h
  order := saysSomething_of_isLocallySound h
  frame := countsInNumbers_of_isLocallySound h
  parts := hasParts_of_isLocallySound h

end Node

end Sound

namespace Script

/-- Every node of every script that is read is well formed. -/
theorem isWellFormed_of_ofSource {source : String} {script : Script}
    (h : Script.ofSource source = .ok script) : ∀ node ∈ script.nodes, node.IsWellFormed :=
  fun node hnode => Node.isWellFormed_of_isLocallySound (isSound_of_ofSource h node hnode)

/-- A call of a reserved word, a frame and a comma between tables. -/
theorem isWellFormed_of_ofSource_window :
    ∃ script, Script.ofSource "SELECT IF(a, 1, 2) OVER (ROWS 1 PRECEDING) `all` FROM t, u LIMIT 1 OFFSET 2"
        = .ok script ∧
      ∀ node ∈ script.nodes, node.IsWellFormed := by
  have hread : (Script.ofSource
      "SELECT IF(a, 1, 2) OVER (ROWS 1 PRECEDING) `all` FROM t, u LIMIT 1 OFFSET 2").isOk := by
    decide +kernel
  obtain ⟨script, hscript⟩ := exists_of_isOk hread
  exact ⟨script, hscript, isWellFormed_of_ofSource hscript⟩

end Script

end SqlLayout
