import SqlLayout.Command.Batch

/-!
# Command Line Options

The words of a command line are read from left to right. A word that needs nothing after it takes effect
at once; an option that needs a value, the value it gets, and a run of inputs stay pending until the next
word that does not belong to them, so a mistake in them is found only then. A word that is no option at
all is found at once. After `--` every word is an input.
-/

namespace SqlLayout

inductive ColorChoice where
  | auto | always | never
deriving DecidableEq, Inhabited

/-- Whether reports are coloured, given whether they go to a terminal. -/
def ColorChoice.isColored (isTerminal : Bool) : ColorChoice → Bool
  | auto => isTerminal
  | always => true
  | never => false

structure Options where
  inputs : List String
  kind : OutputKind := .format
  style : Style := {}
  reducesGraph : Bool := false
  /-- Where the output goes, if not to the standard output. -/
  output : Option String := none
  color : ColorChoice := .auto
  verbosity : Nat := 0
deriving DecidableEq, Inhabited

/-- Why a command line does not describe a run. -/
inductive UsageError where
  | help
  | nothingGiven
  | noInput
  | invalidValue
  | invalidNumber
  | unknownArgument
  | repeated
  | needlessValue
deriving DecidableEq, Inhabited

/-- Asking for help is no mistake. -/
def UsageError.exitCode : UsageError → Nat
  | help => 0
  | _ => 2

namespace Options

/-- An option with a value. -/
inductive Setting where
  | kind | width | indent | output | color
deriving DecidableEq, Inhabited

/-- An option without one. -/
inductive Switch where
  | compact | reduceGraph | verbose | help
deriving DecidableEq, Inhabited

inductive Name where
  | setting (setting : Setting)
  | switch (switch : Switch)
deriving DecidableEq, Inhabited

def longNames : List (String × Name) :=
  [("type", .setting .kind), ("width", .setting .width), ("indent", .setting .indent),
   ("output", .setting .output), ("color", .setting .color), ("compact", .switch .compact),
   ("graph-minimise", .switch .reduceGraph), ("help", .switch .help)]

def shortNames : List (Char × Name) :=
  [('o', .setting .output), ('v', .switch .verbose), ('h', .switch .help)]

/-- What is not known to be complete yet. -/
inductive Pending where
  | setting (setting : Setting) (value : Option String)
  | inputs (paths : List String)
deriving DecidableEq, Inhabited

/-- What the words read so far say. -/
structure Draft where
  inputs : List String := []
  kind : Option OutputKind := none
  width : Option Nat := none
  indent : Option Nat := none
  output : Option String := none
  color : Option ColorChoice := none
  isCompact : Bool := false
  reducesGraph : Bool := false
  verbosity : Nat := 0
  pending : Option Pending := none
deriving DecidableEq, Inhabited

/-- How often verbosity can be raised. -/
def maxVerbosity : Nat := 255

def kind? : String → Option OutputKind
  | "format" => some .format
  | "tree" => some .tree
  | "graph" => some .graph
  | _ => none

def color? : String → Option ColorChoice
  | "auto" => some .auto
  | "always" => some .always
  | "never" => some .never
  | _ => none

/-- The number some digits stand for, the most significant one first. -/
def ofDigits (digits : List Char) : Nat :=
  digits.foldl (fun value digit => 10 * value + (digit.toNat - '0'.toNat)) 0

/-- A decimal number of at most 64 bits, perhaps after a plus sign. -/
def number? (text : String) : Option Nat :=
  let digits :=
    match text.toList with
    | '+' :: digits => digits
    | digits => digits
  if digits.isEmpty || !digits.all Char.isDigit then none
  else if ofDigits digits ≤ Page.maxWidth then some (ofDigits digits)
  else none

/-- A value that has to be one of a kind, or the error that it is not. -/
def orError {α : Type} (error : UsageError) : Option α → Except UsageError α
  | some value => .ok value
  | none => .error error

def path? (text : String) : Option String :=
  if text.isEmpty then none else some text

namespace Draft

def has (draft : Draft) : Setting → Bool
  | .kind => draft.kind.isSome
  | .width => draft.width.isSome
  | .indent => draft.indent.isSome
  | .output => draft.output.isSome
  | .color => draft.color.isSome

/-- Gives an option its value; no option can be given two. -/
def set (draft : Draft) (setting : Setting) (value : String) : Except UsageError Draft := do
  if draft.has setting then throw .repeated
  match setting with
  | .kind => return { draft with kind := ← orError .invalidValue (kind? value) }
  | .width => return { draft with width := ← orError .invalidNumber (number? value) }
  | .indent => return { draft with indent := ← orError .invalidNumber (number? value) }
  | .output => return { draft with output := ← orError .invalidValue (path? value) }
  | .color => return { draft with color := ← orError .invalidValue (color? value) }

/-- Takes what is pending for complete. -/
def resolve (draft : Draft) : Except UsageError Draft :=
  let settled := { draft with pending := none }
  match draft.pending with
  | none => .ok draft
  | some (.setting _ none) => .error .invalidValue
  | some (.setting setting (some value)) => settled.set setting value
  | some (.inputs paths) =>
    if paths.any String.isEmpty then .error .invalidValue
    else .ok { settled with inputs := draft.inputs ++ paths }

def turnOn (draft : Draft) (switch : Switch) : Except UsageError Draft := do
  let draft ← draft.resolve
  match switch with
  | .compact => if draft.isCompact then throw .repeated else return { draft with isCompact := true }
  | .reduceGraph =>
    if draft.reducesGraph then throw .repeated else return { draft with reducesGraph := true }
  | .verbose => return { draft with verbosity := min (draft.verbosity + 1) maxVerbosity }
  | .help => throw .help

/-- Starts an option whose value is the next word, or part of its own. -/
def start (draft : Draft) (setting : Setting) (attached : Option String) :
    Except UsageError Draft := do
  let draft ← draft.resolve
  match attached with
  | some value => draft.set setting value
  | none => return { draft with pending := some (.setting setting none) }

/-- Reads an option after two hyphens. -/
def long (draft : Draft) (name : String) (attached : Option String) : Except UsageError Draft :=
  match longNames.lookup name, attached with
  | none, _ => .error .unknownArgument
  | some (.setting setting), _ => draft.start setting attached
  | some (.switch _), some _ => .error .needlessValue
  | some (.switch switch), none => draft.turnOn switch

/-- A value right after its option, perhaps with an equals sign between them. -/
def attachedValue? : List Char → Option String
  | [] => none
  | '=' :: value => some (String.ofList value)
  | value => some (String.ofList value)

/-- Reads the options after a single hyphen; one with a value is the last. -/
def shorts (draft : Draft) : List Char → Except UsageError Draft
  | [] => .ok draft
  | c :: cs =>
    match shortNames.lookup c with
    | none => .error .unknownArgument
    | some (.setting setting) => draft.start setting (attachedValue? cs)
    | some (.switch switch) => do (← draft.turnOn switch).shorts cs

/-- Reads an input, which joins those right before it. -/
def input (draft : Draft) (path : String) : Except UsageError Draft :=
  match draft.pending with
  | some (.inputs paths) => .ok { draft with pending := some (.inputs (paths ++ [path])) }
  | _ => do return { ← draft.resolve with pending := some (.inputs [path]) }

/-- Splits an option after two hyphens at its first equals sign. -/
def splitValue (word : List Char) : String × Option String :=
  let name := word.takeWhile (· ≠ '=')
  (String.ofList name,
    match word.drop name.length with
    | [] => none
    | _ :: value => some (String.ofList value))

/-- Reads a word before `--`. -/
def word (draft : Draft) (text : String) : Except UsageError Draft :=
  match text.toList with
  | '-' :: '-' :: option =>
    let (name, attached) := splitValue option
    draft.long name attached
  | '-' :: c :: cs => draft.shorts (c :: cs)
  | _ =>
    match draft.pending with
    | some (.setting setting none) =>
      .ok { draft with pending := some (.setting setting (some text)) }
    | _ => draft.input text

def words (draft : Draft) : List String → Except UsageError Draft
  | [] => .ok draft
  | text :: rest =>
    if text = "--" then rest.foldlM input draft
    else do (← draft.word text).words rest

/-- Whether no word has said anything. -/
def isBlank (draft : Draft) : Bool :=
  draft = {}

/-- The options that the words of a whole command line describe. -/
def finish (draft : Draft) : Except UsageError Options := do
  let draft ← draft.resolve
  if draft.isBlank then throw .nothingGiven
  if draft.inputs.isEmpty then throw .noInput
  let page : Page := { width := draft.width.getD 80, indent := draft.indent.getD 2 }
  return {
    inputs := draft.inputs
    kind := draft.kind.getD .format
    style := { compact := draft.isCompact, page }
    reducesGraph := draft.reducesGraph
    output := draft.output
    color := draft.color.getD .auto
    verbosity := draft.verbosity }

end Draft

/-- Reads a command line, without the name of the program. -/
def ofArgs (args : List String) : Except UsageError Options := do
  (← Draft.words {} args).finish

/-- What a run with these options makes of its inputs. -/
def job (options : Options) (isTerminal : Bool) : Job :=
  { kind := options.kind, style := options.style, reducesGraph := options.reducesGraph
    isColored := options.color.isColored isTerminal }

end Options

end SqlLayout
