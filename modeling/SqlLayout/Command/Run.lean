import SqlLayout.Command.Options
import SqlLayout.Command.Workspace

/-!
# Runs

A run reads its inputs, makes one output of those that could be read, and writes it even if others could
not. It succeeds if nothing went wrong. The input `-` stands for the standard input, which can be read
only once.
-/

namespace SqlLayout

/-- A file or stream that could not be read or written, and why. -/
inductive AccessFailure where
  | file (path cause : String)
  | standardInput (cause : String)
  | output (path cause : String)
  | standardOutput (cause : String)
deriving DecidableEq, Inhabited

def AccessFailure.message : AccessFailure → String
  | file path cause => "failed to read '" ++ path ++ "': " ++ cause
  | standardInput cause => "failed to read stdin: " ++ cause
  | output path cause => "failed to write '" ++ path ++ "': " ++ cause
  | standardOutput cause => "failed to write output: " ++ cause

/-- The line that tells of a failure. -/
def AccessFailure.line (failure : AccessFailure) : String :=
  "error: " ++ failure.message ++ "\n"

namespace Options

/-- The path that stands for the standard input. -/
def standardInput : String := "-"

/-- What the standard input is called in reports. -/
def standardInputName : String := "<stdin>"

/-- What becomes of inputs some of which could not be loaded. -/
def outcome (options : Options) (isTerminal : Bool) (loaded : List (Except AccessFailure Input)) :
    Outcome :=
  let unread := loaded.filterMap fun
    | .ok _ => none
    | .error failure => some failure.line
  let outcome := (options.job isTerminal).run (loaded.filterMap Except.toOption)
  { outcome with
    diagnostics := String.join unread ++ outcome.diagnostics
    failures := unread.length + outcome.failures }

end Options

def Outcome.exitCode (outcome : Outcome) : Nat :=
  if outcome.failures = 0 then 0 else 1

/-- What a run leaves behind. -/
structure RunResult where
  exitCode : Nat
  output : String
  diagnostics : String
  workspace : Workspace
deriving Inhabited

namespace Workspace

def load (workspace : Workspace) (path : String) : Except AccessFailure Input :=
  match workspace.read path with
  | .ok text => .ok { name := path, text }
  | .error cause => .error (.file path cause.message)

/-- Loads inputs in order; the standard input is empty once it has been read. -/
def loadAll (workspace : Workspace) (stdin : String) : List String → List (Except AccessFailure Input)
  | [] => []
  | path :: paths =>
    if path = Options.standardInput then
      .ok { name := Options.standardInputName, text := stdin } :: workspace.loadAll "" paths
    else workspace.load path :: workspace.loadAll stdin paths

/-- Runs a program in a workspace, away from any terminal. -/
def run (workspace : Workspace) (stdin : String) (options : Options) : RunResult :=
  let outcome := options.outcome false (workspace.loadAll stdin options.inputs)
  let diagnostics := outcome.diagnostics
  match options.output with
  | none => { exitCode := outcome.exitCode, output := outcome.output, diagnostics, workspace }
  | some path =>
    match workspace.write path outcome.output with
    | .ok workspace => { exitCode := outcome.exitCode, output := "", diagnostics, workspace }
    | .error cause =>
      { exitCode := 1, output := "", workspace
        diagnostics := diagnostics ++ (AccessFailure.output path cause.message).line }

end Workspace

end SqlLayout
