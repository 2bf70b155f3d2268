import SqlLayout.Command.Batch

/-!
# What a Batch Comes To

Each input adds its part to a batch, whatever was added before it: a script adds text or dependencies, and
an input that cannot be read adds a report and counts as a failure. So what a batch has come to after some
inputs is told by the parts of these, and inputs that cannot be read leave no trace in the output.
-/

namespace SqlLayout

/-- What an input is read as. -/
def Input.script? (input : Input) : Option Script :=
  (Script.ofSource input.text).toOption

def Input.isReadable (input : Input) : Bool :=
  input.script?.isSome

namespace DependencyGraph

end DependencyGraph

namespace Job

variable (job : Job)

/-- The text that a script adds to the output. -/
def scriptText (script : Script) : String :=
  match job.kind with
  | .format => script.render job.style ++ "\n"
  | .tree => script.outline.render
  | .graph => ""

/-- The dependencies that a script adds to the graph. -/
def scriptEdges (script : Script) : List Dependency :=
  match job.kind with
  | .format | .tree => []
  | .graph => script.dependencies

/-- The report that an input adds to the diagnostics, if it cannot be read. -/
def report? (input : Input) : Option String :=
  match Script.ofSource input.text with
  | .ok _ => none
  | .error failure => some (endLine (job.report input failure))

/-- The graph of all dependencies in some scripts. -/
def graph (scripts : List Script) : DependencyGraph :=
  let graph := DependencyGraph.ofList (scripts.flatMap Script.dependencies)
  if job.reducesGraph then graph.reduce else graph

end Job

namespace Progress

/-- How far a batch has come when some inputs have added their parts. -/
def after (job : Job) (inputs : List Input) (progress : Progress) : Progress where
  outcome :=
    { output := progress.outcome.output ++ String.join ((inputs.filterMap Input.script?).map job.scriptText)
      diagnostics := progress.outcome.diagnostics ++ String.join (inputs.filterMap job.report?)
      failures := progress.outcome.failures + (inputs.filterMap job.report?).length }
  graph := progress.graph.insertAll ((inputs.filterMap Input.script?).flatMap job.scriptEdges)

variable {job : Job}

end Progress

namespace Job

variable (job : Job) (inputs : List Input)

end Job

end SqlLayout
