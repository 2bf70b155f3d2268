import SqlLayout.Diagnostic.Report
import SqlLayout.Doc.Statement
import SqlLayout.Grammar.Statement
import SqlLayout.Lineage.Graph
import SqlLayout.Outline.Statement

/-!
# Batches

A batch is a number of sources to be turned into one output. Sources are independent: one that cannot be
read adds a report and nothing else, and the others are still turned into output.
-/

namespace SqlLayout

inductive OutputKind where
  | format | tree | graph
deriving DecidableEq, Inhabited

/-- A source and the name that reports call it by. -/
structure Input where
  name : String
  text : String
deriving DecidableEq, Inhabited

/-- What is made of a batch. -/
structure Job where
  kind : OutputKind := .format
  style : Style := {}
  /-- Whether a graph is shown without the dependencies that follow from others. -/
  reducesGraph : Bool := false
  isColored : Bool := false
deriving DecidableEq, Inhabited

/-- What became of a batch. -/
structure Outcome where
  output : String := ""
  diagnostics : String := ""
  failures : Nat := 0
deriving DecidableEq, Inhabited

/-- A report as it stands among others: its last line is ended, unless it is already. -/
def endLine (report : String) : String :=
  if report.toList.getLast? = some '\n' then report else report ++ "\n"

namespace Outcome

def print (outcome : Outcome) (text : String) : Outcome :=
  { outcome with output := outcome.output ++ text }

def fail (outcome : Outcome) (report : String) : Outcome :=
  { outcome with
    diagnostics := outcome.diagnostics ++ endLine report
    failures := outcome.failures + 1 }

end Outcome

/-- How far a batch has come. A graph grows with the inputs and is drawn after the last one. -/
structure Progress where
  outcome : Outcome
  graph : DependencyGraph
deriving DecidableEq, Inhabited

def Progress.start : Progress :=
  { outcome := {}, graph := default }

namespace Job

/-- The report on an input that cannot be read. -/
def report (job : Job) (input : Input) (failure : Failure) : String :=
  failure.diagnostic.report input.text (some input.name) job.isColored

def addScript (job : Job) (progress : Progress) (script : Script) : Progress :=
  match job.kind with
  | .format => { progress with outcome := progress.outcome.print (script.render job.style ++ "\n") }
  | .tree => { progress with outcome := progress.outcome.print script.outline.render }
  | .graph => { progress with graph := progress.graph.insertAll script.dependencies }

def addInput (job : Job) (progress : Progress) (input : Input) : Progress :=
  match Script.ofSource input.text with
  | .ok script => job.addScript progress script
  | .error failure => { progress with outcome := progress.outcome.fail (job.report input failure) }

def finish (job : Job) (progress : Progress) : Outcome :=
  match job.kind with
  | .format | .tree => progress.outcome
  | .graph =>
    let graph := progress.graph
    let shown := if job.reducesGraph && !graph.edges.isEmpty then graph.reduce else graph
    { progress.outcome with output := shown.dot }

def run (job : Job) (inputs : List Input) : Outcome :=
  job.finish (inputs.foldl job.addInput .start)

end Job

end SqlLayout
