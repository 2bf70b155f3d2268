import SqlLayout.Command.Run

/-!
# The Program

Reads files and the standard input, and hands everything else to a run. A command line that describes no
run is answered with the usage.
-/

namespace SqlLayout.Main

def usage : String :=
  "Usage: sqllayout [OPTIONS] <SQL>...

Lays out, outlines and analyses SQL.

Arguments:
  <SQL>...  SQL input files (- for the standard input)

Options:
      --type <TYPE>     Output type [format, tree, graph]
      --compact         As few lines as possible
      --width <N>       Maximum line width
      --indent <N>      Blanks per indentation level
      --graph-minimise  Leave out dependencies that follow from others
  -o, --output <FILE>   Write the output to a file
      --color <WHEN>    Colour diagnostics [auto, always, never]
  -v                    Verbosity level
  -h, --help            Print help
"

/-- The text of some bytes that were read. -/
def decode (content : ByteArray) : Except String String :=
  match String.fromUTF8? content with
  | some text => .ok text
  | none => .error AccessError.notText.message

/-- Why something went wrong outside the program. -/
def cause : IO.Error → String
  | .noFileOrDirectory .. => AccessError.notFound.message
  | error => toString error

/-- Runs an action and turns what goes wrong into a cause. -/
def causing {α : Type} (action : IO (Except String α)) : IO (Except String α) := do
  try action
  catch error => return .error (cause error)

def load (path : String) : IO (Except AccessFailure Input) := do
  if path = Options.standardInput then
    let text ← causing do return decode (← (← IO.getStdin).readBinToEnd)
    return (text.map fun text => { name := Options.standardInputName, text }).mapError .standardInput
  else
    let text ← causing do return decode (← IO.FS.readBinFile path)
    return (text.map fun text => { name := path, text }).mapError (.file path)

/-- Writes the output where it belongs. -/
def write (path : Option String) (text : String) : IO (Except AccessFailure Unit) := do
  match path with
  | some path =>
    let done ← causing do return .ok (← IO.FS.writeBinFile path text.toUTF8)
    return done.mapError (.output path)
  | none =>
    let stdout ← IO.getStdout
    let done ← causing do
      stdout.putStr text
      return .ok (← stdout.flush)
    return done.mapError .standardOutput

def run (options : Options) : IO UInt32 := do
  let stdout ← IO.getStdout
  let stderr ← IO.getStderr
  let isTerminal := (← stdout.isTty) && (← stderr.isTty)
  let outcome := options.outcome isTerminal (← options.inputs.mapM load)
  stderr.putStr outcome.diagnostics
  match ← write options.output outcome.output with
  | .ok _ => return outcome.exitCode.toUInt32
  | .error failure =>
    stderr.putStr failure.line
    return 1

end SqlLayout.Main

def main (args : List String) : IO UInt32 := do
  match SqlLayout.Options.ofArgs args with
  | .ok options => SqlLayout.Main.run options
  | .error error =>
    let stream ← if error.exitCode = 0 then IO.getStdout else IO.getStderr
    stream.putStr SqlLayout.Main.usage
    return error.exitCode.toUInt32
