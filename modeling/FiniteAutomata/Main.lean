import FiniteAutomata.Command.Evaluation
import FiniteAutomata.Log.Line

namespace FiniteAutomata
namespace Command

/-!
# The command line

Lays the files that an invocation may touch before the evaluation as a tree,
carries out what it tells, and leaves with its exit code.
-/

def look (path : Path) : IO (Option FileNode) := do
  try
    return some (.file (← IO.FS.readBinFile path.toText).toList)
  catch trouble =>
    match trouble with
    | .inappropriateType .. => return some .directory
    | _ => return none

/-- The tree of some paths and of what stands on the way to them. -/
def snapshot (texts : List String) : IO FileTree := do
  let mut nodes := []
  for text in texts do
    let path := Path.ofText text
    for place in path.ancestors ++ [path] do
      if let some node ← look place then
        nodes := nodes ++ [(place.resolved, node)]
  return ⟨nodes⟩

/-- The variables of the environment that matter. -/
def readEnvironment : IO Settings.Environment := do
  let mut environment := []
  for name in Settings.fileVariable :: Settings.fieldVariables.map Prod.fst do
    if let some text ← IO.getEnv name then
      environment := environment ++ [(name, text)]
  return environment

/-- The next piece of a stream up to a line feed, or none at its end.  The stream
is read as a text, so carriage returns end lines as well. -/
def nextPiece? (stream : IO.FS.Stream) : IO (Option String) := do
  let piece ← stream.getLine
  return if piece.isEmpty then none
    else some (String.ofList (Text.normalizeBreaks piece.toList))

/-- The rest of a stream. -/
partial def readRest (stream : IO.FS.Stream) (begun : String) : IO String := do
  match ← nextPiece? stream with
  | some piece => readRest stream (begun ++ piece)
  | none => return begun

/-- Carry out an invocation, and read on in the input whenever it is out of
answers.  The output is printed as it comes. -/
partial def converse (surroundings : Surroundings) (invocation : Invocation) (printed : Nat) :
    IO Outcome := do
  let outcome := invocation.perform surroundings
  let output := outcome.report.output
  (← IO.getStdout).putStr (String.ofList (output.toList.drop printed))
  (← IO.getStdout).flush
  match outcome.report.ending with
  | .error .outOfAnswers =>
    match ← nextPiece? (← IO.getStdin) with
    | some piece =>
      let surroundings := { surroundings with input := surroundings.input ++ piece }
      converse surroundings invocation output.length
    | none => return outcome
  | _ => return outcome

def writeFiles (before : FileTree) (outcome : Outcome) : IO Unit := do
  let logs := outcome.logs.map fun file => file.1.resolved
  for (path, octets) in outcome.files.changesSince before do
    unless logs.contains path do
      IO.FS.writeBinFile path.toText ⟨octets.toArray⟩
  for (path, entries) in outcome.logs do
    let place := path.resolved
    let directory : Path := { place with names := place.names.dropLast }
    IO.FS.createDirAll directory.toText
    let handle ← IO.FS.Handle.mk place.toText .append
    handle.putStr (Log.linesOf entries)

/-- Carry out an invocation in the real surroundings. -/
def carryOut (invocation : Invocation) : IO UInt32 := do
  let environment ← readEnvironment
  let workingDirectory := (← IO.currentDir).toString
  let texts := ["config/dfa.yaml"] ++ invocation.configuration.toList ++
    (environment.lookup Settings.fileVariable).toList ++
    (invocation.action.specification?.filter (· != "-")).toList ++
    invocation.action.output?.toList
  let files ← snapshot texts
  let input ←
    if invocation.action.specification? == some "-" then readRest (← IO.getStdin) "" else pure ""
  let surroundings : Surroundings := ⟨files, environment, workingDirectory, input⟩
  let directory :=
    match settingsFor surroundings invocation with
    | .ok settings => settings.logDirectory
    | .error _ => none
  let files ← snapshot (texts ++ directory.toList.flatMap fun text =>
    [text ++ "/app.log", text ++ "/error.log"])
  let outcome ← converse { surroundings with files := files } invocation 0
  writeFiles files outcome
  let errors ← IO.getStderr
  errors.putStr (Log.linesOf outcome.console)
  errors.putStr outcome.report.errors
  match outcome.report.ending with
  | .ok code => return code.number.toUInt32
  | .error failure =>
    errors.putStr (Report.line failure.message)
    return 1

def usageText : String :=
  "usage: dfa [--config FILE] [--log-level LEVEL] (show | run | build) ...\n" ++
  "  show [FILE | - | --sample] [--states] [--alphabet] [--start] [--accept]\n" ++
  "       [--tuple] [--transitions] [--dot] [--spec]\n" ++
  "  run [FILE | - | --sample] WORD... [--trace] [--json]\n" ++
  "  build [--output FILE]\n"

end Command
end FiniteAutomata

def main (arguments : List String) : IO UInt32 := do
  match FiniteAutomata.Command.Invocation.ofArguments arguments with
  | .ok invocation => FiniteAutomata.Command.carryOut invocation
  | .error .help =>
    (← IO.getStdout).putStr FiniteAutomata.Command.usageText
    return 0
  | .error .misuse =>
    (← IO.getStderr).putStr FiniteAutomata.Command.usageText
    return 2
