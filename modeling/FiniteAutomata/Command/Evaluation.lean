import FiniteAutomata.Command.Build
import FiniteAutomata.Command.Running
import FiniteAutomata.Log.Book
import FiniteAutomata.Specification.File
import FiniteAutomata.Specification.Sample

namespace FiniteAutomata
namespace Command

open Log (Entry Event Reported)

/-!
# Carrying out an invocation

A command as a function of what it can see: its arguments, the files, the
environment and the standard input.  First the settings are loaded, then the
log is opened, and then the command is carried out.  Settings that are wrong,
a specification that is not there and one that is ill formed are refused in
one line; other troubles with files break the command off.
-/

/-- What a command can see. -/
structure Surroundings where
  files : FileTree
  environment : Settings.Environment
  workingDirectory : String
  input : String

/-- What a command leaves behind: its report, the entries that reached the
console, the log files that were made or written on with their new entries,
and the files. -/
structure Outcome where
  report : Report
  console : List Entry
  logs : List (Path × List Entry)
  files : FileTree

/-! ## Settings -/

/-- What is wrong with a configuration in words, if it can be said in one
line. -/
def configurationMessage? : Settings.Failure → Option String
  | .file (.missing name) => some (FileFault.missing name).message
  | .file .nullCharacter => some FileFault.nullCharacter.message
  | .octets fault => some fault.message
  | .configuration fault => fault.message?
  | .notMapping name => some (Settings.notMappingMessage name)
  | .rejected rejected => some (Settings.rejectedMessage rejected)
  | _ => none

/-- The report on a configuration that gives no settings. -/
def configurationReport (failure : Settings.Failure) : Report :=
  match configurationMessage? failure with
  | some message => .refused ("invalid configuration: " ++ message)
  | none => .failed (.settings failure)

/-- The settings for an invocation: those that are loaded, with the level that
the arguments ask for. -/
def settingsFor (surroundings : Surroundings) (invocation : Invocation) :
    Except Settings.Failure Settings :=
  match Settings.load surroundings.files surroundings.environment surroundings.workingDirectory
      invocation.configuration with
  | .error failure => .error failure
  | .ok settings =>
    match invocation.logLevel.filter (· != "") with
    | some name => (settings.withLevel name).mapError .rejected
    | none => .ok settings

/-! ## The automaton -/

/-- Why an automaton cannot be shown or run. -/
inductive SourceFailure where
  | twoSources
  | noSource
  | specification (failure : Specification.FileFailure)
deriving DecidableEq, Repr

def readSource (surroundings : Surroundings) (truncate : Bool) (source : SourceChoice) :
    Reported SourceFailure Automaton :=
  match source.sample, source.specification with
  | true, some _ => .silent (.error .twoSources)
  | false, none => .silent (.error .noSource)
  | true, none =>
    (Specification.read truncate Specification.sample).widen fun fault =>
      .specification (.specification fault)
  | false, some name =>
    if name = "-" then
      (Specification.read truncate surroundings.input).widen fun fault =>
        .specification (.specification fault)
    else
      (Specification.readPath truncate surroundings.files (Path.ofText name)).widen .specification

/-- The report on a source that gives no automaton. -/
def sourceReport : SourceFailure → Report
  | .twoSources => .refused "give either a specification file or --sample, not both"
  | .noSource => .refused "a specification file, '-' or --sample is required"
  | .specification (.specification fault) => .refused fault.message
  | .specification (.file (.missing name)) =>
    let message := (FileFault.missing name).message
    (Report.refused message).after [.specificationMissing message]
  | .specification (.file fault) => .failed (.file fault)
  | .specification (.octets fault) => .failed (.octets fault)

/-- Go on with the automaton of a source. -/
def withAutomaton (surroundings : Surroundings) (truncate : Bool) (source : SourceChoice)
    (next : Automaton → Report) : Report :=
  match readSource surroundings truncate source with
  | ⟨events, .ok automaton⟩ => (next automaton).after events
  | ⟨events, .error failure⟩ => (sourceReport failure).after events

/-! ## The whole command -/

def Action.perform (surroundings : Surroundings) (settings : Settings) :
    Action → Report × FileTree
  | .display source sections =>
    (withAutomaton surroundings settings.truncateSymbols source fun automaton =>
      showSections automaton sections, surroundings.files)
  | .run source words trace json =>
    (withAutomaton surroundings settings.truncateSymbols source fun automaton =>
      runWords automaton settings.maxWordLength trace json words, surroundings.files)
  | .build name => buildByInterview surroundings.files surroundings.input name

/-- A report of which nothing is logged. -/
def Outcome.unlogged (files : FileTree) (report : Report) : Outcome :=
  ⟨report, [], [], files⟩

def Invocation.perform (surroundings : Surroundings) (invocation : Invocation) : Outcome :=
  match settingsFor surroundings invocation with
  | .error failure => .unlogged surroundings.files (configurationReport failure)
  | .ok settings =>
    let before := surroundings.files
    match Log.Book.create surroundings.workingDirectory before settings.logLevel.rank
        settings.logDirectory with
    | (book, files, some fault) =>
      ⟨.failed (.file fault), [], book.changed before [], files⟩
    | (book, files, none) =>
      let (report, after) := invocation.action.perform { surroundings with files := files } settings
      let entries := report.events.map Event.entry
      ⟨report, book.console entries, book.changed before entries, after⟩

def evaluate (surroundings : Surroundings) (arguments : List String) : Except Usage Outcome :=
  match Invocation.ofArguments arguments with
  | .ok invocation => .ok (invocation.perform surroundings)
  | .error usage => .error usage

end Command
end FiniteAutomata
