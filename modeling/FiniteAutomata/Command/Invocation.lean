import FiniteAutomata.Command.Grammar

namespace FiniteAutomata
namespace Command

/-!
# Invocations

What the command line is asked to do: show an automaton, run words through
one, or build one by an interview.  Options for the settings stand in front of
the command.
-/

/-- The ways to an automaton that the arguments name: a specification, whose
name is a hyphen if it is read from the standard input, and the sample. -/
structure SourceChoice where
  specification : Option String
  sample : Bool
deriving DecidableEq, Repr

/-- A part of an automaton that can be shown. -/
inductive Section where
  | states
  | alphabet
  | start
  | accepting
  | tuple
  | transitions
  | dot
  | specification
deriving DecidableEq, Repr

inductive Action where
  | display (source : SourceChoice) (sections : List Section)
  | run (source : SourceChoice) (words : List String) (trace json : Bool)
  | build (output : Option String)
deriving DecidableEq, Repr

/-- The specification that an action reads, if there is one. -/
def Action.specification? : Action → Option String
  | .display source _ | .run source _ _ _ => if source.sample then none else source.specification
  | .build _ => none

/-- The file that an action writes, if there is one. -/
def Action.output? : Action → Option String
  | .display .. | .run .. => none
  | .build output => output

/-- What to do, and the settings that the arguments ask for. -/
structure Invocation where
  configuration : Option String
  logLevel : Option String
  action : Action
deriving DecidableEq, Repr

private def flagRule (name : String) : OptionRule := ⟨[name], false⟩

/-- The arguments in front of the command. -/
def mainGrammar : Grammar :=
  ⟨[⟨["--config"], true⟩, ⟨["--log-level"], true⟩], [.command]⟩

/-- The sections with their options, in the order in which they are shown. -/
def sectionOptions : List (String × Section) :=
  [("--states", .states), ("--alphabet", .alphabet), ("--start", .start),
    ("--accept", .accepting), ("--tuple", .tuple), ("--transitions", .transitions),
    ("--dot", .dot), ("--spec", .specification)]

def showGrammar : Grammar :=
  ⟨(flagRule "--sample") :: sectionOptions.map fun entry => flagRule entry.1, [.optional]⟩

def runGrammar : Grammar :=
  ⟨["--sample", "--trace", "--json"].map flagRule, [.optional, .several]⟩

def buildGrammar : Grammar :=
  ⟨[⟨["--output", "-o"], true⟩], []⟩

/-- The source that arguments choose. -/
def sourceChoice (matched : Matched) : SourceChoice :=
  ⟨(matched.positionals.headD []).head?, matched.has "--sample"⟩

/-- The run that arguments choose.  With the sample there is no specification,
so that every argument is a word. -/
def runAction (matched : Matched) : Action :=
  let source := sourceChoice matched
  let words := (matched.positionals.drop 1).headD []
  let trace := matched.has "--trace"
  let json := matched.has "--json"
  if source.sample then .run ⟨none, true⟩ (source.specification.toList ++ words) trace json
  else .run source words trace json

/-- The action that a command and its arguments ask for, and the arguments
that fit nowhere. -/
def actionOf (command : String) (arguments : List String) : Except Usage (Action × List String) :=
  if command = "show" then
    (showGrammar.parse arguments).map fun matched =>
      (.display (sourceChoice matched)
        ((sectionOptions.filter fun entry => matched.has entry.1).map Prod.snd), matched.extras)
  else if command = "run" then
    (runGrammar.parse arguments).map fun matched => (runAction matched, matched.extras)
  else if command = "build" then
    (buildGrammar.parse arguments).map fun matched =>
      (.build (matched.value? "--output"), matched.extras)
  else
    .error .misuse

def Invocation.ofArguments (arguments : List String) : Except Usage Invocation :=
  match mainGrammar.parse arguments with
  | .error usage => .error usage
  | .ok matched =>
    match matched.positionals with
    | (command :: rest) :: _ =>
      match actionOf command rest with
      | .error usage => .error usage
      | .ok (chosen, extras) =>
        if matched.extras.isEmpty && extras.isEmpty then
          .ok ⟨matched.value? "--config", matched.value? "--log-level", chosen⟩
        else
          .error .misuse
    | _ => .error .misuse

end Command
end FiniteAutomata
