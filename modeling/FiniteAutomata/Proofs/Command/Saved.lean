import FiniteAutomata.Command.Evaluation
import FiniteAutomata.Proofs.Command.ShownSpecification
import FiniteAutomata.Proofs.Files.ReadBack
import FiniteAutomata.Proofs.Interview.Solid
import FiniteAutomata.Proofs.Specification.DraftRoundTrip
import FiniteAutomata.Proofs.Text.Utf8

namespace FiniteAutomata
namespace Command

/-!
# Saved automata

A specification that was written to a file is read from the file like the text
itself.  What an interview builds has only names that were checked and no blank
symbols, so that a line break inside of a name is all that can keep it from
coming back: without one it loads with its states, its start and its moves, and
runs every word as before.  The check of names lets such line breaks pass.
-/

open Specification (read readPath readOctets write Writable)
open Text (Unbroken)
open Interview (interview)

/-! ## Reading what was written -/

/-- Carriage returns may be written as line feeds. -/
theorem read_normalizeBreaks (truncate : Bool) (text : String) :
    read truncate (String.ofList (Text.normalizeBreaks text.toList)) = read truncate text := by
  unfold Specification.read
  rw [String.toList_ofList, Text.lines_normalizeBreaks]

/-- A text that was written to a file is read from it as a specification. -/
theorem readPath_of_writeText {tree after : FileTree} {name text : String}
    (written : tree.writeText name text = .ok after) (truncate : Bool) :
    readPath truncate after (Path.ofText name) = (read truncate text).widen .specification := by
  rw [readPath, FileTree.read_of_writeText written]
  dsimp only
  rw [readOctets, Text.decode_encode]
  dsimp only
  rw [read_normalizeBreaks]

/-! ## What comes back of an interview -/

/-- The automaton that is loaded is the one that was saved, but for the symbols
that its alphabet cannot be written with. -/
structure Reloaded (automaton again : Automaton) : Prop where
  names : again.stateNames = automaton.stateNames
  flags : again.states.map State.accepting = automaton.states.map State.accepting
  start : again.start = automaton.start
  transitions : again.transitions = automaton.transitions
  runs : ∀ word, again.run word = automaton.run word

/-- What an interview builds can be written, unless a name breaks a line. -/
theorem writable_of_interview {answers : List String} {automaton : Automaton}
    (built : (interview answers).ending = .built automaton)
    (unbroken : ∀ name ∈ automaton.stateNames, Unbroken name.toList) : Writable automaton := by
  rcases Interview.exists_solid_of_interview built with ⟨final, solid, rfl⟩
  refine ⟨solid.proper.fits, unbroken, ?_⟩
  intro move member
  rcases Automaton.mem_transitions_iff.mp member with ⟨state, held, _, named⟩
  rcases List.mem_map.mp named with ⟨used, among, same⟩
  rw [← same]
  exact solid.moves state held used among

/-- Automata that run all words alike are reported alike. -/
theorem runWords_congr {first second : Automaton} (same : ∀ word, first.run word = second.run word)
    (limit : Int) (trace json : Bool) (words : List String) :
    runWords first limit trace json words = runWords second limit trace json words := by
  induction words with
  | nil => rfl
  | cons word rest inductionHypothesis =>
    rw [runWords, runWords, same, inductionHypothesis]

/-- A file that loads is what a command runs its words through. -/
theorem perform_run_of_readPath {surroundings : Surroundings} {settings : Settings} {file : String}
    (named : file ≠ "-") {automaton : Automaton}
    (loads : (readPath settings.truncateSymbols surroundings.files (Path.ofText file)).result =
      .ok automaton) (words : List String) (trace json : Bool) :
    ∃ events, ((Action.run ⟨some file, false⟩ words trace json).perform surroundings settings).1 =
      (runWords automaton settings.maxWordLength trace json words).after events := by
  apply withAutomaton_of_readSource
  unfold readSource
  dsimp only
  rw [if_neg named]
  exact widen_of_ok loads

/-- A build whose file can be written ends well and writes it. -/
theorem buildByInterview_of_writeText {tree after : FileTree} {input file : String}
    {automaton : Automaton} (built : (interview (answersOf input)).ending = .built automaton)
    (named : file ≠ "") (saved : tree.writeText file (write automaton) = .ok after) :
    (buildByInterview tree input (some file)).1.ending = .ok .success ∧
      (buildByInterview tree input (some file)).2 = after := by
  have chosen : (some file).filter (· != "") = some file := by simp [named]
  unfold buildByInterview
  dsimp only
  rw [built]
  dsimp only
  rw [save, chosen]
  dsimp only
  rw [saved]
  exact ⟨rfl, rfl⟩

/-- What an interview builds and a build writes loads again if no name breaks a
line. -/
theorem exists_reloaded {answers : List String} {automaton : Automaton}
    (built : (interview answers).ending = .built automaton) {tree after : FileTree} {file : String}
    (saved : tree.writeText file (write automaton) = .ok after)
    (unbroken : ∀ name ∈ automaton.stateNames, Unbroken name.toList) (truncate : Bool) :
    ∃ again, (readPath truncate after (Path.ofText file)).result = .ok again ∧
      Reloaded automaton again := by
  have readable := Specification.read_write (writable_of_interview built unbroken) truncate
  rw [readPath_of_writeText saved]
  refine ⟨_, widen_of_ok readable, ?_⟩
  exact {
    names := rfl
    flags := rfl
    start := rfl
    transitions := rfl
    runs := Specification.run_withAlphabet _ }

/-- What loads again with the same names has no name that breaks a line. -/
theorem unbroken_of_reloaded {automaton again : Automaton} {tree after : FileTree} {file : String}
    (saved : tree.writeText file (write automaton) = .ok after) {truncate : Bool}
    (loaded : (readPath truncate after (Path.ofText file)).result = .ok again)
    (reloaded : Reloaded automaton again) :
    ∀ name ∈ automaton.stateNames, Unbroken name.toList := by
  rw [readPath_of_writeText saved] at loaded
  rw [← reloaded.names]
  exact (Specification.writable_of_read (widen_eq_ok loaded)).unbroken

/-- What an interview builds and a build writes to a file loads again, with the
same states, flags, start and moves and the same run of every word, exactly if
no state name breaks a line.  Then words run through the file are reported like
words run through the automaton itself. -/
theorem saved_reloads_iff {answers : List String} {automaton : Automaton}
    (built : (interview answers).ending = .built automaton) {tree after : FileTree} {file : String}
    (saved : tree.writeText file (write automaton) = .ok after) :
    (∀ input, answersOf input = answers → file ≠ "" →
      (buildByInterview tree input (some file)).1.ending = .ok .success ∧
        (buildByInterview tree input (some file)).2 = after) ∧
    (∀ truncate, (∃ again, (readPath truncate after (Path.ofText file)).result = .ok again ∧
        Reloaded automaton again) ↔ ∀ name ∈ automaton.stateNames, Unbroken name.toList) ∧
    ((∀ name ∈ automaton.stateNames, Unbroken name.toList) → file ≠ "-" →
      ∀ surroundings settings words trace json, surroundings.files = after → ∃ events,
        ((Action.run ⟨some file, false⟩ words trace json).perform surroundings settings).1 =
          (runWords automaton settings.maxWordLength trace json words).after events) := by
  refine ⟨?_, ?_, ?_⟩
  · rintro input rfl named
    exact buildByInterview_of_writeText built named saved
  · intro truncate
    constructor
    · rintro ⟨again, loaded, reloaded⟩
      exact unbroken_of_reloaded saved loaded reloaded
    · intro unbroken
      exact exists_reloaded built saved unbroken truncate
  · rintro unbroken named surroundings settings words trace json rfl
    rcases exists_reloaded built saved unbroken settings.truncateSymbols with
      ⟨again, loaded, reloaded⟩
    rw [← runWords_congr reloaded.runs]
    exact perform_run_of_readPath named loaded words trace json

/-! ## Two interviews -/

/-- The automaton that an interview ends with. -/
def automatonOf? (answers : List String) : Option Automaton :=
  match (interview answers).ending with
  | .built automaton => some automaton
  | _ => none

theorem ending_of_automatonOf? {answers : List String} {automaton : Automaton}
    (found : automatonOf? answers = some automaton) :
    (interview answers).ending = .built automaton := by
  unfold automatonOf? at found
  split at found
  · rename_i ends
    rw [ends, Option.some.inj found]
  · cases found

/-- Answers with blanks at their ends, of which one is turned down, and symbols
and names out of the marks of a specification. -/
def markInput : String :=
  "2\n ,x\n>\n2\n p q \nmaybe\ny\n-\nN\np q\n-\n-\np q\n-\t\n"

/-- The automaton that these answers build. -/
def markAutomaton : Automaton :=
  ⟨[⟨"p q", true, [(',', 0), ('>', 1)]⟩, ⟨"-", false, [(',', 1), ('>', 0)]⟩], [',', '>'], some 1,
    by constructor <;> decide⟩

/-- A tree with one directory. -/
def oneDirectory : FileTree :=
  ⟨[(⟨.workingDirectory, ["out"]⟩, .directory)]⟩

theorem saved_reloads_markInput :
    (interview (answersOf markInput)).ending = .built markAutomaton ∧
      ∃ after, oneDirectory.writeText "./out//a" (write markAutomaton) = .ok after ∧
        (∀ name ∈ markAutomaton.stateNames, Unbroken name.toList) ∧
          (buildByInterview oneDirectory markInput (some "./out//a")).2 = after ∧
          (∃ again, (readPath false after (Path.ofText "./out//a")).result = .ok again ∧
            Reloaded markAutomaton again) ∧
            ∀ surroundings settings, surroundings.files = after → ∃ events,
              ((Action.run ⟨some "./out//a", false⟩ [">", ""] true false).perform surroundings
                settings).1 =
                (runWords markAutomaton settings.maxWordLength true false [">", ""]).after
                  events := by
  have built : (interview (answersOf markInput)).ending = .built markAutomaton :=
    ending_of_automatonOf? (by decide +kernel)
  have writes : (oneDirectory.writeText "./out//a" (write markAutomaton)).toBool = true := by
    decide +kernel
  have unbroken : ∀ name ∈ markAutomaton.stateNames, Unbroken name.toList := by decide +kernel
  cases saved : oneDirectory.writeText "./out//a" (write markAutomaton) with
  | error fault =>
    rw [saved] at writes
    cases writes
  | ok after =>
    rcases saved_reloads_iff built saved with ⟨builds, reloads, runs⟩
    exact ⟨built, after, rfl, unbroken, (builds markInput rfl (by decide)).2,
      (reloads false).mpr unbroken,
      fun surroundings settings same =>
        runs unbroken (by decide) surroundings settings [">", ""] true false same⟩

/-- Answers with a name that goes over two lines. -/
def brokenAnswers : List String :=
  ["1", "x", "1", "a\x0cb", "y", "a\x0cb", "a\x0cb"]

/-- The automaton that these answers build. -/
def brokenAutomaton : Automaton :=
  ⟨[⟨"a\x0cb", true, [('x', 0)]⟩], ['x'], some 0, by constructor <;> decide⟩

/-- The interview takes the name, and the file that the automaton is saved to
is refused at the line of its move. -/
theorem saved_not_reloaded :
    (interview brokenAnswers).ending = .built brokenAutomaton ∧
      ∃ after, (⟨[]⟩ : FileTree).writeText "f" (write brokenAutomaton) = .ok after ∧
        (readPath false after (Path.ofText "f")).result =
          .error (.specification ⟨.malformed .arrowCount, some 8, some "(a"⟩) ∧
          ¬ ∃ again, (readPath false after (Path.ofText "f")).result = .ok again ∧
            Reloaded brokenAutomaton again := by
  have computed : (((⟨[]⟩ : FileTree).writeText "f" (write brokenAutomaton)).map fun after =>
      (readPath false after (Path.ofText "f")).result) =
        .ok (.error (.specification ⟨.malformed .arrowCount, some 8, some "(a"⟩)) := by
    decide +kernel
  refine ⟨ending_of_automatonOf? (by decide +kernel), ?_⟩
  cases saved : (⟨[]⟩ : FileTree).writeText "f" (write brokenAutomaton) with
  | error fault =>
    rw [saved] at computed
    cases computed
  | ok after =>
    rw [saved] at computed
    have refused := Except.ok.inj computed
    refine ⟨after, rfl, refused, ?_⟩
    rintro ⟨again, loaded, _⟩
    cases refused.symm.trans loaded

end Command
end FiniteAutomata
