import FiniteAutomata.Proofs.Command.BrokenOff
import FiniteAutomata.Proofs.Specification.Worded

namespace FiniteAutomata
namespace Command

open Specification (read)

/-!
# A refused specification on the standard input

A command that is to show the specification on its standard input, and cannot
read it, shows nothing and says why in one line on its error output.  Entries
that reach the console are kept apart from that output.  The line is the whole
message, because no message about a specification holds a line break.
-/

variable {surroundings : Surroundings} {invocation : Invocation} {settings : Settings}

/-- An invocation comes to its action with these settings: they are loaded, and
the log can be opened. -/
def ReadyWith (surroundings : Surroundings) (invocation : Invocation) (settings : Settings) :
    Prop :=
  settingsFor surroundings invocation = .ok settings ∧
    ∃ book files, Log.Book.create surroundings.workingDirectory surroundings.files
      settings.logLevel.rank settings.logDirectory = (book, files, none)

theorem readSource_of_refused {truncate : Bool} {located : LocatedFault}
    (refused : (read truncate surroundings.input).result = .error located) :
    (readSource surroundings truncate ⟨some "-", false⟩).result =
      .error (.specification (.specification located)) := by
  unfold readSource
  dsimp only
  rw [if_pos rfl]
  exact widen_of_error refused

/-- A display of a refused input is refused with the message of its fault. -/
theorem perform_of_refused (ready : ReadyWith surroundings invocation settings)
    {sections : List Section} (shows : invocation.action = .display ⟨some "-", false⟩ sections)
    {located : LocatedFault}
    (refused : (read settings.truncateSymbols surroundings.input).result = .error located) :
    ∃ events, (invocation.perform surroundings).report =
      (Report.refused located.message).after events := by
  rcases ready with ⟨loaded, book, files, opened⟩
  have source : (readSource { surroundings with files := files } settings.truncateSymbols
      ⟨some "-", false⟩).result = .error (.specification (.specification located)) :=
    readSource_of_refused refused
  rcases withAutomaton_of_error source fun automaton => showSections automaton sections with
    ⟨events, report⟩
  refine ⟨events, ?_⟩
  rw [Invocation.perform, loaded]
  dsimp only
  rw [opened]
  dsimp only
  rw [shows]
  exact report

/-- The message about a specification that is refused, with or without cutting
tokens, holds no line break.  So a command that is to show it from the standard
input writes nothing on the standard output and exactly that one line on the
error output. -/
theorem refused_input_one_line :
    (∀ truncate text located, (read truncate text).result = .error located →
      Text.Unbroken located.message.toList) ∧
    Invocation.ofArguments ["show", "-"] = .ok ⟨none, none, .display ⟨some "-", false⟩ []⟩ ∧
    ∀ surroundings arguments invocation sections settings located,
      Invocation.ofArguments arguments = .ok invocation →
      invocation.action = .display ⟨some "-", false⟩ sections →
      ReadyWith surroundings invocation settings →
      (read settings.truncateSymbols surroundings.input).result = .error located →
        ∃ outcome, evaluate surroundings arguments = .ok outcome ∧
          outcome.report.output = "" ∧
          outcome.report.errors = "error: " ++ located.message ++ "\n" ∧
          Text.lines outcome.report.errors.toList = [("error: " ++ located.message).toList] ∧
          outcome.report.ending = .ok .refused := by
  refine ⟨fun _ _ _ => Specification.unbroken_message_of_read, by decide +kernel, ?_⟩
  intro surroundings arguments invocation sections settings located accepted shows ready refused
  rcases perform_of_refused ready shows refused with ⟨events, report⟩
  refine ⟨invocation.perform surroundings, by rw [evaluate, accepted], ?_⟩
  rw [report]
  exact ⟨rfl, rfl, lines_refused (Specification.unbroken_message_of_read refused), rfl⟩

/-- The third line moves a state elsewhere.  The lines are divided by characters
beyond the usual ones, and a name holds a blank that divides none. -/
def redirecting : Surroundings :=
  ⟨⟨[]⟩, [("DFA_LOG_LEVEL", "debug")], "/work",
    "state=a\u001fb,'c'\u2028(a\u001fb, x) -> 'c'\u0085(a\u001fb, x) -> a\u001fb"⟩

/-- Names and the symbol stand in the message as they are, the line is
quoted. -/
def redirected : LocatedFault :=
  ⟨.conflictingMove "a\u001fb" "x" "'c'" "a\u001fb", some 3, some "(a\u001fb, x) -> a\u001fb"⟩

theorem refused_input_one_line_redirected :
    (read false redirecting.input).result = .error redirected ∧
      Text.Unbroken redirected.message.toList ∧
      Invocation.ofArguments ["show", "-"] = .ok ⟨none, none, .display ⟨some "-", false⟩ []⟩ ∧
      ReadyWith redirecting ⟨none, none, .display ⟨some "-", false⟩ []⟩
        { Settings.standard with logLevel := .debug } ∧
      ∃ outcome, evaluate redirecting ["show", "-"] = .ok outcome ∧
        outcome.report.output = "" ∧
        outcome.report.errors = "error: " ++ redirected.message ++ "\n" ∧
        Text.lines outcome.report.errors.toList = [("error: " ++ redirected.message).toList] ∧
        outcome.report.ending = .ok .refused := by
  have refused : (read false redirecting.input).result = .error redirected := by decide +kernel
  have ready : ReadyWith redirecting ⟨none, none, .display ⟨some "-", false⟩ []⟩
      { Settings.standard with logLevel := .debug } :=
    ⟨by decide +kernel, _, _, rfl⟩
  rcases refused_input_one_line with ⟨unbroken, accepted, shown⟩
  exact ⟨refused, unbroken _ _ _ refused, accepted, ready,
    shown _ _ _ _ _ _ accepted rfl ready refused⟩

end Command
end FiniteAutomata
