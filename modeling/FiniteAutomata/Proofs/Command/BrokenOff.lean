import FiniteAutomata.Proofs.Command.RunOutcome

namespace FiniteAutomata
namespace Command

/-!
# Commands that are broken off

A command that shows or runs ends with an exit code unless one of a few
troubles breaks it off: a configuration that is there but is no file, that is
no configuration text, or whose mapping has a key that is no text; a log that
cannot be opened; and a specification that is there but is no file, or whose
octets are no text.  Everything else that can be wrong with a configuration or
a specification is refused in one line, and whenever one of the two gives
nothing, nothing is shown.

The conditions speak of what the files hold and not of the order in which the
command finds it out.
-/

variable {surroundings : Surroundings} {invocation : Invocation} {source : SourceChoice}

/-- The way to an automaton that an action takes, if it does not ask for one. -/
def Action.source? : Action → Option SourceChoice
  | .display source _ => some source
  | .run source _ _ _ => some source
  | .build _ => none

/-! ## Configurations -/

theorem widen_of_error {ε ζ α : Type} {change : ε → ζ} {reported : Log.Reported ε α} {fault : ε}
    (found : reported.result = .error fault) :
    (reported.widen change).result = .error (change fault) := by
  rw [Log.Reported.widen, found]

theorem withAutomaton_of_error {truncate : Bool} {failure : SourceFailure}
    (fails : (readSource surroundings truncate source).result = .error failure)
    (next : Automaton → Report) : ∃ events,
      withAutomaton surroundings truncate source next = (sourceReport failure).after events := by
  unfold withAutomaton
  cases reading : readSource surroundings truncate source with
  | mk events result =>
    rw [reading] at fails
    cases fails
    exact ⟨events, rfl⟩

/-- Nothing is shown; the command is broken off, or it is refused in one line
that says so. -/
structure Report.Declined (report : Report) : Prop where
  output : report.output = ""
  ending : (∃ broken, report.ending = .error broken) ∨
    report.ending = .ok .refused ∧ ∃ message, report.errors = Report.line ("error: " ++ message)

theorem Report.Declined.after {report : Report} (declined : report.Declined)
    (events : List Log.Event) : (report.after events).Declined :=
  ⟨declined.output, declined.ending⟩

end Command
end FiniteAutomata
