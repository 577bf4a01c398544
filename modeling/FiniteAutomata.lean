import FiniteAutomata.Automaton.LooseDraft
import FiniteAutomata.Automaton.Table
import FiniteAutomata.Main
import FiniteAutomata.Proofs.Automaton.Named
import FiniteAutomata.Proofs.Specification.Edge
import FiniteAutomata.Proofs.Text.Lines
import FiniteAutomata.Proofs.Automaton.DraftSteps
import FiniteAutomata.Proofs.Automaton.Proper
import FiniteAutomata.Proofs.Specification.Pass
import FiniteAutomata.Proofs.Specification.Recorded
import FiniteAutomata.Proofs.Specification.Heads
import FiniteAutomata.Proofs.Specification.Meaning
import FiniteAutomata.Proofs.Specification.Written
import FiniteAutomata.Proofs.Specification.RoundTrip
import FiniteAutomata.Proofs.Command.ShownSpecification
import FiniteAutomata.Proofs.Specification.DraftRoundTrip
import FiniteAutomata.Proofs.Automaton.Refused
import FiniteAutomata.Proofs.Specification.Malformed
import FiniteAutomata.Proofs.Specification.Refusal
import FiniteAutomata.Proofs.Automaton.Reached
import FiniteAutomata.Proofs.Files.NormalPath
import FiniteAutomata.Proofs.Files.ReadBack
import FiniteAutomata.Proofs.Text.Utf8
import FiniteAutomata.Proofs.Interview.Solid
import FiniteAutomata.Proofs.Command.Saved
import FiniteAutomata.Proofs.Automaton.Mirrored
import FiniteAutomata.Proofs.Automaton.NameView
import FiniteAutomata.Proofs.Automaton.RunByName
import FiniteAutomata.Proofs.Automaton.History
import FiniteAutomata.Proofs.Automaton.Reflected
import FiniteAutomata.Proofs.Text.Decimal
import FiniteAutomata.Proofs.Interview.Outcome
import FiniteAutomata.Proofs.Interview.Script
import FiniteAutomata.Proofs.Command.BrokenOff
import FiniteAutomata.Proofs.Json.ReadBack
import FiniteAutomata.Proofs.Automaton.WrittenJson
import FiniteAutomata.Proofs.Command.ToldApart
import FiniteAutomata.Proofs.Files.Kept
import FiniteAutomata.Proofs.Command.Exchanged
import FiniteAutomata.Proofs.Command.Arguments
import FiniteAutomata.Proofs.Command.Sources
import FiniteAutomata.Proofs.Dot.Language
import FiniteAutomata.Proofs.Dot.Grouped
import FiniteAutomata.Proofs.Dot.Scanned
import FiniteAutomata.Proofs.Dot.Pieces
import FiniteAutomata.Proofs.Dot.Unread
import FiniteAutomata.Proofs.Dot.Parsed
import FiniteAutomata.Proofs.Dot.Drawn
import FiniteAutomata.Proofs.Dot.Written
import FiniteAutomata.Proofs.Dot.Picture
import FiniteAutomata.Proofs.Dot.Denoted
import FiniteAutomata.Proofs.Specification.Grammar
import FiniteAutomata.Proofs.Specification.Shortened
import FiniteAutomata.Proofs.Specification.Rearranged
import FiniteAutomata.Proofs.Automaton.Fields
import FiniteAutomata.Proofs.Automaton.Traceless
import FiniteAutomata.Proofs.Automaton.Consistent
import FiniteAutomata.Proofs.Automaton.Composed
import FiniteAutomata.Proofs.Automaton.Completeness
import FiniteAutomata.Proofs.Interview.TurnedDown
import FiniteAutomata.Proofs.Automaton.Unordered
import FiniteAutomata.Proofs.Dot.EdgeStatements
import FiniteAutomata.Proofs.Command.RunOutcome
import FiniteAutomata.Proofs.Json.OneLine
import FiniteAutomata.Proofs.Command.JsonLines
import FiniteAutomata.Proofs.Automaton.AllTaken
import FiniteAutomata.Proofs.Automaton.Tabled
import FiniteAutomata.Proofs.Text.Quoted
import FiniteAutomata.Proofs.Specification.Worded
import FiniteAutomata.Proofs.Command.RefusedInput
import FiniteAutomata.Proofs.Specification.Logged
import FiniteAutomata.Proofs.Settings.Overridden
import FiniteAutomata.Proofs.Automaton.TwoViews
