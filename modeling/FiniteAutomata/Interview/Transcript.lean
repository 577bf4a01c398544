import FiniteAutomata.Interview.Question

namespace FiniteAutomata
namespace Interview

/-!
# Transcripts

An interview as a function of the answers that will be given: everything that
is asked and said, in order, and how it ends.  It reads one answer for each
question that is asked, so it ends with the answers at the latest.
-/

inductive Turn where
  | ask (prompt : String)
  | say (remark : String)
deriving DecidableEq, Repr

inductive Ending where
  | built (automaton : Automaton)
  | outOfAnswers
  | failed (fault : Fault)
deriving DecidableEq

/-- An interview from a stage on: its turns, what is reported, its ending, and
the answers that were not read. -/
structure Transcript where
  turns : List Turn
  events : List Log.Event
  ending : Ending
  unused : List String

/-- The end of an interview, where the draft is built. -/
def Transcript.conclude (draft : Draft) (events : List Log.Event) (unused : List String) :
    Transcript :=
  match draft.finish with
  | ⟨later, .ok automaton⟩ => ⟨[], events ++ later, .built automaton, unused⟩
  | ⟨later, .error fault⟩ => ⟨[], events ++ later, .failed fault, unused⟩

/-- A transcript with earlier turns and events in front. -/
def Transcript.after (turns : List Turn) (events : List Log.Event) (transcript : Transcript) :
    Transcript :=
  { transcript with turns := turns ++ transcript.turns, events := events ++ transcript.events }

/-- The interview from a stage on. -/
def converse (draft : Draft) : Stage → List String → Transcript
  | .done events, answers => .conclude draft events answers
  | .ask question, [] => ⟨[.ask (question.prompt draft)], [], .outOfAnswers, []⟩
  | .ask question, answer :: rest =>
    let asked := Turn.ask (question.prompt draft)
    match question.react draft (Text.trim answer) with
    | .accepted events next stage => (converse next stage rest).after [asked] events
    | .turnedDown remark => (converse draft (.ask question) rest).after [asked, .say remark] []
    | .failed fault => ⟨[asked], [], .failed fault, rest⟩

def interview (answers : List String) : Transcript :=
  converse Draft.empty (.ask .symbolCount) answers

end Interview
end FiniteAutomata
