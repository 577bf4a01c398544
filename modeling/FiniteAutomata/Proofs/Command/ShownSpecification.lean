import FiniteAutomata.Command.Evaluation
import FiniteAutomata.Proofs.Specification.RoundTrip

namespace FiniteAutomata
namespace Command

open Specification (ReadsAs Writable read read_write_of_read write writtenLines)

/-!
# Specifications that are shown

A specification is shown as it is written, to the last line feed.  So what one
command has shown another can read, and what it shows then is what it has read:
written specifications are a normal form of those that can be read.
-/

/-! ## The end of a written specification -/

theorem withoutFinalFeeds_append {front : String} (last : front.toList.getLast? ≠ some '\n') :
    withoutFinalFeeds (front ++ "\n") = front := by
  have stays : front.toList.reverse.dropWhile (· == '\n') = front.toList.reverse := by
    rw [← List.head?_reverse] at last
    cases backwards : front.toList.reverse with
    | nil => rfl
    | cons c rest =>
      rw [backwards] at last
      exact List.dropWhile_cons_of_neg (by simpa using last)
  have feed : "\n".toList = ['\n'] := rfl
  rw [withoutFinalFeeds, String.toList_append, feed, List.reverse_append, List.reverse_singleton,
    List.singleton_append, List.dropWhile_cons_of_pos (by decide), stays, List.reverse_reverse,
    String.ofList_toList]

/-- Lines that say something are not empty, and they end in no line feed. -/
theorem getLast?_of_readsAs {texts : List String} {given : List Specification.Line}
    (spoken : ∀ line ∈ given, line ≠ .other) (read : List.Forall₂ ReadsAs texts given) :
    ∀ text ∈ texts, text.toList ≠ [] ∧ text.toList.getLast? ≠ some '\n' := by
  induction read with
  | nil => simp
  | cons here _ inductionHypothesis =>
    have later := inductionHypothesis fun line member => spoken line (List.mem_cons_of_mem _ member)
    rw [List.forall_mem_cons]
    refine ⟨⟨?_, ?_⟩, later⟩
    · intro blank
      have said := here.said
      rw [blank] at said
      exact spoken _ List.mem_cons_self said.symm
    · intro feed
      have broken := here.unbroken '\n' (List.mem_of_getLast? feed)
      exact absurd broken (by decide)

/-- Only one line feed is at the end of a written specification. -/
theorem getLast?_joined {automaton : Automaton} (writable : Writable automaton) :
    (Text.joined "\n" (writtenLines automaton)).toList.getLast? ≠ some '\n' := by
  have spoken : ∀ line ∈ Specification.spokenLines automaton, line ≠ .other := by
    intro line member
    simp only [Specification.spokenLines, List.mem_append, List.mem_singleton, List.mem_map]
      at member
    rcases member with ((rfl | ⟨_, _, rfl⟩) | rfl) | ⟨_, _, rfl⟩
    · rintro ⟨⟩
    · rintro ⟨⟩
    · rintro ⟨⟩
    · rintro ⟨⟩
  have whole : (Text.joined "\n" (writtenLines automaton)).toList ++ ['\n'] =
      (write automaton).toList := by
    rw [write, String.toList_append]
    rfl
  have lines := getLast?_of_readsAs spoken (Specification.readsAs_spokenLines writable)
  have present : (writtenLines automaton).tail ≠ [] := List.cons_ne_nil _ _
  rw [Specification.toList_write] at whole
  generalize (writtenLines automaton).tail = texts at whole lines present
  rcases List.eq_nil_or_concat texts with rfl | ⟨front, last, rfl⟩
  · exact absurd rfl present
  · rcases lines last (by simp) with ⟨filled, solid⟩
    rw [List.concat_eq_append, List.flatMap_append, List.flatMap_singleton, ← List.cons_append,
      ← List.append_assoc, ← List.append_assoc] at whole
    rw [List.append_cancel_right whole, List.getLast?_append_of_ne_nil _ filled]
    exact solid

/-- The section of the specification is the written specification. -/
theorem sectionsText_specification {automaton : Automaton} (writable : Writable automaton) :
    sectionsText automaton [.specification] = write automaton := by
  have whole : write automaton = Text.joined "\n" (writtenLines automaton) ++ "\n" := rfl
  calc sectionsText automaton [.specification]
      = Report.line (withoutFinalFeeds (write automaton)) := by
        simp [sectionsText, Text.joined, Section.text]
    _ = Report.line (Text.joined "\n" (writtenLines automaton)) := by
        rw [whole, withoutFinalFeeds_append (getLast?_joined writable)]
    _ = write automaton := rfl

/-! ## Reading a source -/

theorem widen_eq_ok {ε ζ α : Type} {change : ε → ζ} {reported : Log.Reported ε α} {value : α}
    (widened : (reported.widen change).result = .ok value) : reported.result = .ok value := by
  unfold Log.Reported.widen at widened
  cases found : reported.result with
  | ok given =>
    rw [found] at widened
    exact congrArg Except.ok (Except.ok.inj widened)
  | error fault =>
    rw [found] at widened
    cases widened

theorem widen_of_ok {ε ζ α : Type} {change : ε → ζ} {reported : Log.Reported ε α} {value : α}
    (found : reported.result = .ok value) : (reported.widen change).result = .ok value := by
  rw [Log.Reported.widen, found]

/-- Whatever a source is, its automaton is read from some specification. -/
theorem exists_text_of_readSource {surroundings : Surroundings} {truncate : Bool}
    {source : SourceChoice} {automaton : Automaton}
    (found : (readSource surroundings truncate source).result = .ok automaton) :
    ∃ text, (read truncate text).result = .ok automaton := by
  unfold readSource at found
  split at found
  · cases found
  · cases found
  · exact ⟨_, widen_eq_ok found⟩
  · split at found
    · exact ⟨_, widen_eq_ok found⟩
    · have octets := widen_eq_ok found
      unfold Specification.readPath at octets
      split at octets
      · cases octets
      · unfold Specification.readOctets at octets
        split at octets
        · cases octets
        · exact ⟨_, widen_eq_ok octets⟩

/-- A source without an automaton does not end well. -/
theorem sourceReport_ending (failure : SourceFailure) :
    (sourceReport failure).ending ≠ .ok .success := by
  unfold sourceReport
  split <;> simp [Report.refused, Report.failed, Report.after]

/-- A display that ends well shows the automaton of its source. -/
theorem exists_automaton_of_success {surroundings : Surroundings} {truncate : Bool}
    {source : SourceChoice} {next : Automaton → Report}
    (ends : (withAutomaton surroundings truncate source next).ending = .ok .success) :
    ∃ automaton, (∃ text, (read truncate text).result = .ok automaton) ∧
      (withAutomaton surroundings truncate source next).output = (next automaton).output := by
  unfold withAutomaton at ends ⊢
  cases reading : readSource surroundings truncate source with
  | mk events result =>
    rw [reading] at ends
    cases result with
    | error failure => exact absurd ends (sourceReport_ending failure)
    | ok automaton =>
      have found : (readSource surroundings truncate source).result = .ok automaton := by
        rw [reading]
      exact ⟨automaton, exists_text_of_readSource found, rfl⟩

/-- A source that gives an automaton is gone on with. -/
theorem withAutomaton_eq {surroundings : Surroundings} {truncate : Bool} {source : SourceChoice}
    {automaton : Automaton}
    (found : (readSource surroundings truncate source).result = .ok automaton)
    (next : Automaton → Report) : withAutomaton surroundings truncate source next =
      (next automaton).after (readSource surroundings truncate source).events := by
  unfold withAutomaton
  cases reading : readSource surroundings truncate source with
  | mk events result =>
    rw [reading] at found
    cases found
    rfl

theorem withAutomaton_of_readSource {surroundings : Surroundings} {truncate : Bool}
    {source : SourceChoice} {automaton : Automaton}
    (found : (readSource surroundings truncate source).result = .ok automaton)
    (next : Automaton → Report) : ∃ events,
      withAutomaton surroundings truncate source next = (next automaton).after events :=
  ⟨_, withAutomaton_eq found next⟩

/-- The standard input shows the automaton that it specifies. -/
theorem withAutomaton_input {surroundings : Surroundings} {truncate : Bool} {automaton : Automaton}
    (readable : (read truncate surroundings.input).result = .ok automaton)
    (next : Automaton → Report) : ∃ events,
      withAutomaton surroundings truncate ⟨some "-", false⟩ next =
        (next automaton).after events := by
  apply withAutomaton_of_readSource
  unfold readSource
  dsimp only
  rw [if_pos rfl]
  exact widen_of_ok readable

/-! ## Whole commands -/

/-- Nothing keeps an invocation from its action: there are settings, and the
log can be opened. -/
def Ready (surroundings : Surroundings) (invocation : Invocation) : Prop :=
  ∃ settings book files, settingsFor surroundings invocation = .ok settings ∧
    Log.Book.create surroundings.workingDirectory surroundings.files settings.logLevel.rank
      settings.logDirectory = (book, files, none)

theorem Ready.report {surroundings : Surroundings} {invocation : Invocation}
    (ready : Ready surroundings invocation) : ∃ settings files,
      (invocation.perform surroundings).report =
        (invocation.action.perform { surroundings with files := files } settings).1 := by
  rcases ready with ⟨settings, book, files, loaded, opened⟩
  refine ⟨settings, files, ?_⟩
  rw [Invocation.perform, loaded]
  dsimp only
  rw [opened]

/-- A command that ends well came to its action. -/
theorem ready_of_success {surroundings : Surroundings} {invocation : Invocation}
    (ends : (invocation.perform surroundings).report.ending = .ok .success) :
    Ready surroundings invocation := by
  unfold Invocation.perform at ends
  split at ends
  · rename_i failure _
    unfold Outcome.unlogged configurationReport at ends
    split at ends <;> cases ends
  · rename_i settings loaded
    dsimp only at ends
    split at ends
    · cases ends
    · rename_i book files opened
      exact ⟨settings, book, files, loaded, opened⟩

/-- What a command shows well as a specification is one that has been read,
written. -/
theorem output_of_shown {surroundings : Surroundings} {invocation : Invocation}
    {source : SourceChoice} (shows : invocation.action = .display source [.specification])
    (ends : (invocation.perform surroundings).report.ending = .ok .success) :
    ∃ automaton, (∃ truncate text, (read truncate text).result = .ok automaton) ∧
      (invocation.perform surroundings).report.output = write automaton := by
  rcases (ready_of_success ends).report with ⟨settings, files, report⟩
  rw [report, shows] at ends ⊢
  rcases exists_automaton_of_success ends with ⟨automaton, ⟨text, readable⟩, output⟩
  have writable := Specification.writable_of_read readable
  exact ⟨automaton, ⟨_, text, readable⟩, output.trans (sectionsText_specification writable)⟩

/-- A written specification on the standard input is shown as it is. -/
theorem report_of_input {surroundings : Surroundings} {invocation : Invocation}
    (shows : invocation.action = .display ⟨some "-", false⟩ [.specification])
    (ready : Ready surroundings invocation) {automaton : Automaton} {truncate : Bool}
    {text : String} (readable : (read truncate text).result = .ok automaton)
    (input : surroundings.input = write automaton) :
    (invocation.perform surroundings).report.ending = .ok .success ∧
      (invocation.perform surroundings).report.output = write automaton ∧
        (invocation.perform surroundings).report.errors = "" := by
  rcases ready.report with ⟨settings, files, report⟩
  have again : (read settings.truncateSymbols
      ({ surroundings with files := files } : Surroundings).input).result = .ok automaton := by
    rw [input]
    exact read_write_of_read readable _
  rcases withAutomaton_input again fun automaton => showSections automaton [.specification] with
    ⟨events, shown⟩
  have writable := Specification.writable_of_read readable
  rw [report, shows]
  simp only [Action.perform, shown]
  exact ⟨rfl, sectionsText_specification writable, rfl⟩

/-- A specification that is read is written in a form that gives the same
automaton, moves in the same order included, and so the same text again.  A
command that shows a specification, fed with what such a command has shown,
shows it once more; the settings and files of the first one let it. -/
theorem shown_specification_normal :
    (∀ truncate text automaton, (read truncate text).result = .ok automaton →
      (read false (write automaton)).result = .ok automaton ∧
        (read false (write automaton)).result.map write = .ok (write automaton)) ∧
      ∀ surroundings (first : Invocation) source, first.action = .display source [.specification] →
        (first.perform surroundings).report.ending = .ok .success →
          Ready { surroundings with input := (first.perform surroundings).report.output }
            { first with action := .display ⟨some "-", false⟩ [.specification] } ∧
          ∀ later (second : Invocation),
            second.action = .display ⟨some "-", false⟩ [.specification] → Ready later second →
              later.input = (first.perform surroundings).report.output →
                (second.perform later).report.ending = .ok .success ∧
                  (second.perform later).report.output = later.input ∧
                    (second.perform later).report.errors = "" := by
  constructor
  · intro truncate text automaton readable
    have again := read_write_of_read readable false
    rw [again]
    exact ⟨rfl, rfl⟩
  · intro surroundings first source shows ends
    rcases output_of_shown shows ends with ⟨automaton, ⟨truncate, text, readable⟩, output⟩
    rcases ready_of_success ends with ⟨settings, book, files, loaded, opened⟩
    refine ⟨⟨settings, book, files, loaded, opened⟩, ?_⟩
    intro later second showsInput ready fed
    have input := fed.trans output
    rw [input]
    exact report_of_input showsInput ready readable input

/-- Surroundings in which long tokens are cut, with a specification that has
one. -/
def cutting : Surroundings :=
  ⟨⟨[]⟩, [("DFA_TRUNCATE_SYMBOLS", "true")], "/work",
    "state=\x7bq, p\x7d\r\n(p, long)->q\n(p, -) ->  p\nF = q\nF=p,r\nalphabet=l, -"⟩

/-- Show the specification on the standard input. -/
def showInput : Invocation :=
  ⟨none, none, .display ⟨some "-", false⟩ [.specification]⟩

/-- What is shown of it. -/
def cutText : String :=
  "alphabet=\x7bl, -\x7d\nstate=\x7bq, p\x7d\nF=\x7bp\x7d\n(p, l)->q\n(p, -)->p\n"

theorem shown_specification_normal_cutting :
    (∃ automaton, (read true cutting.input).result = .ok automaton ∧
      (read false (write automaton)).result = .ok automaton) ∧
      (showInput.perform cutting).report.ending = .ok .success ∧
        (showInput.perform cutting).report.output = cutText ∧
          (showInput.perform { cutting with input := cutText }).report.output = cutText := by
  have ends : (showInput.perform cutting).report.ending = .ok .success := by decide +kernel
  have output : (showInput.perform cutting).report.output = cutText := by decide +kernel
  have computed : (read true cutting.input).result.map write = .ok cutText := by decide +kernel
  rcases shown_specification_normal.2 cutting showInput _ rfl ends with ⟨ready, again⟩
  rcases again _ _ rfl ready rfl with ⟨_, repeated, _⟩
  rw [output] at repeated
  refine ⟨?_, ends, output, repeated⟩
  cases found : (read true cutting.input).result with
  | error fault =>
    rw [found] at computed
    cases computed
  | ok automaton =>
    exact ⟨automaton, rfl, (shown_specification_normal.1 true cutting.input automaton found).1⟩

end Command
end FiniteAutomata
