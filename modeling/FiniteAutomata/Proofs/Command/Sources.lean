import FiniteAutomata.Proofs.Command.Arguments
import FiniteAutomata.Proofs.Command.Saved
import FiniteAutomata.Proofs.Files.Kept

namespace FiniteAutomata
namespace Command

/-!
# Ways to supply a specification

A specification can be given as a text, in a file, on the standard input and,
for the sample, by an option.  The text, the file that holds its octets and the
input give the same automaton or the same fault at the same line: what is
normalised in a file is a line break either way.  So commands that differ only
in the way of their specification leave the same behind.
-/

open Specification (read readPath)

/-! ## The text and the file -/

/-- The octets of a text stand in the file of a name. -/
def HoldsText (tree : FileTree) (name text : String) : Prop :=
  tree.read (Path.ofText name).toText (Path.ofText name) = .ok (Text.encode text.toList)

/-- A file with the octets of a text gives what the text gives. -/
theorem readPath_of_holds {tree : FileTree} {path : Path} {text : String}
    (holds : tree.read path.toText path = .ok (Text.encode text.toList)) (truncate : Bool) :
    readPath truncate tree path = (read truncate text).widen .specification := by
  rw [readPath, holds]
  dsimp only
  rw [Specification.readOctets, Text.decode_encode]
  dsimp only
  rw [read_normalizeBreaks]

/-- Texts that differ in the spelling of carriage returns give the same. -/
theorem read_congr {first second : String}
    (same : Text.normalizeBreaks first.toList = Text.normalizeBreaks second.toList)
    (truncate : Bool) : read truncate first = read truncate second := by
  rw [← read_normalizeBreaks truncate first, same, read_normalizeBreaks]

theorem widen_widen {ε ζ η α : Type} (first : ε → ζ) (second : ζ → η)
    (reported : Log.Reported ε α) :
    (reported.widen first).widen second = reported.widen fun fault => second (first fault) := by
  unfold Log.Reported.widen
  cases reported.result with
  | ok value => rfl
  | error fault => rfl

/-! ## The sources of a command -/

section Sources

variable (surroundings : Surroundings) {file text : String}

theorem readSource_file (named : file ≠ "-") (holds : HoldsText surroundings.files file text)
    (truncate : Bool) : readSource surroundings truncate ⟨some file, false⟩ =
      (read truncate text).widen fun fault => .specification (.specification fault) := by
  unfold readSource
  dsimp only
  rw [if_neg named, readPath_of_holds holds, widen_widen]

theorem readSource_input (same : Text.normalizeBreaks surroundings.input.toList =
      Text.normalizeBreaks text.toList) (truncate : Bool) :
    readSource surroundings truncate ⟨some "-", false⟩ =
      (read truncate text).widen fun fault => .specification (.specification fault) := by
  unfold readSource
  dsimp only
  rw [if_pos rfl, read_congr same]

theorem readSource_sample (truncate : Bool) :
    readSource surroundings truncate ⟨none, true⟩ = (read truncate Specification.sample).widen
      fun fault => .specification (.specification fault) := rfl

/-- Only a hyphen makes a command read the standard input. -/
theorem readSource_other {source : SourceChoice} (other : source.specification ≠ some "-")
    (input : String) (truncate : Bool) :
    readSource { surroundings with input := input } truncate source =
      readSource surroundings truncate source := by
  rcases source with ⟨specification, sample⟩
  cases specification with
  | none =>
    cases sample with
    | false => rfl
    | true => rfl
  | some name =>
    cases sample with
    | true => rfl
    | false =>
      have named : name ≠ "-" := fun same => other (congrArg some same)
      unfold readSource
      dsimp only
      rw [if_neg named, if_neg named]

end Sources

/-! ## Whole commands -/

/-- Opening the log keeps what a command reads, so actions that agree leave the
same behind. -/
theorem perform_congr {surroundings : Surroundings} (input : String) {first second : Action}
    (actions : ∀ files settings, FileTree.Keeps surroundings.files files →
      first.perform { surroundings with files := files } settings =
        second.perform { surroundings with files := files, input := input } settings)
    (configuration logLevel : Option String) :
    Invocation.perform surroundings ⟨configuration, logLevel, first⟩ =
      Invocation.perform { surroundings with input := input }
        ⟨configuration, logLevel, second⟩ := by
  have settings : settingsFor { surroundings with input := input }
      ⟨configuration, logLevel, second⟩ =
        settingsFor surroundings ⟨configuration, logLevel, first⟩ := rfl
  unfold Invocation.perform
  rw [settings]
  split
  · rfl
  · rename_i settings _
    dsimp only
    have keeps := Log.Book.keeps_create surroundings.workingDirectory surroundings.files
      settings.logLevel.rank settings.logDirectory
    generalize Log.Book.create surroundings.workingDirectory surroundings.files
      settings.logLevel.rank settings.logDirectory = created at keeps ⊢
    rcases created with ⟨book, files, fault⟩
    cases fault with
    | some fault => rfl
    | none =>
      dsimp only
      rw [actions files settings keeps]

/-- The standard input in place of a file. -/
def InPlaceOf (file text other : String) : Prop :=
  (text = other ∧ text ≠ "-") ∨ (text = file ∧ other = "-")

variable {surroundings : Surroundings} {file text input : String}

theorem readSource_inPlaceOf (surroundings : Surroundings) (named : file ≠ "-")
    (holds : HoldsText surroundings.files file text)
    (same : Text.normalizeBreaks input.toList = Text.normalizeBreaks text.toList)
    {specification other : Option String}
    (exchanged : Option.Rel (InPlaceOf file) specification other) (sample truncate : Bool) :
    readSource surroundings truncate ⟨specification, sample⟩ =
      readSource { surroundings with input := input } truncate ⟨other, sample⟩ := by
  cases exchanged with
  | none => exact (readSource_other surroundings (by simp) input truncate).symm
  | some here =>
    rcases here with ⟨rfl, another⟩ | ⟨rfl, rfl⟩
    · exact (readSource_other surroundings (by simpa using another) input truncate).symm
    · cases sample with
      | true => rfl
      | false =>
        rw [readSource_file surroundings named holds,
          readSource_input { surroundings with input := input } same]

/-- A file is shown like the standard input with the same text. -/
theorem perform_display_inPlaceOf (named : file ≠ "-")
    (holds : HoldsText surroundings.files file text)
    (same : Text.normalizeBreaks input.toList = Text.normalizeBreaks text.toList)
    {specification other : Option String}
    (exchanged : Option.Rel (InPlaceOf file) specification other)
    (configuration logLevel : Option String) (sample : Bool) (sections : List Section) :
    Invocation.perform surroundings
        ⟨configuration, logLevel, .display ⟨specification, sample⟩ sections⟩ =
      Invocation.perform { surroundings with input := input }
        ⟨configuration, logLevel, .display ⟨other, sample⟩ sections⟩ := by
  refine perform_congr input ?_ configuration logLevel
  intro files settings keeps
  have held : HoldsText files file text := keeps.read holds
  simp only [Action.perform, withAutomaton]
  rw [readSource_inPlaceOf { surroundings with files := files } named held same exchanged]

theorem withAutomaton_congr {first second : Surroundings} {truncate : Bool}
    {source other : SourceChoice}
    (same : readSource first truncate source = readSource second truncate other)
    (next : Automaton → Report) :
    withAutomaton first truncate source next = withAutomaton second truncate other next := by
  rw [withAutomaton, withAutomaton, same]

/-- Words are run through the sample like through a file that holds it. -/
theorem perform_run_sample (named : file ≠ "-")
    (holds : HoldsText surroundings.files file Specification.sample)
    (configuration logLevel : Option String) (words : List String) (trace json : Bool) :
    Invocation.perform surroundings
        ⟨configuration, logLevel, .run ⟨none, true⟩ words trace json⟩ =
      Invocation.perform surroundings
        ⟨configuration, logLevel, .run ⟨some file, false⟩ words trace json⟩ := by
  refine perform_congr surroundings.input ?_ configuration logLevel
  intro files settings keeps
  have held : HoldsText files file Specification.sample := keeps.read holds
  have sources := readSource_file { surroundings with files := files } named held
  simp only [Action.perform]
  rw [withAutomaton_congr ((readSource_sample _ _).trans (sources _).symm)]

/-! ## Arguments -/

/-- An argument that names a file: it is no hyphen, and wherever it stands it
is taken for a word. -/
structure NamesFile (file : String) : Prop where
  named : file ≠ "-"
  word : ∀ grammar ∈ [mainGrammar, showGrammar, runGrammar], grammar.markOf file = .ok .word

theorem NamesFile.ne_dashes (names : NamesFile file) : file ≠ "--" := by
  rintro rfl
  have word := names.word mainGrammar (by decide)
  cases word

theorem ofArguments_command {command : String} (noDashes : command ≠ "--")
    (word : mainGrammar.markOf command = .ok .word) (arguments : List String) :
    Invocation.ofArguments (command :: arguments) =
      match mainGrammar.tokens arguments with
      | .error usage => .error usage
      | .ok _ =>
        match actionOf command arguments with
        | .error usage => .error usage
        | .ok (chosen, extras) =>
          if extras.isEmpty then .ok ⟨none, none, chosen⟩ else .error .misuse := by
  unfold Invocation.ofArguments
  rw [Grammar.parse_command noDashes word]
  cases mainGrammar.tokens arguments with
  | error usage => rfl
  | ok tokens =>
    simp only [Except.map]
    cases actionOf command arguments with
    | error usage => rfl
    | ok parts => rfl

theorem NamesFile.interchangeable (names : NamesFile file) {grammar : Grammar}
    (known : grammar ∈ [mainGrammar, showGrammar, runGrammar]) :
    grammar.Interchangeable (InPlaceOf file) := by
  have word := names.word grammar known
  have hyphen : grammar.markOf "-" = .ok .word := rfl
  refine ⟨?_, ?_, ?_⟩
  · rintro text other (⟨rfl, _⟩ | ⟨rfl, rfl⟩)
    · exact Iff.rfl
    · exact ⟨fun dashes => absurd dashes names.ne_dashes, fun same => absurd same (by decide)⟩
  · rintro text other (⟨rfl, _⟩ | ⟨rfl, rfl⟩)
    · rfl
    · rw [word, hyphen]
  · rintro text other (⟨rfl, _⟩ | ⟨rfl, rfl⟩)
    · exact .inl rfl
    · exact .inr word

theorem forall₂_inPlaceOf (file : String) {before after : List String} (noneBefore : "-" ∉ before)
    (noneAfter : "-" ∉ after) :
    List.Forall₂ (InPlaceOf file) (before ++ file :: after) (before ++ "-" :: after) := by
  have kept : ∀ {arguments : List String}, "-" ∉ arguments →
      List.Forall₂ (InPlaceOf file) arguments arguments := by
    intro arguments absent
    rw [List.forall₂_same]
    rintro text member
    exact .inl ⟨rfl, fun same => absent (same ▸ member)⟩
  exact List.rel_append (kept noneBefore) (.cons (.inr ⟨rfl, rfl⟩) (kept noneAfter))

theorem rel_head? {related : String → String → Prop} {texts others : List (List String)}
    (alike : List.Forall₂ (List.Forall₂ related) texts others) :
    Option.Rel related (texts.headD []).head? (others.headD []).head? := by
  cases alike with
  | nil => exact .none
  | cons first _ =>
    cases first with
    | nil => exact .none
    | cons here _ => exact .some here

/-- Invocations that show the same sections, one of them a file where the other
has the standard input. -/
def ShowsInPlaceOf (file : String) (first second : Invocation) : Prop :=
  ∃ specification other sample sections, Option.Rel (InPlaceOf file) specification other ∧
    first = ⟨none, none, .display ⟨specification, sample⟩ sections⟩ ∧
      second = ⟨none, none, .display ⟨other, sample⟩ sections⟩

theorem ofArguments_show (names : NamesFile file) {arguments others : List String}
    (exchanged : List.Forall₂ (InPlaceOf file) arguments others) :
    Grammar.Parallel (ShowsInPlaceOf file) (Invocation.ofArguments ("show" :: arguments))
      (Invocation.ofArguments ("show" :: others)) := by
  have word : mainGrammar.markOf "show" = .ok .word := rfl
  have inMain : mainGrammar.Interchangeable (InPlaceOf file) := names.interchangeable (by decide)
  have inShow : showGrammar.Interchangeable (InPlaceOf file) := names.interchangeable (by decide)
  rw [ofArguments_command (by decide) word, ofArguments_command (by decide) word]
  rcases (Grammar.tokens_alike inMain exchanged).exists with
    ⟨usage, first, second⟩ | ⟨tokens, otherTokens, first, second, _⟩
  · rw [first, second]
    exact .error usage
  rw [first, second]
  simp only [actionOf, if_true]
  rcases (Grammar.parse_alike inShow exchanged).exists with
    ⟨usage, parsed, parsedOther⟩ | ⟨matched, other, parsed, parsedOther, same⟩
  · rw [parsed, parsedOther]
    exact .error usage
  rw [parsed, parsedOther]
  simp only [Except.map]
  rw [Grammar.isEmpty_of_forall₂ same.extras]
  split
  · refine .ok ⟨_, _, other.has "--sample", _, rel_head? same.positionals, ?_, rfl⟩
    simp only [sourceChoice, same.has]
  · exact .error _

/-- Arguments that name a file and arguments that name the standard input in
its place do the same. -/
theorem evaluate_show_inPlaceOf (names : NamesFile file)
    (holds : HoldsText surroundings.files file text)
    (same : Text.normalizeBreaks input.toList = Text.normalizeBreaks text.toList)
    {before after : List String} (noneBefore : "-" ∉ before) (noneAfter : "-" ∉ after) :
    evaluate surroundings ("show" :: (before ++ file :: after)) =
      evaluate { surroundings with input := input } ("show" :: (before ++ "-" :: after)) := by
  unfold evaluate
  rcases (ofArguments_show names (forall₂_inPlaceOf file noneBefore noneAfter)).exists with
    ⟨usage, first, second⟩ | ⟨_, _, first, second, specification, other, sample, sections,
      exchanged, rfl, rfl⟩
  · rw [first, second]
  · rw [first, second]
    simp only [perform_display_inPlaceOf names.named holds same exchanged]

theorem actionOf_run (arguments : List String) : actionOf "run" arguments =
    (runGrammar.parse arguments).map fun matched => (runAction matched, matched.extras) := by
  rw [actionOf, if_neg (by decide), if_pos rfl]

/-- With the sample, what was taken for a specification is the first word. -/
theorem runAction_sample {specification later : List String} (short : specification.length ≤ 1) :
    runAction ⟨[("--sample", "")], [specification, later], []⟩ =
      .run ⟨none, true⟩ (specification ++ later) false false := by
  cases specification with
  | nil => rfl
  | cons first others =>
    cases others with
    | nil => rfl
    | cons second more => simp at short

/-- The option for the sample does the same as a file that holds it. -/
theorem evaluate_run_sample (names : NamesFile file)
    (holds : HoldsText surroundings.files file Specification.sample) {words : List String}
    (present : words ≠ []) (plain : ∀ word ∈ words, word.toList.head? ≠ some '-') :
    evaluate surroundings ("run" :: "--sample" :: words) =
      evaluate surroundings ("run" :: file :: words) := by
  have word : mainGrammar.markOf "run" = .ok .word := rfl
  have marks : ∀ grammar : Grammar, ∀ word ∈ words,
      word ≠ "--" ∧ grammar.markOf word = .ok .word := fun grammar word member =>
    ⟨Grammar.ne_dashes_of_plain (plain word member), Grammar.markOf_of_plain (plain word member)⟩
  have option : mainGrammar.markOf "--sample" = .ok (.option ⟨none, "--sample", none⟩) := by
    decide +kernel
  have fileWords : ∀ grammar ∈ [mainGrammar, showGrammar, runGrammar], ∀ word ∈ file :: words,
      word ≠ "--" ∧ grammar.markOf word = .ok .word := fun grammar known =>
    List.forall_mem_cons.mpr ⟨⟨names.ne_dashes, names.word grammar known⟩, marks grammar⟩
  have first : Invocation.ofArguments ("run" :: "--sample" :: words) =
      .ok ⟨none, none, .run ⟨none, true⟩ words false false⟩ := by
    rcases Grammar.parse_run_sample present (marks runGrammar) with
      ⟨specification, later, whole, short, parsed⟩
    rw [ofArguments_command (by decide) word, Grammar.tokens, if_neg (by decide), option,
      Grammar.tokens_of_words (marks mainGrammar), actionOf_run, parsed]
    dsimp only [Except.map]
    rw [runAction_sample short, whole]
    rfl
  have second : Invocation.ofArguments ("run" :: file :: words) =
      .ok ⟨none, none, .run ⟨some file, false⟩ words false false⟩ := by
    rw [ofArguments_command (by decide) word,
      Grammar.tokens_of_words (fileWords mainGrammar (by decide)), actionOf_run,
      Grammar.parse_run present (fileWords runGrammar (by decide))]
    rfl
  unfold evaluate
  rw [first, second]
  exact congrArg Except.ok (perform_run_sample names.named holds none none words false false)

/-- All ways to supply a specification agree.  A file with the octets of a text
gives the automaton of the text, or its fault with the same line.  Showing the
file and showing the standard input with the text, carriage returns kept or
normalised, leave the same behind, whatever the settings and the other
arguments are.  And running words through the sample and through a file that
holds it leave the same behind. -/
theorem sources_agree :
    (∀ (text : String) truncate (tree : FileTree) (path : Path),
      tree.read path.toText path = .ok (Text.encode text.toList) →
        readPath truncate tree path = (read truncate text).widen .specification) ∧
    (∀ surroundings file text input, NamesFile file → HoldsText surroundings.files file text →
      Text.normalizeBreaks input.toList = Text.normalizeBreaks text.toList →
        (∀ configuration logLevel sections,
          Invocation.perform surroundings
              ⟨configuration, logLevel, .display ⟨some file, false⟩ sections⟩ =
            Invocation.perform { surroundings with input := input }
              ⟨configuration, logLevel, .display ⟨some "-", false⟩ sections⟩) ∧
        ∀ before after, "-" ∉ before → "-" ∉ after →
          evaluate surroundings ("show" :: (before ++ file :: after)) =
            evaluate { surroundings with input := input } ("show" :: (before ++ "-" :: after))) ∧
    ∀ surroundings file words, NamesFile file →
      HoldsText surroundings.files file Specification.sample → words ≠ [] →
        (∀ word ∈ words, word.toList.head? ≠ some '-') →
          evaluate surroundings ("run" :: "--sample" :: words) =
            evaluate surroundings ("run" :: file :: words) := by
  refine ⟨?_, ?_, ?_⟩
  · exact fun text truncate tree path holds => readPath_of_holds holds truncate
  · intro surroundings file text input names holds same
    constructor
    · intro configuration logLevel sections
      exact perform_display_inPlaceOf names.named holds same (.some (.inr ⟨rfl, rfl⟩))
        configuration logLevel false sections
    · exact fun before after => evaluate_show_inPlaceOf names holds same
  · exact fun surroundings file words names holds present plain =>
      evaluate_run_sample names holds present plain

/-- A specification with line breaks of four kinds. -/
def mixedText : String :=
  "alphabet=\x7ba\x7d\r\nstate=\x7bq é\x7d\rstart_state=q é\n\r\nF=q é\u2028(q é, a)->q é"

/-- Two files, one with these line breaks and one with the sample, and the
former text on the standard input with its carriage returns normalised. -/
def mixed : Surroundings where
  files := ⟨[(⟨.workingDirectory, ["-1"]⟩, .file (Text.encode mixedText.toList)),
    (⟨.workingDirectory, ["f"]⟩, .file (Text.encode Specification.sample.toList))]⟩
  environment := []
  workingDirectory := "/work"
  input := String.ofList (Text.normalizeBreaks mixedText.toList)

theorem sources_agree_mixed :
    readPath true mixed.files (Path.ofText "-1") = (read true mixedText).widen .specification ∧
      evaluate mixed ["show", "--dot", "-1", "--alphabet"] =
        evaluate mixed ["show", "--dot", "-", "--alphabet"] ∧
      evaluate mixed ["run", "--sample", "10", ""] = evaluate mixed ["run", "f", "10", ""] := by
  have holds : HoldsText mixed.files "-1" mixedText := rfl
  have holdsSample : HoldsText mixed.files "f" Specification.sample := rfl
  have named : NamesFile "-1" := ⟨by decide, by decide +kernel⟩
  have namedSample : NamesFile "f" := ⟨by decide, by decide +kernel⟩
  have same : Text.normalizeBreaks mixed.input.toList = Text.normalizeBreaks mixedText.toList := by
    decide +kernel
  rcases sources_agree with ⟨files, shows, runs⟩
  exact ⟨files mixedText true mixed.files _ holds,
    (shows mixed "-1" mixedText mixed.input named holds same).2 ["--dot"] ["--alphabet"]
      (by decide) (by decide),
    runs mixed "f" ["10", ""] namedSample holdsSample (by simp) (by decide)⟩

end Command
end FiniteAutomata
