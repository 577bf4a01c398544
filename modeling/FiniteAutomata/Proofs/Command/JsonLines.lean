import FiniteAutomata.Proofs.Command.RunOutcome
import FiniteAutomata.Proofs.Json.OneLine

namespace FiniteAutomata
namespace Command

/-!
# Runs as lines of JSON

A run in JSON is one line, whatever characters its word, the names of its
states and its symbols are, so that the output has a line for each word.  The
line holds an object with the seven fields of the run and nothing else, and
each field is read from it as it is.
-/

/-! ## The fields of a run -/

/-- What a line of JSON says about a run. -/
structure RunFields where
  word : String
  accepted : Bool
  finalState : Option String
  reason : Option String
  symbol : Option String
  path : List String
  consumed : Int
deriving DecidableEq, Repr

namespace RunFields

/-- A text, if it is not null. -/
def text? : Value → Option (Option String)
  | .string text => some (some text)
  | .null => some none
  | _ => none

def name? : Value → Option String
  | .string text => some text
  | _ => none

/-- The fields that an object has, if they are those of a run. -/
def ofValue? : Value → Option RunFields
  | .object [("word", .string word), ("accepted", .bool accepted), ("final_state", finalState),
      ("reason", reason), ("symbol", symbol), ("path", .list path), ("consumed", .int consumed)] =>
    match text? finalState, text? reason, text? symbol, path.mapM name? with
    | some finalState, some reason, some symbol, some path =>
      some ⟨word, accepted, finalState, reason, symbol, path, consumed⟩
    | _, _, _, _ => none
  | _ => none

/-- The fields of a line of JSON. -/
def ofLine? (line : List Char) : Option RunFields :=
  (Json.decode? (String.ofList line)).bind ofValue?

/-- The fields that a run has. -/
def ofRun (result : RunResult) : RunFields :=
  ⟨result.word, result.accepted, result.finalState, result.reason.map Rejection.message,
    result.symbol.map String.singleton, result.path, result.consumed⟩

end RunFields

open RunFields

/-! ## One run -/

theorem text?_textValue (found : Option String) : text? (RunResult.textValue found) = some found := by
  cases found with
  | none => rfl
  | some text => rfl

theorem mapM_name? (names : List String) : (names.map Value.string).mapM name? = some names := by
  induction names with
  | nil => rfl
  | cons name rest inductionHypothesis => simp [name?, inductionHypothesis]

theorem ofValue?_toValue (result : RunResult) :
    ofValue? result.toValue = some (ofRun result) := by
  simp only [RunResult.toValue, ofValue?, text?_textValue, mapM_name?]
  rfl

open Json (Legible)

theorem legible_textValue {limit : Nat} (depth : Nat) (found : Option String) :
    Legible limit depth (RunResult.textValue found) := by
  cases found with
  | none => exact .null depth
  | some text => exact .string depth text

theorem legible_toValue (result : RunResult) :
    Legible (Nat.toDigits 10 result.consumed).length 2 result.toValue := by
  have path : Legible (Nat.toDigits 10 result.consumed).length 1
      (.list (result.path.map Value.string)) := by
    apply Legible.list
    intro item held
    rcases List.mem_map.mp held with ⟨name, _, rfl⟩
    exact .string _ name
  apply Legible.object
  simp only [List.forall_mem_cons]
  exact ⟨.string _ _, .bool _ _, legible_textValue _ _, legible_textValue _ _,
    legible_textValue _ _, path, .int _ (Nat.le_refl _), List.forall_mem_nil _⟩

/-- A run in JSON stands in one line. -/
theorem feed_notMem_toJson (result : RunResult) : '\n' ∉ result.toJson.toList := by
  rw [RunResult.toJson, Json.write, String.toList_ofList]
  exact Json.feed_notMem_chars (legible_toValue result)

/-- A run is read from its line. -/
theorem ofLine?_toJson (result : RunResult) : ofLine? result.toJson.toList = some (ofRun result) := by
  rw [ofLine?, String.ofList_toList, RunResult.toJson, Json.decode?_write (legible_toValue result)]
  exact ofValue?_toValue result

/-! ## All runs -/

section Words

variable (automaton : Automaton) {limit : Int} (trace : Bool) {words : List String}

/-- Words of which none is too long are all reported, each in a line. -/
theorem output_runWords_json (fits : ∀ word ∈ words, (word.length : Int) ≤ limit) :
    (runWords automaton limit trace true words).output.toList =
      (words.map fun word => (automaton.run word).toJson.toList).flatMap fun line =>
        line ++ ['\n'] := by
  have all : firstLong limit words = words.length :=
    firstLong_eq_length fun word member => Int.not_lt.mpr (fits word member)
  rw [output_runWords, all, List.take_length, List.flatMap_map]
  apply List.flatMap_congr
  intro word _
  exact String.toList_append

/-- The output in JSON has exactly one line feed for each word, and the piece in
front of the feed of a word is JSON with exactly the fields of its run, for any
automaton and any characters in its names, its symbols and the words.  Whoever
runs words through an automaton that was read gets this output. -/
theorem json_lines (fits : ∀ word ∈ words, (word.length : Int) ≤ limit) :
    (runWords automaton limit trace true words).output.toList.count '\n' = words.length ∧
    (Text.feedLines (runWords automaton limit trace true words).output.toList).map ofLine? =
      words.map (fun word => some (ofRun (automaton.run word))) ∧
    ∀ surroundings settings source, settings.maxWordLength = limit →
      (readSource surroundings settings.truncateSymbols source).result = .ok automaton →
      ((Action.run source words trace true).perform surroundings settings).1.output =
        (runWords automaton limit trace true words).output := by
  have solid : ∀ line ∈ words.map fun word => (automaton.run word).toJson.toList,
      '\n' ∉ line := by
    intro line member
    rcases List.mem_map.mp member with ⟨word, _, rfl⟩
    exact feed_notMem_toJson _
  rw [output_runWords_json automaton trace fits]
  refine ⟨?_, ?_, ?_⟩
  · rw [Text.count_feed_terminated solid, List.length_map]
  · rw [Text.feedLines_terminated solid, List.map_map]
    apply List.map_congr_left
    intro word _
    rw [Function.comp_apply, ofLine?_toJson]
  · rintro surroundings settings source rfl loaded
    rw [perform_run_eq loaded]
    rfl

end Words

/-- An automaton whose names and symbols have to be escaped. -/
def escapes : Automaton :=
  ⟨[⟨"a\"\\", true, [('\n', 0), ('"', 1)]⟩, ⟨"\n\x1f😀", false, []⟩], ['\n', '"', '\\'], some 0,
    by constructor <;> decide⟩

/-- A line feed, a quote and a backslash, and no symbol at all: three lines. -/
theorem json_lines_escapes :
    (∀ word ∈ ["\n", "\"\\", ""], (word.length : Int) ≤ 2) ∧
      (runWords escapes 2 false true ["\n", "\"\\", ""]).output.toList.count '\n' = 3 ∧
      (Text.feedLines (runWords escapes 2 false true ["\n", "\"\\", ""]).output.toList).map
          ofLine? =
        [some ⟨"\n", true, some "a\"\\", none, none, ["a\"\\", "a\"\\"], 1⟩,
          some ⟨"\"\\", false, some "\n\x1f😀",
            some "no transition for symbol '\\' from state '\n\x1f😀'", some "\\",
            ["a\"\\", "\n\x1f😀"], 1⟩,
          some ⟨"", true, some "a\"\\", none, none, ["a\"\\"], 0⟩] := by
  have fits : ∀ word ∈ ["\n", "\"\\", ""], (word.length : Int) ≤ 2 := by decide +kernel
  rcases json_lines escapes false fits with ⟨count, lines, _⟩
  exact ⟨fits, count, lines.trans (by decide +kernel)⟩

end Command
end FiniteAutomata
