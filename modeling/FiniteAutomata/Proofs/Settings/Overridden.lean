import FiniteAutomata.Settings.Load
import Mathlib.Data.List.Basic

namespace FiniteAutomata
namespace Settings

open Conversion (Converted both fieldOr inside)

/-!
# Where settings come from

Every field has one source: the text of its variable, or else its member of the
configuration file, or else its default.  What a file says of a field whose
variable holds a text is never looked at, and neither is a member that is no
field.  So two files that agree on the other fields give the same settings or
the same problems, and in settings that are loaded every field follows its own
source.
-/

/-! ## Sources of fields -/

/-- The text of a variable that is set and not empty. -/
def variableText? (environment : Environment) (name : String) : Option String :=
  (environment.lookup name).filter (· != "")

/-- The source of the field of a variable. -/
def source? (environment : Environment) (members : List (String × Value))
    (pair : String × String) : Option Value :=
  ((variableText? environment pair.1).map Value.string).or (Value.member? pair.2 members)

/-- A field follows its source, or is its default if there is none. -/
inductive Follows {α : Type} (convert : Value → Converted α) (default : α) :
    Option Value → α → Prop
  | unset : Follows convert default none default
  | converted {value : Value} {result : α} (converts : convert value = .ok result) :
      Follows convert default (some value) result

/-- Every field of settings follows its own source. -/
structure FromSources (environment : Environment) (members : List (String × Value))
    (settings : Settings) : Prop where
  logLevel : Follows (fun value => Conversion.alone (level value)) standard.logLevel
    (source? environment members ("DFA_LOG_LEVEL", "log_level")) settings.logLevel
  logDirectory : Follows
    (Conversion.optional fun value => Conversion.alone (Conversion.text value))
    standard.logDirectory (source? environment members ("DFA_LOG_DIR", "log_dir"))
    settings.logDirectory
  truncateSymbols : Follows (fun value => Conversion.alone (Conversion.flag value))
    standard.truncateSymbols (source? environment members
      ("DFA_TRUNCATE_SYMBOLS", "truncate_symbols")) settings.truncateSymbols
  maxWordLength : Follows (fun value => Conversion.alone (positive value)) standard.maxWordLength
    (source? environment members ("DFA_MAX_WORD_LENGTH", "max_word_length"))
    settings.maxWordLength

/-- A run of the loader, but for the environment. -/
structure Search where
  tree : FileTree
  workingDirectory : String
  asked : Option String

/-- The mapping in the configuration file; an empty one if there is no file. -/
def Search.members (search : Search) (environment : Environment) :
    Except Failure (List (String × Value)) :=
  match findFile search.tree environment search.workingDirectory search.asked with
  | none => .ok []
  | some file => membersOfFile search.tree file

def Search.load (search : Search) (environment : Environment) : Except Failure Settings :=
  Settings.load search.tree environment search.workingDirectory search.asked

theorem Search.load_eq (search : Search) (environment : Environment) :
    search.load environment = (search.members environment).bind (ofParts environment) := by
  unfold Search.load Settings.load Search.members
  cases findFile search.tree environment search.workingDirectory search.asked with
  | none => rfl
  | some file =>
    dsimp only
    cases membersOfFile search.tree file <;> rfl

/-! ## Members of files -/

/-- The keys of a mapping that is read are distinct. -/
theorem nodup_membersOfText {name text : String} {members : List (String × Value)}
    (found : membersOfText name text = .ok members) : (Entries.keys members).Nodup := by
  unfold membersOfText at found
  split at found
  · cases found
  · split at found
    · cases found
      exact List.nodup_nil
    · split at found
      · split at found
        · cases found
          exact Entries.nodup_keys_collapse _
        · cases found
      · cases found

theorem Search.nodup_members {search : Search} {environment : Environment}
    {members : List (String × Value)} (found : search.members environment = .ok members) :
    (Entries.keys members).Nodup := by
  unfold Search.members at found
  split at found
  · cases found
    exact List.nodup_nil
  · unfold membersOfFile at found
    split at found
    · cases found
    · split at found
      · cases found
      · exact nodup_membersOfText found

/-! ## Overriding -/

variable {environment : Environment} {members : List (String × Value)}

/-- The members with one field set if its variable holds a text. -/
def overrideOne (environment : Environment) (members : List (String × Value))
    (pair : String × String) : List (String × Value) :=
  match variableText? environment pair.1 with
  | some text => Entries.insert pair.2 (.string text) members
  | none => members

theorem nodup_overrideOne (distinct : (Entries.keys members).Nodup) (pair : String × String) :
    (Entries.keys (overrideOne environment members pair)).Nodup := by
  unfold overrideOne
  split
  · exact Entries.nodup_keys_insert _ _ distinct
  · exact distinct

theorem member?_of_nodup (distinct : (Entries.keys members).Nodup) (key : String) :
    Value.member? key members = members.lookup key := by
  rw [Value.member?, Entries.collapse_of_nodup distinct]

theorem member?_overrideOne (distinct : (Entries.keys members).Nodup) (pair : String × String)
    (key : String) : Value.member? key (overrideOne environment members pair) =
      if key = pair.2 then source? environment members pair else Value.member? key members := by
  rw [member?_of_nodup (nodup_overrideOne distinct pair), source?, member?_of_nodup distinct,
    member?_of_nodup distinct, overrideOne]
  split
  · rename_i text found
    rw [Entries.lookup_insert, found]
    rfl
  · rename_i unset
    rw [unset]
    split
    · rename_i same
      rw [same]
      rfl
    · rfl

/-- If the fields are distinct, the source of each is what it is given, and
nothing else changes. -/
theorem member?_foldl_overrideOne (distinct : (Entries.keys members).Nodup)
    {pairs : List (String × String)} (apart : (pairs.map Prod.snd).Nodup) :
    (∀ key ∉ pairs.map Prod.snd,
      Value.member? key (pairs.foldl (overrideOne environment) members) =
        Value.member? key members) ∧
    ∀ pair ∈ pairs, Value.member? pair.2 (pairs.foldl (overrideOne environment) members) =
      source? environment members pair := by
  induction pairs generalizing members with
  | nil => exact ⟨fun _ _ => rfl, by rintro pair ⟨⟩⟩
  | cons first rest inductionHypothesis =>
    rcases List.nodup_cons.mp apart with ⟨fresh, restApart⟩
    rcases inductionHypothesis (nodup_overrideOne distinct first) restApart with
      ⟨untouched, settled⟩
    constructor
    · intro key outside
      rw [List.map_cons, List.mem_cons, not_or] at outside
      rw [List.foldl_cons, untouched key outside.2, member?_overrideOne distinct,
        if_neg outside.1]
    · intro pair among
      rw [List.foldl_cons]
      rcases List.mem_cons.mp among with rfl | later
      · rw [untouched pair.2 fresh, member?_overrideOne distinct, if_pos rfl]
      · have other : pair.2 ≠ first.2 := fun same => fresh (same ▸ List.mem_map_of_mem later)
        rw [settled pair later, source?, member?_overrideOne distinct, if_neg other, source?]

/-- Behind the overriding, a field is its source. -/
theorem member?_override (distinct : (Entries.keys members).Nodup) {pair : String × String}
    (among : pair ∈ fieldVariables) :
    Value.member? pair.2 (override environment members) = source? environment members pair :=
  (member?_foldl_overrideOne distinct (by decide)).2 pair among

/-! ## Converting -/

theorem both_eq_ok_iff {α β : Type} {first : Converted α} {second : Converted β}
    {parts : α × β} :
    both first second = .ok parts ↔ first = .ok parts.1 ∧ second = .ok parts.2 := by
  rcases parts with ⟨value, other⟩
  cases first <;> cases second <;> simp [both]

theorem fieldOr_eq_ok_iff {α : Type} {default result : α} {name : String}
    {convert : Value → Converted α} : fieldOr default members name convert = .ok result ↔
      Follows convert default (Value.member? name members) result := by
  have kept : ∀ converted : Converted α,
      inside (.field name) converted = .ok result ↔ converted = .ok result := by
    intro converted
    cases converted <;> simp [inside, Except.mapError]
  rw [fieldOr, kept]
  cases Value.member? name members with
  | none =>
    constructor
    · rintro ⟨⟩
      exact .unset
    · rintro ⟨⟩
      rfl
  | some value =>
    constructor
    · exact .converted
    · rintro (_ | converts)
      exact converts

theorem Follows.functional {α : Type} {convert : Value → Converted α} {default : α}
    {source : Option Value} {first second : α} (follows : Follows convert default source first)
    (other : Follows convert default source second) : first = second := by
  cases follows with
  | unset =>
    cases other
    rfl
  | converted converts =>
    cases other with
    | converted again => exact Except.ok.inj (converts.symm.trans again)

/-- Only the fields are looked at. -/
theorem ofMembers_congr {others : List (String × Value)}
    (same : ∀ pair ∈ fieldVariables, Value.member? pair.2 members = Value.member? pair.2 others) :
    ofMembers members = ofMembers others := by
  simp only [fieldVariables, List.forall_mem_cons] at same
  rcases same with ⟨logLevel, logDirectory, truncateSymbols, maxWordLength, _⟩
  simp only [ofMembers, fieldOr, logLevel, logDirectory, truncateSymbols, maxWordLength]

theorem ofMembers_eq_ok_iff {settings : Settings} : ofMembers members = .ok settings ↔
    Follows (fun value => Conversion.alone (level value)) standard.logLevel
        (Value.member? "log_level" members) settings.logLevel ∧
      Follows (Conversion.optional fun value => Conversion.alone (Conversion.text value))
        standard.logDirectory (Value.member? "log_dir" members) settings.logDirectory ∧
      Follows (fun value => Conversion.alone (Conversion.flag value)) standard.truncateSymbols
        (Value.member? "truncate_symbols" members) settings.truncateSymbols ∧
      Follows (fun value => Conversion.alone (positive value)) standard.maxWordLength
        (Value.member? "max_word_length" members) settings.maxWordLength := by
  rcases settings with ⟨logLevel, logDirectory, truncateSymbols, maxWordLength⟩
  simp only [← fieldOr_eq_ok_iff]
  have whole : ∀ converted : Converted (Log.Level × Option String × Bool × Int),
      (converted.map fun parts => (⟨parts.1, parts.2.1, parts.2.2.1, parts.2.2.2⟩ : Settings)) =
          .ok ⟨logLevel, logDirectory, truncateSymbols, maxWordLength⟩ ↔
        converted = .ok (logLevel, logDirectory, truncateSymbols, maxWordLength) := by
    intro converted
    cases converted <;> simp [Except.map, Prod.ext_iff]
  rw [ofMembers, whole, both_eq_ok_iff, both_eq_ok_iff, both_eq_ok_iff]

/-- The settings of a mapping are those whose fields follow their sources. -/
theorem ofParts_eq_ok_iff (distinct : (Entries.keys members).Nodup) {settings : Settings} :
    ofParts environment members = .ok settings ↔ FromSources environment members settings := by
  have sources : ∀ pair ∈ fieldVariables,
      Value.member? pair.2 (override environment members) = source? environment members pair :=
    fun _ => member?_override distinct
  simp only [fieldVariables, List.forall_mem_cons] at sources
  rcases sources with ⟨logLevel, logDirectory, truncateSymbols, maxWordLength, _⟩
  have converted : ofParts environment members = .ok settings ↔
      ofMembers (override environment members) = .ok settings := by
    unfold ofParts ofRecord
    cases ofMembers (override environment members) <;> simp [Except.mapError]
  rw [converted, ofMembers_eq_ok_iff, logLevel, logDirectory, truncateSymbols, maxWordLength]
  constructor
  · rintro ⟨first, second, third, fourth⟩
    exact ⟨first, second, third, fourth⟩
  · rintro ⟨first, second, third, fourth⟩
    exact ⟨first, second, third, fourth⟩

/-- Members that agree on the fields without a variable give the same. -/
theorem ofParts_congr {others : List (String × Value)} (distinct : (Entries.keys members).Nodup)
    (otherDistinct : (Entries.keys others).Nodup)
    (agree : ∀ pair ∈ fieldVariables, variableText? environment pair.1 = none →
      Value.member? pair.2 members = Value.member? pair.2 others) :
    ofParts environment members = ofParts environment others := by
  have same : ∀ pair ∈ fieldVariables, source? environment members pair =
      source? environment others pair := by
    intro pair among
    unfold source?
    cases held : variableText? environment pair.1 with
    | some text => rfl
    | none => rw [agree pair among held]
  have fields : ofMembers (override environment members) =
      ofMembers (override environment others) := by
    apply ofMembers_congr
    intro pair among
    rw [member?_override distinct among, member?_override otherDistinct among, same pair among]
  rw [ofParts, ofRecord, fields]
  rfl

theorem ofParts_cases (environment : Environment) (members : List (String × Value)) :
    (∃ settings, ofParts environment members = .ok settings) ∨
      ∃ problems, ofParts environment members = .error (.rejected ⟨recordName, problems⟩) := by
  unfold ofParts ofRecord
  cases ofMembers (override environment members) with
  | ok settings => exact .inl ⟨settings, rfl⟩
  | error problems => exact .inr ⟨problems, rfl⟩

/-- Fields with the same sources are the same. -/
theorem field_of_source {other : Environment} {others : List (String × Value)}
    {first second : Settings} (settled : FromSources environment members first)
    (alsoSettled : FromSources other others second) {pair : String × String}
    (among : pair ∈ fieldVariables)
    (same : source? environment members pair = source? other others pair) :
    first.toMembers.lookup pair.2 = second.toMembers.lookup pair.2 := by
  simp only [fieldVariables, List.mem_cons, List.not_mem_nil, or_false] at among
  rcases among with rfl | rfl | rfl | rfl
  · have field := settled.logLevel.functional (same ▸ alsoSettled.logLevel)
    simp [toMembers, Entries.lookup_entry, field]
  · have field := settled.logDirectory.functional (same ▸ alsoSettled.logDirectory)
    simp [toMembers, Entries.lookup_entry, field]
  · have field := settled.truncateSymbols.functional (same ▸ alsoSettled.truncateSymbols)
    simp [toMembers, Entries.lookup_entry, field]
  · have field := settled.maxWordLength.functional (same ▸ alsoSettled.maxWordLength)
    simp [toMembers, Entries.lookup_entry, field]

/-! ## Loading -/

/-- Variables hide what the file says of their fields.  Files that agree on the
fields without a variable have the same outcome, be it settings or problems;
settings are loaded exactly if each field follows its source; and the sources
of a field settle it, in any environment and with any other members. -/
theorem variables_hide_file :
    (∀ environment (first second : Search) members others,
      first.members environment = .ok members → second.members environment = .ok others →
      (∀ pair ∈ fieldVariables, variableText? environment pair.1 = none →
        Value.member? pair.2 members = Value.member? pair.2 others) →
      first.load environment = second.load environment ∧
        ((∃ settings, first.load environment = .ok settings) ∨
          ∃ problems, first.load environment = .error (.rejected ⟨recordName, problems⟩))) ∧
    (∀ environment (search : Search) settings, search.load environment = .ok settings ↔
      ∃ members, search.members environment = .ok members ∧
        FromSources environment members settings) ∧
    ∀ environment other (first second : Search) members others settings changed,
      first.members environment = .ok members → second.members other = .ok others →
      first.load environment = .ok settings → second.load other = .ok changed →
      ∀ pair ∈ fieldVariables,
        source? environment members pair = source? other others pair →
          settings.toMembers.lookup pair.2 = changed.toMembers.lookup pair.2 := by
  have loaded : ∀ {environment} {search : Search} {members},
      search.members environment = .ok members →
        search.load environment = ofParts environment members := by
    intro environment search members found
    rw [search.load_eq, found]
    rfl
  refine ⟨?_, ?_, ?_⟩
  · intro environment first second members others found otherFound agree
    rw [loaded found, loaded otherFound]
    exact ⟨ofParts_congr (Search.nodup_members found) (Search.nodup_members otherFound) agree,
      ofParts_cases environment members⟩
  · intro environment search settings
    constructor
    · intro succeeds
      cases found : search.members environment with
      | error failure =>
        rw [search.load_eq, found] at succeeds
        cases succeeds
      | ok members =>
        rw [loaded found] at succeeds
        exact ⟨members, rfl, (ofParts_eq_ok_iff (Search.nodup_members found)).mp succeeds⟩
    · rintro ⟨members, found, settled⟩
      rw [loaded found]
      exact (ofParts_eq_ok_iff (Search.nodup_members found)).mpr settled
  · intro environment other first second members others settings changed found otherFound
      succeeds alsoSucceeds pair among
    rw [loaded found, ofParts_eq_ok_iff (Search.nodup_members found)] at succeeds
    rw [loaded otherFound, ofParts_eq_ok_iff (Search.nodup_members otherFound)] at alsoSucceeds
    exact field_of_source succeeds alsoSucceeds among

/-- A directory with this text as the configuration that is asked for. -/
def configured (text : String) : Search :=
  ⟨⟨[(Path.ofText "dfa.yaml", .file (Text.encode text.toList))]⟩, "/work", some "dfa.yaml"⟩

/-- The level is no text, and a member is no field. -/
def strangeFile : Search :=
  configured "log_level: [3]\nmax_word_length: 7\nother: x\n"

/-- The level is unknown. -/
def loudFile : Search :=
  configured "max_word_length: 7\nlog_level: loud\n"

def directoryFile : Search :=
  configured "log_dir: logs\nmax_word_length: 7\n"

/-- The level is set, and a variable without a text sets nothing. -/
def levelSet : Environment :=
  [("DFA_LOG_LEVEL", "error"), ("DFA_LOG_DIR", "")]

/-- What the other three fields are, if only a number is given for the last. -/
def otherFields (members : List (String × Value)) : Bool × Bool × Option Int :=
  ((Value.member? "log_dir" members).isNone, (Value.member? "truncate_symbols" members).isNone,
    match Value.member? "max_word_length" members with
    | some (.int value) => some value
    | _ => none)

theorem exists_otherFields {search : Search} {environment : Environment} {first second : Bool}
    {limit : Int} (computed : (search.members environment).map otherFields =
      .ok (first, second, some limit)) :
    ∃ members, search.members environment = .ok members ∧
      (Value.member? "log_dir" members).isNone = first ∧
      (Value.member? "truncate_symbols" members).isNone = second ∧
      Value.member? "max_word_length" members = some (.int limit) := by
  cases found : search.members environment with
  | error failure =>
    rw [found] at computed
    cases computed
  | ok members =>
    rw [found] at computed
    have fields := Except.ok.inj computed
    simp only [otherFields, Prod.mk.injEq] at fields
    rcases fields with ⟨directory, flag, number⟩
    refine ⟨members, rfl, directory, flag, ?_⟩
    split at number
    · rename_i held
      rw [held, Option.some.inj number]
    · cases number

/-- Settings from `loudFile` with the level set. -/
def limited : Settings :=
  { standard with logLevel := .error, maxWordLength := 7 }

/-- Settings from `directoryFile` with the flag set. -/
def directed : Settings :=
  { standard with logDirectory := some "logs", truncateSymbols := true, maxWordLength := 7 }

theorem variables_hide_file_levelSet :
    ∃ members others last, strangeFile.members levelSet = .ok members ∧
      loudFile.members levelSet = .ok others ∧
      (∀ pair ∈ fieldVariables, variableText? levelSet pair.1 = none →
        Value.member? pair.2 members = Value.member? pair.2 others) ∧
      strangeFile.load levelSet = loudFile.load levelSet ∧
      loudFile.load levelSet = .ok limited ∧ FromSources levelSet others limited ∧
      directoryFile.members [("DFA_TRUNCATE_SYMBOLS", "1")] = .ok last ∧
      directoryFile.load [("DFA_TRUNCATE_SYMBOLS", "1")] = .ok directed ∧
      source? levelSet others ("DFA_MAX_WORD_LENGTH", "max_word_length") =
        source? [("DFA_TRUNCATE_SYMBOLS", "1")] last ("DFA_MAX_WORD_LENGTH", "max_word_length") ∧
      limited.toMembers.lookup "max_word_length" = directed.toMembers.lookup "max_word_length" := by
  rcases variables_hide_file with ⟨hidden, settles, settled⟩
  have strange : (strangeFile.members levelSet).map otherFields = .ok (true, true, some 7) := by
    decide +kernel
  have loud : (loudFile.members levelSet).map otherFields = .ok (true, true, some 7) := by
    decide +kernel
  have logged : (directoryFile.members [("DFA_TRUNCATE_SYMBOLS", "1")]).map otherFields =
      .ok (false, true, some 7) := by
    decide +kernel
  have loaded : loudFile.load levelSet = .ok limited := by decide +kernel
  have lastLoaded : directoryFile.load [("DFA_TRUNCATE_SYMBOLS", "1")] = .ok directed := by
    decide +kernel
  rcases exists_otherFields strange with ⟨members, found, directory, flag, number⟩
  rcases exists_otherFields loud with ⟨others, otherFound, otherDirectory, otherFlag, otherNumber⟩
  rcases exists_otherFields logged with ⟨last, lastFound, _, _, lastNumber⟩
  rw [Option.isNone_iff_eq_none] at directory flag otherDirectory otherFlag
  have agree : ∀ pair ∈ fieldVariables, variableText? levelSet pair.1 = none →
      Value.member? pair.2 members = Value.member? pair.2 others := by
    simp only [fieldVariables, List.forall_mem_cons]
    refine ⟨fun unset => ?_, fun _ => directory.trans otherDirectory.symm,
      fun _ => flag.trans otherFlag.symm, fun _ => number.trans otherNumber.symm, by simp⟩
    exact absurd unset (by decide)
  have limit : source? levelSet others ("DFA_MAX_WORD_LENGTH", "max_word_length") =
      source? [("DFA_TRUNCATE_SYMBOLS", "1")] last ("DFA_MAX_WORD_LENGTH", "max_word_length") := by
    rw [source?, source?, otherNumber, lastNumber]
    rfl
  have same := hidden levelSet strangeFile loudFile members others found otherFound agree
  rcases (settles levelSet loudFile limited).mp loaded with ⟨_, held, follows⟩
  cases otherFound.symm.trans held
  exact ⟨members, others, last, found, otherFound, agree, same.1, loaded, follows, lastFound,
    lastLoaded, limit, settled levelSet _ loudFile directoryFile others last limited directed
      otherFound lastFound loaded lastLoaded _ (by decide) limit⟩

end Settings
end FiniteAutomata
