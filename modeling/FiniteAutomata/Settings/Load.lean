import FiniteAutomata.Files.Tree
import FiniteAutomata.Settings.Basic
import FiniteAutomata.Text.Lines
import FiniteAutomata.Yaml.Reader

namespace FiniteAutomata
namespace Settings

open Conversion (Rejected)

/-!
# Loading settings

Settings come from a configuration file, if there is one, and from variables
of the environment, which go before the file.  The file is the one that is
asked for, or the one that a variable names if it is there, or the one at the
usual place in the working directory if it is there.  Only a file that is
asked for has to be there.
-/

abbrev Environment := List (String × String)

/-- The variables that set a field, with the field. -/
def fieldVariables : List (String × String) :=
  [("DFA_LOG_LEVEL", "log_level"), ("DFA_LOG_DIR", "log_dir"),
    ("DFA_TRUNCATE_SYMBOLS", "truncate_symbols"), ("DFA_MAX_WORD_LENGTH", "max_word_length")]

/-- The variable that names the configuration file. -/
def fileVariable : String := "DFA_CONFIG"

/-- Why settings cannot be loaded. -/
inductive Failure where
  | file (fault : FileFault)
  | octets (fault : Text.DecodingFault)
  | configuration (fault : Yaml.Fault)
  | notMapping (name : String)
  | keyNotText
  | rejected (rejected : Rejected)
deriving DecidableEq, Repr

/-- The words for a file that holds no mapping. -/
def notMappingMessage (name : String) : String :=
  "Config file " ++ name ++ " must contain a mapping"

/-- The words for a configuration that does not convert. -/
def rejectedMessage (rejected : Rejected) : String :=
  match rejected.problems with
  | [_] => "1 validation error for " ++ rejected.record
  | problems => toString problems.length ++ " validation errors for " ++ rejected.record

/-- A file with the name that it goes by in messages. -/
structure Located where
  name : String
  path : Path
deriving DecidableEq, Repr

/-- A file by the normal form of its path. -/
def Located.ofText (text : String) : Located :=
  ⟨(Path.ofText text).toText, Path.ofText text⟩

/-- The usual place of the configuration file. -/
def usualPlace (workingDirectory : String) : Located :=
  ⟨workingDirectory ++ "/config/dfa.yaml", Path.ofText "config/dfa.yaml"⟩

/-- The configuration file to be read. -/
def findFile (tree : FileTree) (environment : Environment) (workingDirectory : String)
    (asked : Option String) : Option Located :=
  match asked.filter (· != "") with
  | some text => some (.ofText text)
  | none =>
    match (environment.lookup fileVariable).filter fun text =>
        text != "" && tree.presentAt text with
    | some text => some (.ofText text)
    | none =>
      if tree.present (usualPlace workingDirectory).path then some (usualPlace workingDirectory)
      else none

/-- The members of the mapping that a configuration text denotes, each key
once.  A text that stands for nothing is an empty mapping. -/
def membersOfText (name : String) (text : String) : Except Failure (List (String × Value)) :=
  match Yaml.read text with
  | .error fault => .error (.configuration fault)
  | .ok node =>
    if node.isVoid then .ok []
    else
      match node with
      | .mapping entries =>
        match Yaml.Node.members? entries with
        | some members => .ok (Entries.collapse members)
        | none => .error .keyNotText
      | _ => .error (.notMapping name)

/-- The members of the mapping in a configuration file. -/
def membersOfFile (tree : FileTree) (file : Located) : Except Failure (List (String × Value)) :=
  match tree.read file.name file.path with
  | .error fault => .error (.file fault)
  | .ok octets =>
    match Text.decode octets with
    | .error fault => .error (.octets fault.inPieces)
    | .ok text => membersOfText file.name (String.ofList (Text.normalizeBreaks text))

/-- The members with every field set that has a variable with a text. -/
def override (environment : Environment) (members : List (String × Value)) :
    List (String × Value) :=
  fieldVariables.foldl
    (fun members pair =>
      match (environment.lookup pair.1).filter (· != "") with
      | some text => Entries.insert pair.2 (.string text) members
      | none => members)
    members

def ofParts (environment : Environment) (members : List (String × Value)) :
    Except Failure Settings :=
  (ofRecord (override environment members)).mapError .rejected

def load (tree : FileTree) (environment : Environment) (workingDirectory : String)
    (asked : Option String) : Except Failure Settings :=
  match findFile tree environment workingDirectory asked with
  | none => ofParts environment []
  | some file =>
    match membersOfFile tree file with
    | .error failure => .error failure
    | .ok members => ofParts environment members

end Settings
end FiniteAutomata
