import FiniteAutomata.Files.Tree
import FiniteAutomata.Log.Entry
import FiniteAutomata.Text.UpperCase

namespace FiniteAutomata
namespace Log

/-!
# Log books

Where entries go.  Entries below the threshold go nowhere, the others to the
console and, if there is a directory for it, to one file with all of them and
one with those that are errors at least.  Opening a book makes the directory
and the files.
-/

def thresholds : List (String × Nat) :=
  [("DEBUG", 10), ("INFO", 20), ("WARNING", 30), ("WARN", 30), ("ERROR", 40),
    ("CRITICAL", 50), ("FATAL", 50), ("NOTSET", 0)]

/-- Two further names that are taken, for what is no rank: a table of layouts,
and the text of the usual layout. -/
def layoutsName : String := "_STYLES"

def usualLayoutName : String := "BASIC_FORMAT"

def usualLayout : String := "%(levelname)s:%(name)s:%(message)s"

/-- Why a name is no threshold: it is unknown, or what it names is a text that
is no level, or is nothing of the kind. -/
inductive ThresholdFault where
  | unknownName (name : String)
  | unknownLevel (text : String)
  | noLevel
deriving DecidableEq, Repr

def ThresholdFault.message? : ThresholdFault → Option String
  | .unknownName name => some ("module 'logging' has no attribute '" ++ name ++ "'")
  | .unknownLevel text => some ("Unknown level: " ++ Text.quoted text)
  | .noLevel => none

/-- The rank of a threshold by its name in any letter case. -/
def threshold (name : String) : Except ThresholdFault Nat :=
  let upper := Text.upper name
  match thresholds.lookup upper with
  | some rank => .ok rank
  | none =>
    if upper = layoutsName then .error .noLevel
    else if upper = usualLayoutName then .error (.unknownLevel usualLayout)
    else .error (.unknownName upper)

/-- An open book: its threshold, and its files with the least rank that goes
into each. -/
structure Book where
  threshold : Nat
  files : List (Path × Nat)
deriving DecidableEq, Repr

/-- The files of a book in a directory. -/
def bookFiles (directory : Path) : List (Path × Nat) :=
  [(directory.inside "app.log", Level.debug.rank), (directory.inside "error.log", Level.error.rank)]

/-- Open a log file to be written on at its end. -/
def openFile (workingDirectory : String) (tree : FileTree) (path : Path) :
    Except FileFault FileTree :=
  let place := path.resolved
  let name := if place.isRooted then place.toText else workingDirectory ++ "/" ++ place.toText
  match tree.read name place with
  | .ok _ => .ok tree
  | .error (.missing _) => tree.write name place []
  | .error fault => .error fault

/-- Open log files up to the first that cannot be opened.  The files so far
come with the tree after them, and with the fault if there is one. -/
def openFiles (workingDirectory : String) (tree : FileTree) :
    List (Path × Nat) → List (Path × Nat) × FileTree × Option FileFault
  | [] => ([], tree, none)
  | (path, rank) :: rest =>
    match openFile workingDirectory tree path with
    | .error fault => ([], tree, some fault)
    | .ok next =>
      let (opened, after, fault) := openFiles workingDirectory next rest
      ((path, rank) :: opened, after, fault)

/-- Open a book.  What has been made before a fault stays. -/
def Book.create (workingDirectory : String) (tree : FileTree) (rank : Nat)
    (directory : Option String) : Book × FileTree × Option FileFault :=
  match directory with
  | none => (⟨rank, []⟩, tree, none)
  | some text =>
    let path := Path.ofText text
    match tree.makeDirectory path with
    | .error fault => (⟨rank, []⟩, tree, some fault)
    | .ok made =>
      let (opened, after, fault) := openFiles workingDirectory made (bookFiles path)
      (⟨rank, opened⟩, after, fault)

/-- The entries that reach the console. -/
def Book.console (book : Book) (entries : List Entry) : List Entry :=
  atLeast book.threshold entries

/-- The entries that reach each file. -/
def Book.written (book : Book) (entries : List Entry) : List (Path × List Entry) :=
  book.files.map fun file => (file.1, atLeast file.2 (book.console entries))

/-- The files that were made or written on, with their new entries. -/
def Book.changed (book : Book) (before : FileTree) (entries : List Entry) :
    List (Path × List Entry) :=
  (book.written entries).filter fun file =>
    !file.2.isEmpty || (before.nodeAt? file.1.resolved).isNone

end Log
end FiniteAutomata
