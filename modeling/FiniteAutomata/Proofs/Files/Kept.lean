import FiniteAutomata.Log.Book
import FiniteAutomata.Proofs.Files.ReadBack

namespace FiniteAutomata

/-!
# Files that stay

Opening a log makes directories and empty files, but nothing is put where
something stands.  So whatever a path led to before it leads to afterwards, and
a file that could be read is read as before.
-/

namespace FileTree

/-- Whatever names lead to in the first tree they lead to in the second. -/
def Keeps (before after : FileTree) : Prop :=
  ∀ base directory names node, before.follow base directory names = .found node →
    after.follow base directory names = .found node

variable {tree before between after : FileTree} {path : Path} {node : FileNode}

theorem Keeps.refl (tree : FileTree) : Keeps tree tree :=
  fun _ _ _ _ found => found

theorem Keeps.trans (first : Keeps before between) (second : Keeps between after) :
    Keeps before after := fun base directory names node found =>
  second base directory names node (first base directory names node found)

/-- A file that could be read is read as before. -/
theorem Keeps.read (keeps : Keeps before after) {name : String} {octets : List UInt8}
    (held : before.read name path = .ok octets) : after.read name path = .ok octets := by
  unfold FileTree.read at held ⊢
  split at held
  · cases held
  · split at held
    · rename_i given found
      cases held
      rw [show after.find path = _ from keeps _ _ _ _ found]
    all_goals cases held

/-! ## Putting something in a free place -/

/-- What stands elsewhere stays. -/
theorem nodeAt?_put_of_free {other : Path} {old : FileNode}
    (held : tree.nodeAt? other = some old) (free : tree.nodeAt? path.resolved = none) :
    (tree.put path node).nodeAt? other = some old := by
  cases old with
  | directory => exact nodeAt?_put_of_directory held (by simp [free])
  | file octets =>
    have elsewhere : other.plain ≠ path.resolved.plain := by
      intro same
      rw [nodeAt?_congr same, free] at held
      cases held
    have passed : (other.plain == path.resolved.plain) = false := by simp [elsewhere]
    unfold nodeAt? put at *
    split at held
    · cases held
    · rename_i outside
      rw [if_neg outside, List.lookup_cons, passed]
      dsimp only
      rw [lookup_filter_of_ne elsewhere]
      split at held
      · exact held
      · split at held
        · cases held
        · cases held

theorem Keeps.put (free : tree.nodeAt? path.resolved = none) (node : FileNode) :
    Keeps tree (tree.put path node) := by
  intro base directory names old found
  induction names generalizing directory with
  | nil => exact found
  | cons name rest inductionHypothesis =>
    unfold follow at found ⊢
    by_cases up : name = ".."
    · rw [if_pos up] at found ⊢
      exact inductionHypothesis _ found
    rw [if_neg up] at found ⊢
    by_cases long : Path.nameLimit < name.utf8ByteSize
    · rw [if_pos long] at found
      cases found
    rw [if_neg long] at found ⊢
    cases held : tree.nodeAt? ⟨base, directory ++ [name]⟩ with
    | none =>
      rw [held] at found
      cases rest with
      | nil => cases found
      | cons next others => cases found
    | some here =>
      rw [held] at found
      rw [nodeAt?_put_of_free held free]
      cases here with
      | directory => exact inductionHypothesis _ found
      | file octets =>
        cases rest with
        | nil => exact found
        | cons next others => cases found

/-- Nothing stands at a free place. -/
theorem nodeAt?_of_follow_free {base : Path.Base} {directory names : List String}
    (free : tree.follow base directory names = .free) :
    tree.nodeAt? (placeOf base directory names) = none := by
  induction names generalizing directory with
  | nil => cases free
  | cons name rest inductionHypothesis =>
    unfold follow at free
    by_cases up : name = ".."
    · rw [if_pos up] at free
      rw [up]
      exact inductionHypothesis free
    rw [if_neg up] at free
    rw [placeOf_down up]
    by_cases long : Path.nameLimit < name.utf8ByteSize
    · rw [if_pos long] at free
      cases free
    rw [if_neg long] at free
    cases held : tree.nodeAt? ⟨base, directory ++ [name]⟩ with
    | none =>
      rw [held] at free
      cases rest with
      | nil => exact held
      | cons next others => cases free
    | some here =>
      rw [held] at free
      cases here with
      | directory => exact inductionHypothesis free
      | file octets =>
        cases rest with
        | nil => cases free
        | cons next others => cases free

theorem Keeps.put_of_find (free : tree.find path = .free) (node : FileNode) :
    Keeps tree (tree.put path node) :=
  .put (nodeAt?_of_follow_free free) node

/-! ## Making directories -/

theorem Keeps.makeInside (made : tree.makeInside path = .ok after) : Keeps tree after := by
  unfold FileTree.makeInside at made
  dsimp only at made
  split at made
  · cases made
  · split at made
    · cases made
      exact .refl tree
    · cases made
    · rename_i free
      cases made
      exact .put_of_find free .directory
    all_goals cases made

theorem Keeps.makeReversed {base : Path.Base} {names : List String}
    (made : tree.makeReversed base names = .ok after) : Keeps tree after := by
  induction names generalizing after with
  | nil => exact .makeInside made
  | cons name outer inductionHypothesis =>
    unfold FileTree.makeReversed at made
    dsimp only at made
    split at made
    · split at made
      · rename_i above reached
        exact (inductionHypothesis reached).trans (.makeInside made)
      · cases made
    · exact .makeInside made

theorem Keeps.makeDirectory (made : tree.makeDirectory path = .ok after) : Keeps tree after :=
  .makeReversed made

/-! ## Making files -/

/-- A file that was missing is written to a free place. -/
theorem Keeps.write_missing {name other : String} {octets : List UInt8}
    (unread : tree.read name path = .error (.missing other))
    (written : tree.write name path octets = .ok after) : Keeps tree after := by
  unfold FileTree.read at unread
  unfold FileTree.write at written
  split at written
  · cases written
  · rename_i possible
    rw [possible] at unread
    dsimp only at unread
    split at written
    · cases written
    · rename_i found
      rw [found] at unread
      cases unread
    · rename_i free
      cases written
      exact .put_of_find free _
    all_goals cases written

end FileTree

namespace Log

open FileTree (Keeps)

/-! ## Opening a book -/

theorem keeps_openFile {workingDirectory : String} {tree after : FileTree} {path : Path}
    (opened : openFile workingDirectory tree path = .ok after) : Keeps tree after := by
  unfold openFile at opened
  dsimp only at opened
  split at opened
  · cases opened
    exact .refl tree
  · rename_i unread
    exact .write_missing unread opened
  · cases opened

theorem keeps_openFiles (workingDirectory : String) (tree : FileTree) (files : List (Path × Nat)) :
    Keeps tree (openFiles workingDirectory tree files).2.1 := by
  induction files generalizing tree with
  | nil => exact .refl tree
  | cons file rest inductionHypothesis =>
    unfold openFiles
    split
    · exact .refl tree
    · rename_i next opened
      exact (keeps_openFile opened).trans (inductionHypothesis next)

/-- A book is opened without touching what was there. -/
theorem Book.keeps_create (workingDirectory : String) (tree : FileTree) (rank : Nat)
    (directory : Option String) :
    Keeps tree (Book.create workingDirectory tree rank directory).2.1 := by
  unfold Book.create
  split
  · exact .refl tree
  · dsimp only
    split
    · exact .refl tree
    · rename_i made reached
      exact (Keeps.makeDirectory reached).trans (keeps_openFiles workingDirectory made _)

end Log
end FiniteAutomata
