import FiniteAutomata.Proofs.Files.NormalPath

namespace FiniteAutomata
namespace FileTree

/-!
# Files that are read back

A file that has been written is read back under the same path, with the octets
that were written.  The way to it is the same before and after: its names are
followed through directories, and the place of a file that can be written is
none of these, so that writing changes nothing on the way.
-/

/-- The place that names lead to from a directory. -/
def placeOf (base : Path.Base) (directory names : List String) : Path :=
  { base := base
    names := names.foldl (Path.resolved.climb ⟨base, []⟩) directory }

theorem placeOf_down {name : String} (proper : name ≠ "..") (base : Path.Base)
    (directory rest : List String) :
    placeOf base directory (name :: rest) = placeOf base (directory ++ [name]) rest := by
  rw [placeOf, List.foldl_cons, Path.resolved.climb, if_neg proper]
  rfl

/-- Names lead from a directory to a place where a file can be. -/
inductive Leads (tree : FileTree) (base : Path.Base) : List String → List String → Prop
  | last {directory : List String} {name : String} (proper : name ≠ "..")
      (short : name.utf8ByteSize ≤ Path.nameLimit)
      (open_ : tree.nodeAt? ⟨base, directory ++ [name]⟩ ≠ some .directory) :
      Leads tree base directory [name]
  | up {directory rest : List String}
      (leads : Leads tree base (Path.above (base != .workingDirectory) directory) rest) :
      Leads tree base directory (".." :: rest)
  | down {directory rest : List String} {name : String} (proper : name ≠ "..")
      (short : name.utf8ByteSize ≤ Path.nameLimit)
      (held : tree.nodeAt? ⟨base, directory ++ [name]⟩ = some .directory)
      (leads : Leads tree base (directory ++ [name]) rest) :
      Leads tree base directory (name :: rest)

variable {tree : FileTree} {base : Path.Base} {directory names : List String}
  {octets : List UInt8}

/-! ## Following names -/

/-- Names that are followed to a free place or to a file lead there. -/
theorem leads_of_follow (ends : tree.follow base directory names = .free ∨
    ∃ octets, tree.follow base directory names = .found (.file octets)) :
    Leads tree base directory names := by
  induction names generalizing directory with
  | nil => simp [follow] at ends
  | cons name rest inductionHypothesis =>
    unfold follow at ends
    by_cases up : name = ".."
    · rw [if_pos up] at ends
      rw [up]
      exact .up (inductionHypothesis ends)
    · rw [if_neg up] at ends
      by_cases long : Path.nameLimit < name.utf8ByteSize
      · simp [if_pos long] at ends
      · rw [if_neg long] at ends
        have short := Nat.le_of_not_lt long
        cases held : tree.nodeAt? ⟨base, directory ++ [name]⟩ with
        | none =>
          rw [held] at ends
          cases rest with
          | nil => exact .last up short (by simp [held])
          | cons next others => simp at ends
        | some node =>
          rw [held] at ends
          cases node with
          | directory => exact .down up short held (inductionHypothesis ends)
          | file octets =>
            cases rest with
            | nil => exact .last up short (by simp [held])
            | cons next others => simp at ends

/-- Names that lead to the place of a file are followed to the file. -/
theorem follow_of_leads (leads : Leads tree base directory names)
    (held : tree.nodeAt? (placeOf base directory names) = some (.file octets)) :
    tree.follow base directory names = .found (.file octets) := by
  induction leads with
  | last proper short open_ =>
    rw [placeOf_down proper] at held
    unfold follow
    rw [if_neg proper, if_neg (Nat.not_lt.mpr short)]
    change tree.nodeAt? ⟨base, _⟩ = some (.file octets) at held
    rw [List.foldl_nil] at held
    rw [held]
  | up leads inductionHypothesis =>
    unfold follow
    rw [if_pos rfl]
    exact inductionHypothesis held
  | down proper short passed leads inductionHypothesis =>
    rw [placeOf_down proper] at held
    unfold follow
    rw [if_neg proper, if_neg (Nat.not_lt.mpr short), passed]
    exact inductionHypothesis held

/-- Names lead to a name in a directory, which is no directory itself. -/
theorem Leads.exists_name (leads : Leads tree base directory names) : ∃ inside name,
    placeOf base directory names = ⟨base, inside ++ [name]⟩ ∧ name ≠ ".." ∧
      tree.nodeAt? ⟨base, inside ++ [name]⟩ ≠ some .directory := by
  induction leads with
  | last proper _ open_ =>
    rename_i above name _
    exact ⟨above, name, placeOf_down proper base above [], proper, open_⟩
  | up _ inductionHypothesis => exact inductionHypothesis
  | down proper _ _ _ inductionHypothesis =>
    rw [placeOf_down proper]
    exact inductionHypothesis

theorem Leads.not_directory (leads : Leads tree base directory names) :
    tree.nodeAt? (placeOf base directory names) ≠ some .directory := by
  rcases leads.exists_name with ⟨inside, name, place, _, open_⟩
  rw [place]
  exact open_

theorem Leads.inside (leads : Leads tree base directory names) :
    ¬ (placeOf base directory names).names.all (· == "..") = true := by
  rcases leads.exists_name with ⟨inside, name, place, proper, _⟩
  rw [place]
  simp [proper]

/-! ## What a new file changes -/

theorem names_plain (path : Path) : path.plain.names = path.names := by
  unfold Path.plain
  split <;> rfl

/-- What stands at a path is settled by its usual spelling. -/
theorem nodeAt?_congr {first second : Path} (same : first.plain = second.plain) :
    tree.nodeAt? first = tree.nodeAt? second := by
  have names : first.names = second.names := by
    rw [← names_plain first, same, names_plain]
  unfold nodeAt?
  rw [names, same]

theorem lookup_filter_of_ne {place other : Path} (apart : other ≠ place)
    (nodes : List (Path × FileNode)) :
    (nodes.filter fun entry => entry.1 != place).lookup other = nodes.lookup other := by
  induction nodes with
  | nil => rfl
  | cons entry rest inductionHypothesis =>
    rcases entry with ⟨path, node⟩
    by_cases here : path = place
    · have passed : (other == path) = false := by simp [here, apart]
      rw [List.filter_cons_of_neg (by simp [here]), inductionHypothesis, List.lookup_cons, passed]
    · rw [List.filter_cons_of_pos (by simp [here]), List.lookup_cons, List.lookup_cons,
        inductionHypothesis]

theorem nodeAt?_put_self {path : Path} {node : FileNode}
    (inside : ¬ path.resolved.names.all (· == "..") = true) :
    (tree.put path node).nodeAt? path.resolved = some node := by
  unfold nodeAt? put
  rw [if_neg inside]
  simp

/-- A directory elsewhere stays a directory. -/
theorem nodeAt?_put_of_directory {path other : Path} {node : FileNode}
    (held : tree.nodeAt? other = some .directory)
    (apart : tree.nodeAt? path.resolved ≠ some .directory) :
    (tree.put path node).nodeAt? other = some .directory := by
  have elsewhere : other.plain ≠ path.resolved.plain :=
    fun same => apart (nodeAt?_congr same ▸ held)
  unfold nodeAt? put at *
  by_cases outside : other.names.all (· == "..") = true
  · rw [if_pos outside]
  rw [if_neg outside] at held ⊢
  have passed : (other.plain == path.resolved.plain) = false := by simp [elsewhere]
  rw [List.lookup_cons, passed]
  dsimp only
  rw [lookup_filter_of_ne elsewhere]
  cases found : tree.nodes.lookup other.plain with
  | some node =>
    rw [found] at held
    exact held
  | none =>
    rw [found] at held
    dsimp only at held ⊢
    -- What stands below the directory is still there, or it is what was put there.
    have below : (tree.nodes.any fun entry => entry.1.base == other.plain.base &&
        other.names.isPrefixOf entry.1.names) = true := by
      by_contra bare
      rw [if_neg bare] at held
      cases held
    rcases List.any_eq_true.mp below with ⟨entry, member, inside⟩
    rw [if_pos]
    refine List.any_eq_true.mpr ?_
    by_cases replaced : entry.1 = path.resolved.plain
    · exact ⟨_, List.mem_cons_self, replaced ▸ inside⟩
    · exact ⟨entry, List.mem_cons_of_mem _ (List.mem_filter.mpr ⟨member, by simp [replaced]⟩),
        inside⟩

/-- Names that lead to the place of a new file lead there still. -/
theorem Leads.put {path : Path} (here : placeOf base directory names = path.resolved)
    (leads : Leads tree base directory names) :
    Leads (tree.put path (.file octets)) base directory names := by
  -- The way goes through directories, and the place of the new file is none.
  have apart : tree.nodeAt? path.resolved ≠ some .directory := here ▸ leads.not_directory
  have inside : ¬ path.resolved.names.all (· == "..") = true := here ▸ leads.inside
  induction leads with
  | last proper short _ =>
    rw [placeOf_down proper] at here
    refine .last proper short ?_
    change nodeAt? _ (placeOf base _ []) ≠ _
    rw [here, nodeAt?_put_self inside]
    simp
  | up _ inductionHypothesis => exact .up (inductionHypothesis here)
  | down proper short held _ inductionHypothesis =>
    rw [placeOf_down proper] at here
    exact .down proper short (nodeAt?_put_of_directory held apart) (inductionHypothesis here)

/-! ## Writing and reading -/

theorem placeOf_names (path : Path) : placeOf path.base [] path.names = path.resolved :=
  rfl

/-- Writing a file puts it where its path leads to. -/
theorem put_of_write {name : String} {path : Path} {after : FileTree}
    (written : tree.write name path octets = .ok after) :
    Leads tree path.base [] path.names ∧ after = tree.put path (.file octets) := by
  unfold write at written
  split at written
  · cases written
  · split at written
    · cases written
    · rename_i old found
      exact ⟨leads_of_follow (.inr ⟨old, found⟩), (Except.ok.inj written).symm⟩
    · rename_i found
      exact ⟨leads_of_follow (.inl found), (Except.ok.inj written).symm⟩
    all_goals cases written

/-- What has been written to a file is found there. -/
theorem find_of_write {name : String} {path : Path} {after : FileTree}
    (written : tree.write name path octets = .ok after) :
    after.find path = .found (.file octets) := by
  rcases put_of_write written with ⟨leads, rfl⟩
  have inside := leads.inside
  rw [placeOf_names] at inside
  refine follow_of_leads (leads.put (placeOf_names path)) ?_
  rw [placeOf_names]
  exact nodeAt?_put_self inside

/-- A text that has been written to a file by a written path is read back by
the path in its normal form. -/
theorem read_of_writeText {name text : String} {after : FileTree}
    (written : tree.writeText name text = .ok after) :
    after.read (Path.ofText name).toText (Path.ofText name) = .ok (Text.encode text.toList) := by
  unfold writeText at written
  split at written
  · cases written
  · rename_i possible _
    unfold read
    rw [FileFault.ofText?_toText_ofText possible, find_of_write written]
  · cases written

end FileTree
end FiniteAutomata
