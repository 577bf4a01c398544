namespace FiniteAutomata
namespace Entries

/-!
# Entries with distinct keys

A map is kept as the list of its entries in the order in which their keys came
first.  `insert` gives a key its value, and `collapse` reads a list in which
keys may recur: a key keeps its first place and takes its last value.
-/

variable {κ ν : Type} [DecidableEq κ]

/-- Give a key a value.  A new key goes to the end; a known key keeps its
place. -/
def insert (key : κ) (value : ν) : List (κ × ν) → List (κ × ν)
  | [] => [(key, value)]
  | entry :: rest =>
    if entry.1 = key then (key, value) :: rest else entry :: insert key value rest

/-- Give keys their values one after the other. -/
def insertAll (map : List (κ × ν)) : List (κ × ν) → List (κ × ν)
  | [] => map
  | entry :: rest => insertAll (insert entry.1 entry.2 map) rest

/-- The map of a list of entries in which keys may recur. -/
def collapse (entries : List (κ × ν)) : List (κ × ν) :=
  insertAll [] entries

def keys (map : List (κ × ν)) : List κ :=
  map.map Prod.fst

/-! ## Keys stay distinct -/

theorem mem_keys_insert (key other : κ) (value : ν) (map : List (κ × ν)) :
    other ∈ keys (insert key value map) ↔ other = key ∨ other ∈ keys map := by
  induction map with
  | nil => simp [insert, keys]
  | cons entry rest inductionHypothesis =>
    by_cases same : entry.1 = key
    · simp [insert, keys, same]
    · have step : other ∈ keys (insert key value rest) ↔ other = key ∨ other ∈ keys rest :=
        inductionHypothesis
      simp only [keys, List.mem_map] at step
      simp [insert, keys, same, step]
      grind

theorem nodup_keys_insert (key : κ) (value : ν) {map : List (κ × ν)}
    (distinct : (keys map).Nodup) : (keys (insert key value map)).Nodup := by
  induction map with
  | nil => simp [insert, keys]
  | cons entry rest inductionHypothesis =>
    have parts : entry.1 ∉ keys rest ∧ (keys rest).Nodup := by
      simpa [keys] using distinct
    by_cases same : entry.1 = key
    · subst same
      simpa [insert, keys] using parts
    · have fresh : entry.1 ∉ keys (insert key value rest) := by
        rw [mem_keys_insert]
        exact fun known => known.elim same parts.1
      have tail := inductionHypothesis parts.2
      simp only [insert, if_neg same]
      exact List.nodup_cons.mpr ⟨fresh, tail⟩

theorem nodup_keys_insertAll {map : List (κ × ν)} (distinct : (keys map).Nodup)
    (entries : List (κ × ν)) : (keys (insertAll map entries)).Nodup := by
  induction entries generalizing map with
  | nil => exact distinct
  | cons entry rest inductionHypothesis =>
    exact inductionHypothesis (nodup_keys_insert entry.1 entry.2 distinct)

theorem nodup_keys_collapse (entries : List (κ × ν)) : (keys (collapse entries)).Nodup :=
  nodup_keys_insertAll (by simp [keys]) entries

/-! ## Looking up -/

theorem lookup_entry (other : κ) (entry : κ × ν) (rest : List (κ × ν)) :
    (entry :: rest).lookup other = if other = entry.1 then some entry.2 else rest.lookup other := by
  rw [List.lookup_cons]
  by_cases same : other = entry.1
  · rw [if_pos same, beq_iff_eq.mpr same]
  · rw [if_neg same, beq_false_of_ne same]

/-- Among distinct keys an entry is what is found for its key. -/
theorem lookup_eq_some_iff {map : List (κ × ν)} (distinct : (keys map).Nodup) {key : κ}
    {value : ν} : map.lookup key = some value ↔ (key, value) ∈ map := by
  induction map with
  | nil => simp
  | cons entry rest inductionHypothesis =>
    have parts : entry.1 ∉ keys rest ∧ (keys rest).Nodup := by
      simpa [keys] using distinct
    rw [lookup_entry, List.mem_cons]
    by_cases same : key = entry.1
    · have absent : (key, value) ∉ rest := fun held =>
        parts.1 (same ▸ List.mem_map_of_mem held)
      rw [if_pos same]
      constructor
      · exact fun found => .inl (Prod.ext same (Option.some.inj found).symm)
      · rintro (here | later)
        · rw [← here]
        · exact absurd later absent
    · rw [if_neg same, inductionHypothesis parts.2]
      constructor
      · exact .inr
      · rintro (here | later)
        · exact absurd (congrArg Prod.fst here) same
        · exact later

/-- A key that is given a value has it, and the others keep theirs. -/
theorem lookup_insert (key other : κ) (value : ν) (map : List (κ × ν)) :
    (insert key value map).lookup other = if other = key then some value else map.lookup other := by
  induction map with
  | nil => rw [insert, lookup_entry]
  | cons entry rest inductionHypothesis =>
    by_cases known : entry.1 = key
    · rw [insert, if_pos known, lookup_entry, lookup_entry, known]
      by_cases same : other = key <;> simp [same]
    · rw [insert, if_neg known, lookup_entry, lookup_entry, inductionHypothesis]
      by_cases same : other = entry.1
      · rw [if_pos same, if_pos same, if_neg (same ▸ known)]
      · rw [if_neg same, if_neg same]

theorem lookup_insertAll (key : κ) (map entries : List (κ × ν)) :
    (insertAll map entries).lookup key = (entries.reverse.lookup key).or (map.lookup key) := by
  induction entries generalizing map with
  | nil => rfl
  | cons entry rest inductionHypothesis =>
    rw [insertAll, inductionHypothesis, lookup_insert, List.reverse_cons, List.lookup_append,
      Option.or_assoc, lookup_entry]
    by_cases same : key = entry.1 <;> simp [same]

/-- A key has its last value. -/
theorem lookup_collapse (key : κ) (entries : List (κ × ν)) :
    (collapse entries).lookup key = entries.reverse.lookup key := by
  rw [collapse, lookup_insertAll]
  exact Option.or_none

theorem mem_collapse_iff {key : κ} {value : ν} {entries : List (κ × ν)} :
    (key, value) ∈ collapse entries ↔ entries.reverse.lookup key = some value := by
  rw [← lookup_eq_some_iff (nodup_keys_collapse entries), lookup_collapse]

/-! ## Maps are what they collapse to -/

theorem insert_of_notMem {key : κ} {map : List (κ × ν)} (absent : key ∉ keys map) (value : ν) :
    insert key value map = map ++ [(key, value)] := by
  induction map with
  | nil => rfl
  | cons entry rest inductionHypothesis =>
    have parts : key ≠ entry.1 ∧ key ∉ keys rest := by
      simpa [keys] using absent
    simp [insert, Ne.symm parts.1, inductionHypothesis parts.2]

/-- A key that is given the value it has keeps it. -/
theorem insert_of_lookup {key : κ} {value : ν} {map : List (κ × ν)}
    (found : map.lookup key = some value) : insert key value map = map := by
  induction map with
  | nil => cases found
  | cons entry rest inductionHypothesis =>
    rw [lookup_entry] at found
    by_cases same : entry.1 = key
    · rw [if_pos same.symm] at found
      rw [insert, if_pos same, ← same, ← Option.some.inj found]
    · rw [if_neg (Ne.symm same)] at found
      rw [insert, if_neg same, inductionHypothesis found]

theorem insertAll_of_nodup {map entries : List (κ × ν)}
    (distinct : (keys (map ++ entries)).Nodup) : insertAll map entries = map ++ entries := by
  induction entries generalizing map with
  | nil => simp [insertAll]
  | cons entry rest inductionHypothesis =>
    have absent : entry.1 ∉ keys map := by
      intro known
      have apart := (List.nodup_append.mp (by simpa [keys] using distinct)).2.2
      exact apart entry.1 known entry.1 List.mem_cons_self rfl
    rw [insertAll, insert_of_notMem absent, inductionHypothesis (by simpa using distinct)]
    simp

/-- Entries whose keys are distinct collapse to themselves. -/
theorem collapse_of_nodup {entries : List (κ × ν)} (distinct : (keys entries).Nodup) :
    collapse entries = entries :=
  insertAll_of_nodup distinct

end Entries
end FiniteAutomata
