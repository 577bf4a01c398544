import Mathlib.Data.List.Basic
import FiniteAutomata.Proofs.Dot.Language

namespace FiniteAutomata
namespace Dot

/-!
# Statements and their tokens

A statement is read back from its tokens, and so are statements one behind the
other.  Whatever is read, its names are IDs of the text, and its attributes have
values of the text.
-/

/-! ## What is read back -/

/-- The tokens of an attribute list. -/
def listTokens (attributes : List (String × String)) : List Token :=
  .mark .openBracket ::
    (attributes.flatMap (fun entry => [.id entry.1, .value entry.2]) ++
      [.mark .closeBracket])

namespace Statement

/-- The tokens of a statement with a semicolon at its end. -/
def tokens : Statement → List Token
  | .setting key value => [.id key, .value value, .mark .semicolon]
  | .defaults kind attributes => .keyword kind :: (listTokens attributes ++ [.mark .semicolon])
  | .chain source targets attributes =>
    .id source :: (targets.flatMap (fun target => [.arrow, .id target]) ++
      ((if attributes = [] then [] else listTokens attributes) ++ [.mark .semicolon]))

/-- Only graphs, nodes and edges have defaults. -/
def Allowed : Statement → Prop
  | .defaults kind _ => kind = .graph ∨ kind = .node ∨ kind = .edge
  | _ => True

end Statement

theorem entries_tokens (attributes : List (String × String)) (rest : List Token) :
    entries (attributes.flatMap (fun entry => [.id entry.1, .value entry.2]) ++
      .mark .closeBracket :: .mark .semicolon :: rest) =
        some (attributes, .mark .semicolon :: rest) := by
  induction attributes with
  | nil => rfl
  | cons first others inductionHypothesis =>
    rw [List.flatMap_cons, List.append_assoc]
    cases others with
    | nil => rfl
    | cons second more =>
      have step := congrArg (Option.map fun read => ((first.1, first.2) :: read.1, read.2))
        inductionHypothesis
      exact step

theorem path_tokens (targets : List String) {rest : List Token}
    (stops : rest.head? ≠ some .arrow) :
    path (targets.flatMap (fun target => [.arrow, .id target]) ++ rest) = (targets, rest) := by
  induction targets with
  | nil =>
    rw [List.flatMap_nil, List.nil_append]
    unfold path
    split
    · simp at stops
    · rfl
  | cons target others inductionHypothesis =>
    have step : path (.arrow :: .id target ::
        (others.flatMap (fun target => [.arrow, .id target]) ++ rest)) =
          (target :: others, rest) := by
      rw [path, inductionHypothesis]
    exact step

theorem statement?_tokens {statement : Statement} (allowed : statement.Allowed)
    (rest : List Token) :
    statement? (statement.tokens ++ rest) = some (statement, .mark .semicolon :: rest) := by
  cases statement with
  | setting key value => rfl
  | defaults kind attributes =>
    have listed := entries_tokens attributes rest
    have read : statement? (.keyword kind :: .mark .openBracket ::
        (attributes.flatMap (fun entry => [.id entry.1, .value entry.2]) ++
          .mark .closeBracket :: .mark .semicolon :: rest)) =
            some (.defaults kind attributes, .mark .semicolon :: rest) := by
      have kinds : kind = .graph ∨ kind = .node ∨ kind = .edge := allowed
      rw [statement?, if_pos kinds, listed]
      rfl
    simpa [Statement.tokens, listTokens] using read
  | chain source targets attributes =>
    have stops : ((if attributes = [] then [] else listTokens attributes) ++
        (.mark .semicolon :: rest)).head? ≠ some Token.arrow := by
      cases attributes <;> simp [listTokens]
    have walked := path_tokens targets stops
    have listed : Dot.attributes ((if attributes = [] then [] else listTokens attributes) ++
        (.mark .semicolon :: rest)) = some (attributes, .mark .semicolon :: rest) := by
      cases attributes with
      | nil => rfl
      | cons first others =>
        have read := entries_tokens (first :: others) rest
        rw [if_neg (List.cons_ne_nil first others)]
        simpa [listTokens, Dot.attributes] using read
    have read : statement? (.id source :: (targets.flatMap (fun target => [.arrow, .id target]) ++
        ((if attributes = [] then [] else listTokens attributes) ++
          (.mark .semicolon :: rest)))) =
            some (.chain source targets attributes, .mark .semicolon :: rest) := by
      rw [statement?]
      · rw [walked, listed]
        rfl
      · intro text more same
        cases targets <;> cases attributes <;> simp [listTokens] at same
    simpa [Statement.tokens] using read

theorem statements_of_statement? {bound : Nat} {tokens rest : List Token} {statement : Statement}
    (read : statement? tokens = some (statement, .mark .semicolon :: rest)) :
    statements (bound + 1) tokens = (statements bound rest).map fun more => statement :: more := by
  rw [statements]
  · rw [read]
  · rintro rfl
    cases read

theorem statements_tokens {list : List Statement} (allowed : ∀ statement ∈ list, statement.Allowed)
    {bound : Nat} (enough : list.length ≤ bound) :
    statements bound (list.flatMap Statement.tokens ++ [.mark .closeBrace]) = some list := by
  induction list generalizing bound with
  | nil => cases bound <;> rfl
  | cons statement rest inductionHypothesis =>
    cases bound with
    | zero => cases enough
    | succ bound =>
      have later := inductionHypothesis
        (fun other member => allowed other (List.mem_cons_of_mem _ member))
        (Nat.le_of_succ_le_succ enough)
      have first := statement?_tokens (allowed statement List.mem_cons_self)
        (rest.flatMap Statement.tokens ++ [.mark .closeBrace])
      rw [List.flatMap_cons, List.append_assoc, statements_of_statement? first, later]
      rfl

theorem length_le_tokens (list : List Statement) :
    list.length ≤ (list.flatMap Statement.tokens).length := by
  induction list with
  | nil => exact Nat.zero_le _
  | cons statement rest inductionHypothesis =>
    have present : 0 < statement.tokens.length := by
      cases statement <;> simp [Statement.tokens]
    rw [List.flatMap_cons, List.length_append, List.length_cons]
    omega

/-- Statements are read back from the tokens of a graph with a name. -/
theorem parse_tokens {list : List Statement} (allowed : ∀ statement ∈ list, statement.Allowed)
    (name : String) : parse (.keyword .digraph :: .id name :: .mark .openBrace ::
      (list.flatMap Statement.tokens ++ [.mark .closeBrace])) = some list := by
  have enough := length_le_tokens list
  refine statements_tokens allowed ?_
  rw [List.length_append]
  omega

/-! ## What is read at all -/

namespace Statement

/-- The nodes that a statement names. -/
def names : Statement → List String
  | .chain source targets _ => source :: targets
  | _ => []

/-- The attributes that a statement gives to nodes and edges. -/
def given : Statement → List (String × String)
  | .setting _ _ => []
  | .defaults _ attributes => attributes
  | .chain _ _ attributes => attributes

/-- The names of the statement are IDs among the tokens, and its attributes
have values among them. -/
structure Within (tokens : List Token) (statement : Statement) : Prop where
  names : ∀ name ∈ statement.names, Token.id name ∈ tokens
  values : ∀ entry ∈ statement.given, Token.value entry.2 ∈ tokens

theorem Within.mono {tokens more : List Token} {statement : Statement}
    (within : statement.Within tokens) (included : tokens ⊆ more) : statement.Within more where
  names := fun name member => included (within.names name member)
  values := fun entry member => included (within.values entry member)

end Statement

/-- What was read has values among the tokens, and the rest are tokens of them. -/
def Sourced (tokens : List Token) (read : List (String × String) × List Token) : Prop :=
  (∀ entry ∈ read.1, Token.value entry.2 ∈ tokens) ∧ read.2 ⊆ tokens

theorem Sourced.cons {tokens more : List Token} {read : List (String × String) × List Token}
    (sourced : Sourced more read) (included : more ⊆ tokens) {key text : String}
    (present : Token.value text ∈ tokens) : Sourced tokens ((key, text) :: read.1, read.2) := by
  refine ⟨fun entry member => ?_, fun token member => included (sourced.2 member)⟩
  rcases List.mem_cons.mp member with rfl | later
  · exact present
  · exact included (sourced.1 entry later)

theorem sourced_of_entries {tokens : List Token} {read : List (String × String) × List Token}
    (found : entries tokens = some read) : Sourced tokens read := by
  fun_induction entries tokens generalizing read with
  | case1 more inductionHypothesis =>
    have sourced := inductionHypothesis found
    have included : more ⊆ .mark .closeBracket :: .mark .openBracket :: more := by simp
    exact ⟨fun entry member => included (sourced.1 entry member),
      List.Subset.trans sourced.2 included⟩
  | case2 more _ =>
    cases found
    exact ⟨by simp, by simp⟩
  | case3 key text more inductionHypothesis =>
    rcases Option.map_eq_some_iff.mp found with ⟨inner, foundInner, rfl⟩
    exact (inductionHypothesis foundInner).cons (fun _ member => by simp [member]) (by simp)
  | case4 key text more inductionHypothesis =>
    rcases Option.map_eq_some_iff.mp found with ⟨inner, foundInner, rfl⟩
    exact (inductionHypothesis foundInner).cons (fun _ member => by simp [member]) (by simp)
  | case5 key text more _ _ inductionHypothesis =>
    rcases Option.map_eq_some_iff.mp found with ⟨inner, foundInner, rfl⟩
    exact (inductionHypothesis foundInner).cons (fun _ member => by simp [member]) (by simp)
  | case6 => cases found

theorem sourced_of_attributes {tokens : List Token}
    {read : List (String × String) × List Token} (found : attributes tokens = some read) :
    Sourced tokens read := by
  unfold attributes at found
  split at found
  · have sourced := sourced_of_entries found
    exact ⟨fun entry member => List.mem_cons_of_mem _ (sourced.1 entry member),
      List.Subset.trans sourced.2 (List.subset_cons_self _ _)⟩
  · cases found
    exact ⟨by simp, List.Subset.refl _⟩

theorem ids_of_path (tokens : List Token) :
    (∀ target ∈ (path tokens).1, Token.id target ∈ tokens) ∧ (path tokens).2 ⊆ tokens := by
  fun_induction path tokens with
  | case1 target more inductionHypothesis =>
    rcases inductionHypothesis with ⟨targets, rest⟩
    have included : more ⊆ .arrow :: .id target :: more := by simp
    refine ⟨fun other member => ?_, List.Subset.trans rest included⟩
    rcases List.mem_cons.mp member with rfl | later
    · simp
    · exact included (targets other later)
  | case2 more _ => exact ⟨by simp, List.Subset.refl _⟩

theorem within_of_statement? {tokens rest : List Token} {statement : Statement}
    (read : statement? tokens = some (statement, rest)) :
    statement.Within tokens ∧ rest ⊆ tokens := by
  unfold statement? at read
  split at read
  · cases read
    exact ⟨⟨by simp [Statement.names], by simp [Statement.given]⟩, by simp⟩
  · rename_i name more _
    rcases Option.map_eq_some_iff.mp read with ⟨listed, found, same⟩
    cases same
    have walked := ids_of_path more
    have sourced := sourced_of_attributes found
    have included : more ⊆ .id name :: more := List.subset_cons_self _ _
    refine ⟨⟨fun other member => ?_, fun entry member => ?_⟩, ?_⟩
    · rcases List.mem_cons.mp member with rfl | later
      · exact List.mem_cons_self
      · exact included (walked.1 other later)
    · exact included (walked.2 (sourced.1 entry member))
    · exact List.Subset.trans (List.Subset.trans sourced.2 walked.2) included
  · split at read
    · rename_i kind more _
      rcases Option.map_eq_some_iff.mp read with ⟨listed, found, same⟩
      cases same
      have sourced := sourced_of_entries found
      have included : more ⊆ .keyword kind :: .mark .openBracket :: more := by simp
      exact ⟨⟨by simp [Statement.names], fun entry member => included (sourced.1 entry member)⟩,
        List.Subset.trans sourced.2 included⟩
    · cases read
  · cases read

/-- One statement more, read in front of others that are within what is left. -/
theorem within_cons {tokens left rest : List Token} {first : Statement} {more : List Statement}
    (read : statement? tokens = some (first, left)) (included : rest ⊆ left)
    (later : ∀ statement ∈ more, statement.Within rest) :
    ∀ statement ∈ first :: more, statement.Within tokens := by
  have here := within_of_statement? read
  intro statement member
  rcases List.mem_cons.mp member with rfl | behind
  · exact here.1
  · exact (later statement behind).mono (List.Subset.trans included here.2)

theorem within_of_statements {bound : Nat} {tokens : List Token} {list : List Statement}
    (read : statements bound tokens = some list) :
    ∀ statement ∈ list, statement.Within tokens := by
  fun_induction statements bound tokens generalizing list with
  | case1 =>
    cases read
    simp
  | case2 => cases read
  | case3 => cases read
  | case4 bound tokens _ first rest found inductionHypothesis =>
    rcases Option.map_eq_some_iff.mp read with ⟨more, foundMore, rfl⟩
    exact within_cons found (List.subset_cons_self _ _) (inductionHypothesis foundMore)
  | case5 bound tokens _ first rest _ found inductionHypothesis =>
    rcases Option.map_eq_some_iff.mp read with ⟨more, foundMore, rfl⟩
    exact within_cons found (List.Subset.refl _) (inductionHypothesis foundMore)

/-- The names and the values of statements are IDs and values of their text. -/
theorem within_of_parse {tokens : List Token} {list : List Statement}
    (read : parse tokens = some list) : ∀ statement ∈ list, statement.Within tokens := by
  unfold parse at read
  split at read
  · exact fun statement member => (within_of_statements read statement member).mono
      fun _ inside => by simp [inside]
  · exact fun statement member => (within_of_statements read statement member).mono
      fun _ inside => by simp [inside]
  · cases read

end Dot
end FiniteAutomata
