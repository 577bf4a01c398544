import FiniteAutomata.Proofs.Command.Exchanged
import Mathlib.Data.List.TakeWhile

namespace FiniteAutomata
namespace Command
namespace Grammar

/-!
# What lists of arguments are matched with

The command takes everything behind it.  Of words alone, a run takes the first
as its specification and the others as its words, and a single one as a word.
-/

/-! ## The largest count -/

/-- Of all counts for which there is a value the largest is found. -/
theorem findSome?_range_reverse {α : Type} {find : Nat → Option α} {size count : Nat} {value : α}
    (bound : count ≤ size) (found : find count = some value)
    (above : ∀ larger, count < larger → larger ≤ size → find larger = none) :
    (List.range (size + 1)).reverse.findSome? find = some value := by
  induction size with
  | zero =>
    rw [Nat.le_zero.mp bound] at found
    simp [found]
  | succ size inductionHypothesis =>
    rw [List.range_succ, List.reverse_append, List.reverse_singleton, List.singleton_append,
      List.findSome?_cons]
    by_cases largest : count = size + 1
    · rw [← largest, found]
    · have less : count ≤ size := by omega
      rw [above (size + 1) (by omega) (Nat.le_refl _)]
      exact inductionHypothesis less fun larger more small => above larger more (by omega)

theorem partialCounts_eq {arities : List Arity} {tokens : List Token} {counts : List Nat}
    (found : counts? arities tokens = some counts) : partialCounts arities tokens = counts := by
  have whole : counts? (arities.take arities.length) tokens = some counts := by
    rw [List.take_length, found]
  rw [partialCounts, findSome?_range_reverse (Nat.le_refl _) whole fun larger more small => by omega]
  rfl

/-! ## Words alone -/

section Words

variable {tokens piece : List Token}

theorem dropWhile_of_words (words : ∀ token ∈ tokens, token.mark = .word) :
    (tokens.dropWhile fun token => !isOption token) = [] := by
  rw [List.dropWhile_eq_nil_iff]
  intro token member
  simp [isOption, words token member]

theorem fits_optional_of_words (words : ∀ token ∈ piece, token.mark = .word) :
    fits .optional piece = decide (piece.length ≤ 1) := by
  have noOption : piece.any isOption = false := by
    rw [List.any_eq_false]
    intro token member
    simp [isOption, words token member]
  have all : piece.filter isWord = piece := by
    rw [List.filter_eq_self]
    intro token member
    simp [isWord, words token member]
  simp [fits, noOption, all]

theorem fits_several_of_words (words : ∀ token ∈ piece, token.mark = .word)
    (present : piece ≠ []) : fits .several piece = true := by
  have noOption : piece.any isOption = false := by
    rw [List.any_eq_false]
    intro token member
    simp [isOption, words token member]
  cases piece with
  | nil => exact absurd rfl present
  | cons token rest => simp [fits, noOption, isWord, words token List.mem_cons_self]

theorem counts?_several (words : ∀ token ∈ tokens, token.mark = .word) (present : tokens ≠ []) :
    counts? [.several] tokens = some [tokens.length] := by
  rw [counts?]
  apply findSome?_range_reverse (Nat.le_refl _)
  · rw [List.take_length, if_pos (fits_several_of_words words present)]
    rfl
  · exact fun larger more small => absurd small (by omega)

/-- A single word is no specification but a word. -/
theorem counts?_run_single {token : Token} (word : token.mark = .word) :
    counts? [.optional, .several] [token] = some [0, 1] := by
  have words : ∀ other ∈ [token], other.mark = .word := List.forall_mem_singleton.mpr word
  rw [counts?]
  apply findSome?_range_reverse (Nat.zero_le _)
  · rw [List.take_zero, List.drop_zero, counts?_several words (by simp)]
    rfl
  · intro larger more small
    have nothing : counts? [.several] ([token].drop [token].length) = none := rfl
    rw [Nat.le_antisymm small more, nothing, Option.map_none, ite_self]

theorem counts?_run {first : Token} {others : List Token} (present : others ≠ [])
    (words : ∀ token ∈ first :: others, token.mark = .word) :
    counts? [.optional, .several] (first :: others) = some [1, others.length] := by
  rcases List.forall_mem_cons.mp words with ⟨firstWord, otherWords⟩
  rw [counts?]
  apply findSome?_range_reverse (Nat.le_add_left 1 others.length)
  · have fitting : fits .optional ((first :: others).take 1) = true := by
      rw [fits_optional_of_words (by simpa using firstWord)]
      rfl
    rw [if_pos fitting, List.drop_one, List.tail_cons, counts?_several otherWords present]
    rfl
  · intro larger more small
    have unfitting : fits .optional ((first :: others).take larger) = false := by
      rw [fits_optional_of_words fun token member => words token (List.mem_of_mem_take member),
        List.length_take, List.length_cons, Nat.min_eq_left small, decide_eq_false_iff_not]
      exact Nat.not_le.mpr more
    rw [unfitting]
    rfl

end Words

/-! ## Texts of tokens -/

/-- Words as tokens. -/
def wordTokens (words : List String) : List Token :=
  words.map fun word => ⟨word, .word⟩

theorem mark_of_mem_wordTokens {words : List String} : ∀ token ∈ wordTokens words,
    token.mark = .word := by
  intro token member
  rcases List.mem_map.mp member with ⟨word, _, rfl⟩
  rfl

theorem map_text_wordTokens (words : List String) : (wordTokens words).map Token.text = words := by
  rw [wordTokens, List.map_map]
  exact List.map_id words

theorem length_wordTokens (words : List String) : (wordTokens words).length = words.length :=
  List.length_map _

/-- Of words without two hyphens alone nothing is left out. -/
theorem positionalTexts_wordTokens (arity : Arity) {words : List String}
    (noDashes : ∀ word ∈ words, word ≠ "--") :
    positionalTexts arity (wordTokens words) = words := by
  have absent : "--" ∉ words := fun member => noDashes "--" member rfl
  unfold positionalTexts
  dsimp only
  rw [map_text_wordTokens, List.erase_of_not_mem absent, ite_self]

section Texts

variable {grammar : Grammar}

theorem text_of_tokens {arguments : List String} {tokens : List Token}
    (found : grammar.tokens arguments = .ok tokens) : tokens.map Token.text = arguments := by
  induction arguments generalizing tokens with
  | nil =>
    cases found
    rfl
  | cons text rest inductionHypothesis =>
    unfold Grammar.tokens at found
    split at found
    · cases found
      simp [Function.comp_def]
    · split at found
      · cases found
      · split at found
        · cases found
        · rename_i later foundLater
          cases found
          rw [List.map_cons, inductionHypothesis foundLater]

/-- What does not begin with a hyphen is a word. -/
theorem markOf_of_plain {text : String} (plain : text.toList.head? ≠ some '-') :
    grammar.markOf text = .ok .word := by
  unfold markOf
  split
  · rename_i chars
    rw [chars] at plain
    exact absurd rfl plain
  · rfl

theorem tokens_of_words {words : List String}
    (marks : ∀ word ∈ words, word ≠ "--" ∧ grammar.markOf word = .ok .word) :
    grammar.tokens words = .ok (wordTokens words) := by
  induction words with
  | nil => rfl
  | cons word rest inductionHypothesis =>
    rcases List.forall_mem_cons.mp marks with ⟨⟨noDashes, mark⟩, later⟩
    rw [tokens, if_neg noDashes, mark, inductionHypothesis later]
    rfl

theorem ne_dashes_of_plain {text : String} (plain : text.toList.head? ≠ some '-') :
    text ≠ "--" := by
  rintro rfl
  exact plain (by decide)

end Texts

/-! ## The command -/

theorem partialCounts_command {token : Token} (word : token.mark = .word) (rest : List Token) :
    partialCounts [.command] (token :: rest) = [(token :: rest).length] := by
  apply partialCounts_eq
  rw [counts?]
  apply findSome?_range_reverse (Nat.le_refl _)
  · have fitting : fits .command (token :: rest) = true := by
      simp [fits, word, isWord]
    rw [List.take_length, if_pos fitting]
    rfl
  · exact fun larger more small => absurd small (by omega)

/-- A command that begins with a word takes all tokens. -/
theorem matchTokens_command (grammar : Grammar) (fuel : Nat) {token : Token}
    (word : token.mark = .word) (rest : List Token) :
    grammar.matchTokens (fuel + 2) [.command] (token :: rest) =
      .ok (⟨[], [(token :: rest).map Token.text], []⟩, []) := by
  have counts := partialCounts_command word rest
  have taken : takePositionals [.command] [(token :: rest).length] (token :: rest) =
      ([(token :: rest).map Token.text], []) := by
    simp only [takePositionals, List.take_length, List.drop_length, positionalTexts, if_pos]
  by_cases clear : ((token :: rest).dropWhile fun token => !isOption token) = []
  · rw [matchTokens_of_no_option grammar _ _ clear, counts, taken]
    rfl
  · have noOption : isOption token = false := by
      simp [isOption, word]
    rw [matchTokens_of_words grammar _ _ noOption clear, counts]
    dsimp only
    rw [taken]
    simp only [List.length_nil, List.length_cons, Nat.zero_lt_succ, if_true]
    rfl

/-- Everything behind the command belongs to it, options included. -/
theorem parse_command {command : String} (noDashes : command ≠ "--")
    (word : mainGrammar.markOf command = .ok .word) (arguments : List String) :
    mainGrammar.parse (command :: arguments) =
      (mainGrammar.tokens arguments).map fun _ => ⟨[], [command :: arguments], []⟩ := by
  unfold parse
  rw [tokens, if_neg noDashes, word]
  dsimp only
  cases found : mainGrammar.tokens arguments with
  | error usage => rfl
  | ok later =>
    have matched : mainGrammar.matchTokens (2 * later.length + 2 + 1) mainGrammar.positionals
        (⟨command, .word⟩ :: later) = .ok (⟨[], [command :: arguments], []⟩, []) := by
      rw [← text_of_tokens found]
      exact matchTokens_command mainGrammar _ rfl later
    dsimp only
    rw [List.length_cons, Nat.mul_succ, matched]
    rfl

/-! ## The words of a run -/

/-- The only word is a word to run. -/
theorem matchTokens_run_single (grammar : Grammar) (fuel : Nat) {word : String}
    (noDashes : word ≠ "--") :
    grammar.matchTokens (fuel + 1) [.optional, .several] (wordTokens [word]) =
      .ok (⟨[], [[], [word]], []⟩, []) := by
  have counts : partialCounts [.optional, .several] (wordTokens [word]) = [0, 1] :=
    partialCounts_eq (counts?_run_single rfl)
  have taken : takePositionals [.optional, .several] [0, 1] (wordTokens [word]) =
      ([positionalTexts .optional (wordTokens []), positionalTexts .several (wordTokens [word])],
        []) := rfl
  rw [matchTokens_of_no_option grammar _ _ (dropWhile_of_words mark_of_mem_wordTokens), counts,
    taken, positionalTexts_wordTokens .optional (List.forall_mem_nil _),
    positionalTexts_wordTokens .several (List.forall_mem_singleton.mpr noDashes)]
  rfl

/-- The first of several words is the specification. -/
theorem matchTokens_run (grammar : Grammar) (fuel : Nat) {first : String} {others : List String}
    (present : others ≠ []) (noDashes : ∀ word ∈ first :: others, word ≠ "--") :
    grammar.matchTokens (fuel + 1) [.optional, .several] (wordTokens (first :: others)) =
      .ok (⟨[], [[first], others], []⟩, []) := by
  rcases List.forall_mem_cons.mp noDashes with ⟨firstNoDashes, othersNoDashes⟩
  have counts : partialCounts [.optional, .several] (wordTokens (first :: others)) =
      [1, others.length] := by
    have marks : ∀ token ∈ wordTokens (first :: others), token.mark = .word :=
      mark_of_mem_wordTokens
    rw [← length_wordTokens others]
    exact partialCounts_eq (counts?_run (by simpa [wordTokens] using present) marks)
  have taken : takePositionals [.optional, .several] [1, others.length]
      (wordTokens (first :: others)) = ([positionalTexts .optional (wordTokens [first]),
        positionalTexts .several (wordTokens others)], []) := by
    have all : (wordTokens others).take others.length = wordTokens others :=
      List.take_of_length_le (length_wordTokens others).le
    have rest : (wordTokens others).drop others.length = [] :=
      List.drop_of_length_le (length_wordTokens others).le
    simp only [takePositionals, wordTokens, List.map_cons, List.take_succ_cons, List.drop_succ_cons,
      List.take_zero, List.drop_zero] at all rest ⊢
    rw [all, rest]
    rfl
  rw [matchTokens_of_no_option grammar _ _ (dropWhile_of_words mark_of_mem_wordTokens), counts,
    taken, positionalTexts_wordTokens .optional (List.forall_mem_singleton.mpr firstNoDashes),
    positionalTexts_wordTokens .several othersNoDashes]
  rfl

/-- A word is the specification of a run that names some, and the first of its
words beside the sample. -/
theorem parse_run {first : String} {others : List String} (present : others ≠ [])
    (words : ∀ word ∈ first :: others, word ≠ "--" ∧ runGrammar.markOf word = .ok .word) :
    runGrammar.parse (first :: others) = .ok ⟨[], [[first], others], []⟩ := by
  have matched := matchTokens_run runGrammar (2 * (first :: others).length) present
    fun word member => (words word member).1
  rw [parse, tokens_of_words words]
  dsimp only
  rw [length_wordTokens, show runGrammar.positionals = [.optional, .several] from rfl, matched]
  rfl

theorem parse_run_sample {words : List String} (present : words ≠ [])
    (plain : ∀ word ∈ words, word ≠ "--" ∧ runGrammar.markOf word = .ok .word) :
    ∃ specification later, specification ++ later = words ∧ specification.length ≤ 1 ∧
      runGrammar.parse ("--sample" :: words) =
        .ok ⟨[("--sample", "")], [specification, later], []⟩ := by
  have spelled : runGrammar.markOf "--sample" =
      .ok (.option ⟨some ⟨["--sample"], false⟩, "--sample", none⟩) := by
    decide +kernel
  have marked : runGrammar.tokens ("--sample" :: words) = .ok
      (⟨"--sample", .option ⟨some ⟨["--sample"], false⟩, "--sample", none⟩⟩ :: wordTokens words) := by
    rw [tokens, if_neg (by decide), spelled, tokens_of_words plain]
  have behind : ∃ specification later, specification ++ later = words ∧ specification.length ≤ 1 ∧
      runGrammar.matchTokens (2 * words.length + 1 + 1) [.optional, .several] (wordTokens words) =
        .ok (⟨[], [specification, later], []⟩, []) := by
    cases words with
    | nil => exact absurd rfl present
    | cons first others =>
      by_cases single : others = []
      · have matched := matchTokens_run_single runGrammar (2 * (first :: others).length + 1)
          (plain first List.mem_cons_self).1
        rw [single] at matched ⊢
        exact ⟨[], [first], rfl, Nat.zero_le 1, matched⟩
      · exact ⟨[first], others, rfl, Nat.le_refl 1, matchTokens_run runGrammar _ single
          fun word member => (plain word member).1⟩
  rcases behind with ⟨specification, later, whole, short, matched⟩
  refine ⟨specification, later, whole, short, ?_⟩
  rw [parse, marked]
  dsimp only
  rw [List.length_cons, length_wordTokens, Nat.mul_succ,
    show runGrammar.positionals = [.optional, .several] from rfl, matchTokens_of_option]
  have taken : runGrammar.takeOption "--sample" (wordTokens words) ("--sample".length + 1)
      ⟨some ⟨["--sample"], false⟩, "--sample", none⟩ =
        .ok ({ Matched.empty with options := [("--sample", "")] }, wordTokens words) := rfl
  rw [taken]
  dsimp only
  rw [if_neg (by decide), matched]
  rfl

end Grammar
end Command
end FiniteAutomata
