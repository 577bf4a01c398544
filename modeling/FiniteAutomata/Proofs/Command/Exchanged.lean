import FiniteAutomata.Command.Invocation
import Mathlib.Data.List.Forall2
import Mathlib.Data.List.TakeDrop

namespace FiniteAutomata
namespace Command
namespace Grammar

/-!
# Arguments in each other's place

How a list of arguments is divided depends on what each argument is and not on
what a word says.  So if words are exchanged for other words, the same options
are found, and the positionals and the arguments left over differ in the
exchanged words alone.
-/

/-! ## Positionals go by marks -/

section Marks

variable {piece other tokens others : List Token}

theorem any_congr (test : Mark → Bool) (same : piece.map Token.mark = other.map Token.mark) :
    (piece.any fun token => test token.mark) = other.any fun token => test token.mark := by
  have shape : ∀ list : List Token,
      (list.any fun token => test token.mark) = (list.map Token.mark).any test :=
    fun list => List.any_map.symm
  rw [shape, shape, same]

theorem words_congr (same : piece.map Token.mark = other.map Token.mark) :
    (piece.filter isWord).length = (other.filter isWord).length := by
  have shape : ∀ list : List Token,
      (list.filter isWord).length = (list.map Token.mark).countP (· == .word) := by
    intro list
    rw [List.countP_map, List.countP_eq_length_filter]
    rfl
  rw [shape, shape, same]

theorem fits_command (piece : List Token) : fits .command piece =
    (((piece.map Token.mark).dropWhile (· == .dashes)).head? == some .word) := by
  induction piece with
  | nil => rfl
  | cons token rest inductionHypothesis =>
    by_cases dashes : (token.mark == .dashes) = true
    · rw [List.map_cons, List.dropWhile_cons_of_pos (by simpa using dashes), ← inductionHypothesis]
      simp only [fits, List.dropWhile_cons, if_pos dashes]
    · rw [List.map_cons, List.dropWhile_cons_of_neg (by simpa using dashes)]
      simp only [fits, List.dropWhile_cons, if_neg dashes]
      rfl

theorem fits_congr (same : piece.map Token.mark = other.map Token.mark) (arity : Arity) :
    fits arity piece = fits arity other := by
  have options : piece.any isOption = other.any isOption :=
    any_congr (fun mark => isOption ⟨"", mark⟩) same
  cases arity with
  | optional => simp only [fits, options, words_congr same]
  | several =>
    have words : piece.any isWord = other.any isWord := any_congr (· == .word) same
    simp only [fits, options, words]
  | command => rw [fits_command, fits_command, same]

theorem counts?_congr (same : tokens.map Token.mark = others.map Token.mark)
    (arities : List Arity) : counts? arities tokens = counts? arities others := by
  induction arities generalizing tokens others with
  | nil => rfl
  | cons arity later inductionHypothesis =>
    have size : tokens.length = others.length := by
      simpa using congrArg List.length same
    rw [counts?, counts?, size]
    congr 1
    funext count
    have front : (tokens.take count).map Token.mark = (others.take count).map Token.mark := by
      rw [List.map_take, List.map_take, same]
    have back : (tokens.drop count).map Token.mark = (others.drop count).map Token.mark := by
      rw [List.map_drop, List.map_drop, same]
    rw [fits_congr front, inductionHypothesis back]

theorem partialCounts_congr (same : tokens.map Token.mark = others.map Token.mark)
    (arities : List Arity) : partialCounts arities tokens = partialCounts arities others := by
  unfold partialCounts
  congr 2
  funext size
  exact counts?_congr same _

end Marks

/-! ## One round of matching -/

section Rounds

variable (grammar : Grammar) (fuel : Nat) (arities : List Arity)

/-- Without an option left, the positionals take what they can. -/
theorem matchTokens_of_no_option {tokens : List Token}
    (clear : (tokens.dropWhile fun token => !isOption token) = []) :
    grammar.matchTokens (fuel + 1) arities tokens =
      .ok (⟨[], (takePositionals arities (partialCounts arities tokens) tokens).1,
          (takePositionals arities (partialCounts arities tokens) tokens).2.map Token.text⟩,
        arities.drop (partialCounts arities tokens).length) := by
  rw [matchTokens, List.span_eq_takeWhile_dropWhile, clear]

/-- An option in front is taken. -/
theorem matchTokens_of_option (text : String) (spelled : Spelled) (rest : List Token) :
    grammar.matchTokens (fuel + 1) arities (⟨text, .option spelled⟩ :: rest) =
      match grammar.takeOption text rest (text.length + 1) spelled with
      | .error usage => .error usage
      | .ok (matched, later) =>
        if asksHelp matched then .error .help
        else
          match grammar.matchTokens fuel arities later with
          | .error usage => .error usage
          | .ok (more, left) => .ok (join matched more, left) := by
  rfl

/-- With words in front of an option, the positionals take what they can, or
the words fit nowhere. -/
theorem matchTokens_of_words {token : Token} {rest : List Token} (word : isOption token = false)
    (further : ((token :: rest).dropWhile fun token => !isOption token) ≠ []) :
    grammar.matchTokens (fuel + 1) arities (token :: rest) =
      let counts := partialCounts arities (token :: rest)
      let taken := takePositionals arities counts (token :: rest)
      let words := ((token :: rest).takeWhile fun token => !isOption token).map Token.text
      let option := (token :: rest).dropWhile fun token => !isOption token
      match grammar.matchTokens fuel (arities.drop counts.length)
        (if taken.2.length < (token :: rest).length then taken.2 else option) with
      | .error usage => .error usage
      | .ok (more, left) =>
        .ok (join (if taken.2.length < (token :: rest).length then ⟨[], taken.1, []⟩
          else ⟨[], taken.1, words⟩) more, left) := by
  rw [matchTokens, List.span_eq_takeWhile_dropWhile]
  generalize behind : ((token :: rest).dropWhile fun token => !isOption token) = option at further
  have front : ((token :: rest).takeWhile fun token => !isOption token) =
      token :: rest.takeWhile fun token => !isOption token := by
    rw [List.takeWhile_cons_of_pos (by simp [word])]
  rw [front]
  cases option with
  | nil => exact absurd rfl further
  | cons first more =>
    rcases first with ⟨text, mark⟩
    cases mark with
    | word => rfl
    | dashes => rfl
    | option _ => rfl

end Rounds

/-! ## What is matched -/

variable {related : String → String → Prop} {grammar : Grammar}

/-- Tokens of one kind with related texts.  Only words may differ. -/
structure Alike (related : String → String → Prop) (first second : Token) : Prop where
  mark : first.mark = second.mark
  text : related first.text second.text
  spelled : isOption first = true → first.text = second.text

/-- Matched arguments with the same options, and with related texts. -/
structure SameOptions (related : String → String → Prop) (first second : Matched) : Prop where
  keys : first.options.map Prod.fst = second.options.map Prod.fst
  positionals : List.Forall₂ (List.Forall₂ related) first.positionals second.positionals
  extras : List.Forall₂ related first.extras second.extras

/-- Two results that are the same misuse, or two related values. -/
inductive Parallel {α : Type} (alike : α → α → Prop) : Except Usage α → Except Usage α → Prop
  | error (usage : Usage) : Parallel alike (.error usage) (.error usage)
  | ok {first second : α} (same : alike first second) : Parallel alike (.ok first) (.ok second)

theorem Parallel.exists {α : Type} {alike : α → α → Prop} {first second : Except Usage α}
    (parallel : Parallel alike first second) :
    (∃ usage, first = .error usage ∧ second = .error usage) ∨
      ∃ value other, first = .ok value ∧ second = .ok other ∧ alike value other := by
  cases parallel with
  | error usage => exact .inl ⟨usage, rfl, rfl⟩
  | ok same => exact .inr ⟨_, _, rfl, rfl, same⟩

theorem map_mark_of_alike {tokens others : List Token}
    (alike : List.Forall₂ (Alike related) tokens others) :
    tokens.map Token.mark = others.map Token.mark := by
  induction alike with
  | nil => rfl
  | cons here _ inductionHypothesis => rw [List.map_cons, List.map_cons, here.mark,
      inductionHypothesis]

theorem map_text_of_alike {tokens others : List Token}
    (alike : List.Forall₂ (Alike related) tokens others) :
    List.Forall₂ related (tokens.map Token.text) (others.map Token.text) := by
  induction alike with
  | nil => exact .nil
  | cons here _ inductionHypothesis => exact .cons here.text inductionHypothesis

/-- Two hyphens alone are taken out of both. -/
theorem forall₂_erase {mark : String} {texts others : List String}
    (marks : ∀ text other, related text other → (text = mark ↔ other = mark))
    (alike : List.Forall₂ related texts others) :
    List.Forall₂ related (texts.erase mark) (others.erase mark) := by
  induction alike with
  | nil => exact .nil
  | cons here later inductionHypothesis =>
    rename_i text other _ _
    by_cases same : text = mark
    · rw [same, (marks text other here).mp same, List.erase_cons_head, List.erase_cons_head]
      exact later
    · have apart : other ≠ mark := fun found => same ((marks text other here).mpr found)
      rw [List.erase_cons_tail (by simpa using same), List.erase_cons_tail (by simpa using apart)]
      exact .cons here inductionHypothesis

theorem positionalTexts_alike (dashes : ∀ text other, related text other →
      (text = "--" ↔ other = "--")) (arity : Arity) {tokens others : List Token}
    (alike : List.Forall₂ (Alike related) tokens others) :
    List.Forall₂ related (positionalTexts arity tokens) (positionalTexts arity others) := by
  have texts := map_text_of_alike alike
  unfold positionalTexts
  dsimp only
  by_cases command : arity = .command
  · rw [if_pos command, if_pos command]
    exact texts
  · rw [if_neg command, if_neg command]
    exact forall₂_erase dashes texts

theorem takePositionals_alike (dashes : ∀ text other, related text other →
      (text = "--" ↔ other = "--")) (arities : List Arity) (counts : List Nat)
    {tokens others : List Token} (alike : List.Forall₂ (Alike related) tokens others) :
    List.Forall₂ (List.Forall₂ related) (takePositionals arities counts tokens).1
        (takePositionals arities counts others).1 ∧
      List.Forall₂ (Alike related) (takePositionals arities counts tokens).2
        (takePositionals arities counts others).2 := by
  induction arities generalizing counts tokens others with
  | nil => exact ⟨.nil, alike⟩
  | cons arity later inductionHypothesis =>
    cases counts with
    | nil => exact ⟨.nil, alike⟩
    | cons count rest =>
      rcases inductionHypothesis rest (List.forall₂_drop count alike) with ⟨found, behind⟩
      exact ⟨.cons (positionalTexts_alike dashes arity (List.forall₂_take count alike)) found,
        behind⟩

theorem takeOption_alike (grammar : Grammar) {text : String} (same : related text text)
    {rest others : List Token} (alike : List.Forall₂ (Alike related) rest others)
    (fuel : Nat) (spelled : Spelled) :
    Parallel (fun first second => SameOptions related first.1 second.1 ∧
        List.Forall₂ (Alike related) first.2 second.2)
      (grammar.takeOption text rest fuel spelled) (grammar.takeOption text others fuel spelled) := by
  induction fuel generalizing spelled with
  | zero => exact .error _
  | succ fuel inductionHypothesis =>
    rcases spelled with ⟨rule, name, attached⟩
    unfold takeOption
    cases rule with
    | none => exact .ok ⟨⟨rfl, .nil, .cons same .nil⟩, alike⟩
    | some rule =>
      rcases rule with ⟨names, valued⟩
      cases attached with
      | none =>
        cases valued with
        | false => exact .ok ⟨⟨rfl, .nil, .nil⟩, alike⟩
        | true =>
          cases alike with
          | nil => exact .error _
          | cons here later =>
            rename_i first second _ _
            rcases first with ⟨value, mark⟩
            rcases second with ⟨other, mark'⟩
            rcases here.mark with rfl
            cases mark with
            | word => exact .ok ⟨⟨rfl, .nil, .nil⟩, later⟩
            | dashes => exact .error _
            | option _ => exact .error _
      | some value =>
        cases valued with
        | true => exact .ok ⟨⟨rfl, .nil, .nil⟩, alike⟩
        | false =>
          dsimp only
          cases value.toList with
          | nil => exact .error _
          | cons letter more =>
            dsimp only
            generalize (if name.startsWith "--" then none
              else grammar.rule? (String.ofList ['-', letter])) = next
            cases next with
            | none => exact .error _
            | some next =>
              dsimp only
              rcases (inductionHypothesis ⟨some next, String.ofList ['-', letter],
                if more.isEmpty then none else some (String.ofList more)⟩).exists with
                ⟨usage, first, second⟩ | ⟨_, _, first, second, ⟨keys, found, extras⟩, behind⟩
              · rw [first, second]
                exact .error usage
              · rw [first, second]
                exact .ok ⟨⟨congrArg (List.cons _) keys, found, extras⟩, behind⟩

theorem takeWhile_alike {tokens others : List Token}
    (alike : List.Forall₂ (Alike related) tokens others) :
    List.Forall₂ (Alike related) (tokens.takeWhile fun token => !isOption token)
        (others.takeWhile fun token => !isOption token) ∧
      List.Forall₂ (Alike related) (tokens.dropWhile fun token => !isOption token)
        (others.dropWhile fun token => !isOption token) := by
  induction alike with
  | nil => exact ⟨.nil, .nil⟩
  | cons here later inductionHypothesis =>
    rename_i first second rest others
    have kind : isOption first = isOption second := by
      unfold isOption
      rw [here.mark]
    cases option : isOption first with
    | true =>
      have stop : isOption second = true := kind.symm.trans option
      simp only [List.takeWhile_cons, List.dropWhile_cons, option, stop]
      exact ⟨.nil, .cons here later⟩
    | false =>
      have go : isOption second = false := kind.symm.trans option
      simp only [List.takeWhile_cons, List.dropWhile_cons, option, go]
      exact ⟨.cons here inductionHypothesis.1, inductionHypothesis.2⟩

theorem SameOptions.join {first second later last : Matched}
    (front : SameOptions related first second) (back : SameOptions related later last) :
    SameOptions related (join first later) (Grammar.join second last) where
  keys := by
    simp only [Grammar.join, List.map_append, front.keys, back.keys]
  positionals := List.rel_append front.positionals back.positionals
  extras := List.rel_append front.extras back.extras

/-- What was matched first goes in front of what is matched later. -/
theorem parallel_join {first second : Matched} (front : SameOptions related first second)
    {later last : Except Usage (Matched × List Arity)} :
    Parallel (fun first second => SameOptions related first.1 second.1 ∧ first.2 = second.2)
      later last →
    Parallel (fun first second => SameOptions related first.1 second.1 ∧ first.2 = second.2)
      (match later with
        | .error usage => .error usage
        | .ok (more, left) => .ok (join first more, left))
      (match last with
        | .error usage => .error usage
        | .ok (more, left) => .ok (join second more, left)) := by
  intro back
  cases back with
  | error usage => exact .error usage
  | ok same => exact .ok ⟨front.join same.1, same.2⟩

theorem SameOptions.has {first second : Matched} (same : SameOptions related first second)
    (key : String) : first.has key = second.has key := by
  have shape : ∀ matched : Matched,
      matched.has key = (matched.options.map Prod.fst).any (· == key) := by
    intro matched
    rw [List.any_map]
    rfl
  rw [shape, shape, same.keys]

theorem matchTokens_alike (grammar : Grammar) (dashes : ∀ text other, related text other →
      (text = "--" ↔ other = "--")) (fuel : Nat) (arities : List Arity) {tokens others : List Token}
    (alike : List.Forall₂ (Alike related) tokens others) :
    Parallel (fun first second => SameOptions related first.1 second.1 ∧ first.2 = second.2)
      (grammar.matchTokens fuel arities tokens) (grammar.matchTokens fuel arities others) := by
  induction fuel generalizing arities tokens others with
  | zero => exact .ok ⟨⟨rfl, .nil, .nil⟩, rfl⟩
  | succ fuel inductionHypothesis =>
    have counts := partialCounts_congr (map_mark_of_alike alike) arities
    rcases takePositionals_alike dashes arities (partialCounts arities others) alike with
      ⟨found, behind⟩
    rcases takeWhile_alike alike with ⟨words, options⟩
    by_cases clear : (tokens.dropWhile fun token => !isOption token) = []
    · have clearOthers : (others.dropWhile fun token => !isOption token) = [] := by
        rw [clear] at options
        exact List.forall₂_nil_left_iff.mp options
      rw [matchTokens_of_no_option grammar fuel arities clear,
        matchTokens_of_no_option grammar fuel arities clearOthers, counts]
      exact .ok ⟨⟨rfl, found, map_text_of_alike behind⟩, rfl⟩
    have further : (others.dropWhile fun token => !isOption token) ≠ [] := by
      intro none_
      rw [none_] at options
      exact clear (List.forall₂_nil_right_iff.mp options)
    cases alike with
    | nil => exact absurd rfl clear
    | cons here later =>
      rename_i first second rest others
      cases option : isOption first with
      | true =>
        rcases first with ⟨text, mark⟩
        rcases second with ⟨other, mark'⟩
        rcases here with ⟨rfl, same, equal⟩
        rcases equal option with rfl
        cases mark with
        | word => cases option
        | dashes => cases option
        | option spelled =>
          rw [matchTokens_of_option, matchTokens_of_option]
          rcases (takeOption_alike grammar same later (text.length + 1) spelled).exists
            with ⟨usage, taken, takenOther⟩ | ⟨_, _, taken, takenOther, sameOptions, after⟩
          · rw [taken, takenOther]
            exact .error usage
          · rw [taken, takenOther]
            dsimp only
            rw [asksHelp, asksHelp, sameOptions.has]
            split
            · exact .error _
            · exact parallel_join sameOptions (inductionHypothesis arities after)
      | false =>
        have word : isOption second = false := by
          unfold isOption at option ⊢
          rwa [← here.mark]
        rw [matchTokens_of_words grammar fuel arities option clear,
          matchTokens_of_words grammar fuel arities word further, counts]
        dsimp only
        have sizes := behind.length_eq
        have lengths : (first :: rest).length = (second :: others).length := by
          rw [List.length_cons, List.length_cons, later.length_eq]
        rw [sizes, lengths]
        generalize takePositionals arities (partialCounts arities (second :: others))
          (first :: rest) = taken at found behind
        generalize takePositionals arities (partialCounts arities (second :: others))
          (second :: others) = takenOther at found behind
        by_cases shorter : takenOther.2.length < (second :: others).length
        · simp only [if_pos shorter]
          refine parallel_join ?_ (inductionHypothesis _ behind)
          exact ⟨rfl, found, .nil⟩
        · simp only [if_neg shorter]
          refine parallel_join ?_ (inductionHypothesis _ options)
          exact ⟨rfl, found, map_text_of_alike words⟩

theorem isEmpty_of_forall₂ {texts others : List String}
    (alike : List.Forall₂ related texts others) : texts.isEmpty = others.isEmpty := by
  cases alike with
  | nil => rfl
  | cons _ _ => rfl

/-! ## Whole lists of arguments -/

/-- Texts that a grammar takes for the same kind of argument.  Only words may
differ. -/
structure Interchangeable (grammar : Grammar) (related : String → String → Prop) : Prop where
  dashes : ∀ text other, related text other → (text = "--" ↔ other = "--")
  marks : ∀ text other, related text other → grammar.markOf text = grammar.markOf other
  words : ∀ text other, related text other → text = other ∨ grammar.markOf text = .ok .word

theorem words_alike {arguments others : List String}
    (alike : List.Forall₂ related arguments others) :
    List.Forall₂ (Alike related) (arguments.map fun word => ⟨word, .word⟩)
      (others.map fun word => ⟨word, .word⟩) := by
  induction alike with
  | nil => exact .nil
  | cons here _ inductionHypothesis =>
    exact .cons ⟨rfl, here, fun option => absurd option (by simp [isOption])⟩ inductionHypothesis

theorem tokens_alike (interchangeable : Interchangeable grammar related)
    {arguments others : List String} (alike : List.Forall₂ related arguments others) :
    Parallel (List.Forall₂ (Alike related)) (grammar.tokens arguments) (grammar.tokens others) := by
  induction alike with
  | nil => exact .ok .nil
  | cons here later inductionHypothesis =>
    rename_i text other rest others
    unfold tokens
    by_cases dashes : text = "--"
    · have same := (interchangeable.dashes text other here).mp dashes
      rw [if_pos dashes, if_pos same]
      refine .ok (.cons ⟨rfl, here, fun option => absurd option (by simp [isOption])⟩ ?_)
      exact words_alike later
    · have apart : other ≠ "--" := fun same =>
        dashes ((interchangeable.dashes text other here).mpr same)
      rw [if_neg dashes, if_neg apart, ← interchangeable.marks text other here]
      cases marked : grammar.markOf text with
      | error usage => exact .error usage
      | ok mark =>
        dsimp only
        rcases inductionHypothesis.exists with
          ⟨usage, first, second⟩ | ⟨_, _, first, second, tokens⟩
        · rw [first, second]
          exact .error usage
        · rw [first, second]
          refine .ok (.cons ⟨rfl, here, fun option => ?_⟩ tokens)
          rcases interchangeable.words text other here with same | word
          · exact same
          · rw [marked] at word
            cases word
            cases option

/-- Arguments in which words are exchanged are matched alike. -/
theorem parse_alike (interchangeable : Interchangeable grammar related)
    {arguments others : List String} (alike : List.Forall₂ related arguments others) :
    Parallel (SameOptions related) (grammar.parse arguments) (grammar.parse others) := by
  unfold parse
  rcases (tokens_alike interchangeable alike).exists with
    ⟨usage, first, second⟩ | ⟨tokens, others, first, second, tokensAlike⟩
  · rw [first, second]
    exact .error usage
  · rw [first, second]
    dsimp only
    rw [tokensAlike.length_eq]
    rcases (matchTokens_alike grammar interchangeable.dashes (2 * others.length + 1)
      grammar.positionals tokensAlike).exists with
      ⟨usage, matched, other⟩ | ⟨matched, other, first, second, same, left⟩
    · rw [matched, other]
      exact .error usage
    · rw [first, second]
      rcases matched with ⟨matched, arities⟩
      rcases other with ⟨other, aritiesOther⟩
      rcases left with rfl
      dsimp only
      split
      · exact .ok same
      · exact .error _

end Grammar
end Command
end FiniteAutomata
