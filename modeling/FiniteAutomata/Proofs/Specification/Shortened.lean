import FiniteAutomata.Proofs.Specification.Grammar
import FiniteAutomata.Proofs.Specification.Refusal
import FiniteAutomata.Proofs.Text.Lines

namespace FiniteAutomata
namespace Specification

/-!
# Tokens cut to symbols

A reader that cuts long tokens differs from one that refuses them only from the
first long token on.  Up to there both do the same, so whatever the refusing
reader takes or refuses for another reason, the cutting one takes or refuses
alike.  From there on the cutting reader can still be refused, for a line at or
behind the one with the long token: a cut symbol can conflict with a move above
it.  What it does there is what the refusing reader does with the text in which
the tokens have been cut by hand.
-/

open Text (ArrowFree Unbroken isBlank trimmed)

/-! ## The first long token -/

theorem readMove_cutting (line : List Char) : readMove true line = readMove false line ∨
    ∃ token, readMove false line = .error (.longSymbol token) := by
  unfold readMove
  cases Edge.ofLine line with
  | error malformation => exact .inl rfl
  | ok edge =>
    by_cases long : 1 < edge.token.toList.length
    · simp only [symbol_of_long long]
      exact .inr ⟨edge.token, rfl⟩
    · left
      have same : edge.symbol true = edge.symbol false := by
        unfold Edge.symbol
        split
        · rfl
        · rfl
        · rename_i first rest several shape
          rw [shape] at long
          cases rest with
          | nil => exact absurd rfl several
          | cons second others => simp at long
      simp only [same]

theorem apply_cutting (line : Line) (draft : Draft) :
    line.apply true draft = line.apply false draft ∨
      ∃ token, line.apply false draft = .error (.malformed (.longSymbol token)) := by
  cases line with
  | move text =>
    simp only [Line.apply]
    rcases readMove_cutting text with same | ⟨token, long⟩
    · exact .inl (by rw [same])
    · exact .inr ⟨token, by rw [long]⟩
  | _ => exact .inl rfl

/-- A pass is refused for one of its own lines. -/
theorem number_of_pass {truncate : Bool} {draft : Draft} {number : Nat} {lines : List (List Char)}
    {located : LocatedFault} (fails : pass truncate draft number lines = .error located) :
    ∃ place : Nat, located.number = some (place : Int) ∧ number ≤ place := by
  induction lines generalizing draft number with
  | nil => cases fails
  | cons line rest inductionHypothesis =>
    rw [pass] at fails
    split at fails
    · rcases inductionHypothesis fails with ⟨place, found, behind⟩
      exact ⟨place, found, Nat.le_of_succ_le behind⟩
    · cases fails
      exact ⟨number, rfl, Nat.le_refl number⟩

/-- Two passes over the same lines, one of which cuts long tokens, are the same
up to the first long token. -/
theorem pass_cutting (draft : Draft) (number : Nat) (lines : List (List Char)) :
    pass true draft number lines = pass false draft number lines ∨
      ∃ (token : String) (place : Nat) (line : Option String),
        pass false draft number lines =
          .error ⟨.malformed (.longSymbol token), some (place : Int), line⟩ ∧
        ∀ located, pass true draft number lines = .error located →
          ∃ later : Nat, located.number = some (later : Int) ∧ place ≤ later := by
  induction lines generalizing draft number with
  | nil => exact .inl rfl
  | cons line rest inductionHypothesis =>
    rw [pass, pass]
    rcases apply_cutting (Line.ofText line) draft with same | ⟨token, long⟩
    · rw [same]
      cases (Line.ofText line).apply false draft with
      | ok next => exact inductionHypothesis next (number + 1)
      | error fault => exact .inl rfl
    · -- behind the long token the drafts differ, so only the places compare
      refine .inr ⟨token, number, some (String.ofList line), by rw [long]; rfl, ?_⟩
      intro located fails
      rw [← pass] at fails
      exact number_of_pass fails

/-! ## The layout of a move line -/

/-- What stands where in a line that describes a move: blanks around the whole,
and between the marks the source, the token with blanks around it, the gap and
the target.  The token has a first character. -/
structure Layout where
  lead : List Char
  source : List Char
  before : List Char
  first : Char
  more : List Char
  behind : List Char
  gap : List Char
  target : List Char
  trail : List Char

namespace Layout

def token (layout : Layout) : List Char :=
  layout.first :: layout.more

/-- The stretches of the move line, with any text in the place of the token. -/
def stretches (layout : Layout) (text : List Char) : Stretches :=
  ⟨layout.source, layout.before ++ text ++ layout.behind, layout.gap, layout.target⟩

/-- The whole line, with any text in the place of the token. -/
def line (layout : Layout) (text : List Char) : List Char :=
  layout.lead ++ (layout.stretches text).text ++ layout.trail

end Layout

/-- A line has a layout and describes the edge that is read of it. -/
structure LaidOut (raw : List Char) (edge : Edge) (layout : Layout) : Prop where
  whole : raw = layout.line layout.token
  trimmed_whole : trimmed raw = (layout.stretches layout.token).text
  lead_blank : ∀ c ∈ layout.lead, isBlank c = true
  trail_blank : ∀ c ∈ layout.trail, isBlank c = true
  before_blank : ∀ c ∈ layout.before, isBlank c = true
  behind_blank : ∀ c ∈ layout.behind, isBlank c = true
  gap_blank : ∀ c ∈ layout.gap, isBlank c = true
  front_free : ArrowFree (layout.stretches layout.token).front
  target_free : ArrowFree layout.target
  source_clear : ',' ∉ layout.source
  source : trimmed layout.source = edge.source.toList
  source_nonempty : edge.source ≠ ""
  token : layout.token = edge.token.toList
  token_trimmed : trimmed layout.token = layout.token
  target : trimmed layout.target = edge.target.toList
  target_nonempty : edge.target ≠ ""

/-- A line of which an edge is read has a layout. -/
theorem exists_layout {raw : List Char} {edge : Edge} (opens : ∃ rest, trimmed raw = '(' :: rest)
    (read : Edge.ofLine (trimmed raw) = .ok edge) : ∃ layout, LaidOut raw edge layout := by
  rcases Edge.spells_of_ofLine opens read with ⟨hasSource, hasToken, hasTarget, source, symbol,
    gap, target, written, freeFront, freeTarget, clear, blankGap, sourceTrimmed, tokenTrimmed,
    targetTrimmed⟩
  rcases Text.exists_trimmed raw with ⟨lead, trail, around, blankLead, blankTrail⟩
  rcases Text.trimmed_eq_iff.mp tokenTrimmed with
    ⟨⟨before, behind, padded, blankBefore, blankBehind⟩, solidToken⟩
  cases shape : edge.token.toList with
  | nil => exact absurd (String.toList_eq_nil_iff.mp shape) hasToken
  | cons first more =>
    rw [shape] at padded solidToken
    rw [padded] at written freeFront
    refine ⟨⟨lead, source, before, first, more, behind, gap, target, trail⟩, ?_⟩
    exact {
      whole := by
        rw [written] at around
        exact around
      trimmed_whole := written
      lead_blank := blankLead
      trail_blank := blankTrail
      before_blank := blankBefore
      behind_blank := blankBehind
      gap_blank := blankGap
      front_free := freeFront
      target_free := freeTarget
      source_clear := clear
      source := sourceTrimmed
      source_nonempty := hasSource
      token := shape.symm
      token_trimmed := solidToken
      target := targetTrimmed
      target_nonempty := hasTarget }

/-! ## Cutting a token -/

/-- A line in which the text behind the first comma and the blanks there, which
has a given length, is cut to its first character. -/
def cutToken (size : Nat) (raw : List Char) : List Char :=
  match Text.cutAt ',' raw with
  | none => raw
  | some (before, behind) =>
    let token := behind.dropWhile isBlank
    before ++ ',' :: (behind.takeWhile isBlank ++ (token.take 1 ++ token.drop size))

/-- A line with its token cut, if a token is read of it at all. -/
def cutLine (raw : List Char) : List Char :=
  match Line.ofText (trimmed raw) with
  | .move text =>
    match Edge.ofLine text with
    | .ok edge => cutToken edge.token.toList.length raw
    | .error _ => raw
  | _ => raw

/-- A specification with all tokens cut. -/
def cutTokens (text : String) : String :=
  String.ofList (Text.eachLine cutLine text.toList)

namespace LaidOut

variable {raw : List Char} {edge : Edge} {layout : Layout}

theorem first_solid (laid : LaidOut raw edge layout) : isBlank layout.first = false := by
  have first : (trimmed layout.token).head? = some layout.first := by
    rw [laid.token_trimmed]
    rfl
  exact Text.isBlank_of_head?_trimmed first

/-- The first comma of a laid out line is the one behind its source. -/
theorem cutAt_line (laid : LaidOut raw edge layout) :
    Text.cutAt ',' raw = some (layout.lead ++ '(' :: layout.source,
      layout.before ++ (layout.token ++
        (layout.behind ++ ')' :: layout.gap ++ '-' :: '>' :: layout.target ++ layout.trail))) := by
  rw [Text.cutAt_eq_some_iff]
  constructor
  · rw [laid.whole]
    simp [Layout.line, Layout.stretches, Stretches.text, Stretches.front]
  · intro member
    rcases List.mem_append.mp member with blank | inside
    · exact absurd (laid.lead_blank ',' blank) (by decide)
    · exact laid.source_clear (List.mem_of_ne_of_mem (by decide) inside)

theorem cutToken_eq (laid : LaidOut raw edge layout) :
    cutToken edge.token.toList.length raw = layout.line [layout.first] := by
  have stops : ¬ isBlank layout.first = true := by simp [laid.first_solid]
  unfold cutToken
  rw [laid.cutAt_line, ← laid.token]
  dsimp only
  rw [List.takeWhile_append_of_pos laid.before_blank,
    List.dropWhile_append_of_pos laid.before_blank, Layout.token, List.cons_append,
    List.takeWhile_cons_of_neg stops, List.dropWhile_cons_of_neg stops]
  simp [Layout.line, Layout.stretches, Stretches.text, Stretches.front]

/-- No arrow arises where the token is cut, since a blank or a parenthesis
stands behind it. -/
theorem front_free_cut (laid : LaidOut raw edge layout) :
    ArrowFree (layout.stretches [layout.first]).front := by
  have free := laid.front_free
  have freeFront :
      ArrowFree ('(' :: layout.source ++ ',' :: (layout.before ++ [layout.first])) := by
    intro occurs
    refine free (occurs.trans ⟨[], layout.more ++ layout.behind ++ ')' :: layout.gap, ?_⟩)
    simp [Layout.stretches, Layout.token, Stretches.front]
  have freeBack : ArrowFree (layout.behind ++ ')' :: layout.gap) := by
    intro occurs
    refine free (occurs.trans
      ⟨'(' :: layout.source ++ ',' :: (layout.before ++ layout.token), [], ?_⟩)
    simp [Layout.stretches, Stretches.front]
  have joined : (layout.stretches [layout.first]).front =
      ('(' :: layout.source ++ ',' :: (layout.before ++ [layout.first])) ++
        (layout.behind ++ ')' :: layout.gap) := by
    simp [Layout.stretches, Stretches.front]
  rw [joined]
  cases blanks : layout.behind with
  | nil =>
    rw [blanks] at freeBack
    exact Text.arrowFree_append freeFront (by decide) freeBack
  | cons c rest =>
    rw [blanks] at freeBack
    refine Text.arrowFree_append freeFront ?_ freeBack
    rintro rfl
    exact absurd (laid.behind_blank '>' (blanks ▸ List.mem_cons_self)) (by decide)

/-- A line spells the edge with its token cut, once the token is cut. -/
theorem spells_cut (laid : LaidOut raw edge layout) :
    Spells (layout.stretches [layout.first]).text
      { edge with token := String.singleton layout.first } where
  source_nonempty := laid.source_nonempty
  token_nonempty := by simp
  target_nonempty := laid.target_nonempty
  written := by
    refine ⟨layout.source, layout.before ++ [layout.first] ++ layout.behind, layout.gap,
      layout.target, rfl, laid.front_free_cut, laid.target_free, laid.source_clear, laid.gap_blank,
      laid.source, ?_, laid.target⟩
    rw [String.toList_singleton, Text.trimmed_append_append laid.before_blank laid.behind_blank]
    exact Text.trimmed_singleton laid.first_solid

/-- A cut line has no more blanks at its ends than it had. -/
theorem trimmed_cut (laid : LaidOut raw edge layout) :
    trimmed (layout.line [layout.first]) = (layout.stretches [layout.first]).text := by
  rw [Layout.line, Text.trimmed_append_append laid.lead_blank laid.trail_blank]
  have ends : ∀ text, (layout.stretches text).text.getLast? =
      ('-' :: '>' :: layout.target).getLast? := fun text =>
    List.getLast?_append_of_ne_nil _ (by simp)
  apply Text.trimmed_eq_self
  · rintro c ⟨⟩
    decide
  · intro c last
    rw [ends, ← ends layout.token, ← laid.trimmed_whole] at last
    exact Text.isBlank_of_getLast?_trimmed last

end LaidOut

/-! ## Cutting a line -/

/-- A line of which a token is read, with blanks around it. -/
def HasToken (raw : List Char) (edge : Edge) : Prop :=
  (∃ rest, trimmed raw = '(' :: rest) ∧ Edge.ofLine (trimmed raw) = .ok edge

theorem cutLine_of_hasToken {raw : List Char} {edge : Edge} (has : HasToken raw edge) :
    cutLine raw = cutToken edge.token.toList.length raw := by
  rcases has with ⟨⟨rest, starts⟩, read⟩
  rw [starts] at read
  unfold cutLine
  rw [starts, ofText_move]
  simp only [read]

/-- A line without a token is left as it is. -/
theorem cutLine_eq_self {raw : List Char} (bare : ∀ edge, ¬ HasToken raw edge) :
    cutLine raw = raw := by
  unfold cutLine
  split
  · rename_i text about
    rcases ofText_eq_move_iff.mp about with ⟨rfl, rest, starts⟩
    split
    · rename_i edge read
      exact absurd ⟨⟨rest, starts.symm⟩, read⟩ (bare edge)
    · rfl
  · rfl

/-- Cutting a token leaves the rest of its line as it is. -/
theorem exists_token {raw : List Char} {edge : Edge} (has : HasToken raw edge) :
    ∃ front first more back, edge.token.toList = first :: more ∧
      raw = front ++ first :: more ++ back ∧ cutLine raw = front ++ first :: back := by
  rcases exists_layout has.1 has.2 with ⟨layout, laid⟩
  refine ⟨layout.lead ++ '(' :: layout.source ++ ',' :: layout.before, layout.first, layout.more,
    layout.behind ++ ')' :: layout.gap ++ '-' :: '>' :: layout.target ++ layout.trail,
    laid.token.symm, ?_, ?_⟩
  · rw [laid.whole]
    simp [Layout.line, Layout.stretches, Layout.token, Stretches.text, Stretches.front]
  · rw [cutLine_of_hasToken has, laid.cutToken_eq]
    simp [Layout.line, Layout.stretches, Stretches.text, Stretches.front]

/-- The move that is read of a line with its token cut is the one that a
cutting reader reads of the line itself. -/
theorem readMove_cutLine {raw : List Char} {edge : Edge} (has : HasToken raw edge) :
    readMove false (trimmed (cutLine raw)) = readMove true (trimmed raw) := by
  rcases exists_layout has.1 has.2 with ⟨layout, laid⟩
  have cut : readMove false (trimmed (cutLine raw)) =
      .ok (edge.source, layout.first, edge.target) := by
    rw [cutLine_of_hasToken has, laid.cutToken_eq, laid.trimmed_cut]
    have denoted : Denotes _ (edge.source, layout.first, edge.target) := laid.spells_cut
    exact readMove_of_denotes denoted false
  have symbol : edge.symbol true = .ok layout.first := by
    unfold Edge.symbol
    rw [← laid.token, Layout.token]
    cases layout.more <;> rfl
  rw [cut, readMove, has.2]
  simp only [symbol]

/-- A line with its token cut is still a move line. -/
theorem opens_cutLine {raw : List Char} {edge : Edge} (has : HasToken raw edge) :
    ∃ rest, trimmed (cutLine raw) = '(' :: rest := by
  rcases exists_layout has.1 has.2 with ⟨layout, laid⟩
  rw [cutLine_of_hasToken has, laid.cutToken_eq, laid.trimmed_cut]
  exact ⟨_, rfl⟩

/-- Cutting the token of a line, a refusing reader does with it what a cutting
reader does with the line itself. -/
theorem apply_cutLine (raw : List Char) (draft : Draft) :
    (Line.ofText (trimmed (cutLine raw))).apply false draft =
      (Line.ofText (trimmed raw)).apply true draft := by
  by_cases token : ∃ edge, HasToken raw edge
  · rcases token with ⟨edge, has⟩
    have read := readMove_cutLine has
    rcases has.1 with ⟨rest, starts⟩
    rcases opens_cutLine has with ⟨others, startsCut⟩
    rw [starts, startsCut] at read ⊢
    rw [ofText_move, ofText_move]
    simp only [Line.apply, read]
  · have bare : ∀ edge, ¬ HasToken raw edge := fun edge has => token ⟨edge, has⟩
    rw [cutLine_eq_self bare]
    cases about : Line.ofText (trimmed raw) with
    | move text =>
      rcases ofText_eq_move_iff.mp about with ⟨rfl, rest, starts⟩
      have unread : ∃ malformation, Edge.ofLine (trimmed raw) = .error malformation := by
        cases read : Edge.ofLine (trimmed raw) with
        | error malformation => exact ⟨malformation, rfl⟩
        | ok edge => exact absurd ⟨⟨rest, starts.symm⟩, read⟩ (bare edge)
      rcases unread with ⟨malformation, unread⟩
      simp only [Line.apply, readMove, unread]
    | _ => rfl

/-! ## Cutting a text -/

theorem mem_of_mem_cutLine {raw : List Char} {c : Char} (member : c ∈ cutLine raw) : c ∈ raw := by
  by_cases token : ∃ edge, HasToken raw edge
  · rcases token with ⟨edge, has⟩
    rcases exists_token has with ⟨front, first, more, back, _, whole, cut⟩
    rw [cut] at member
    rw [whole]
    simp only [List.mem_append, List.mem_cons] at member ⊢
    tauto
  · rwa [cutLine_eq_self fun edge has => token ⟨edge, has⟩] at member

theorem keepsLines_cutLine : Text.KeepsLines cutLine where
  unbroken := fun _ unbroken c member => unbroken c (mem_of_mem_cutLine member)
  empty := by
    intro raw
    by_cases token : ∃ edge, HasToken raw edge
    · rcases token with ⟨edge, has⟩
      rcases exists_token has with ⟨front, first, more, back, _, whole, cut⟩
      rw [cut, whole]
      simp
    · rw [cutLine_eq_self fun edge has => token ⟨edge, has⟩]

theorem lines_cutTokens (text : String) :
    Text.lines (cutTokens text).toList = (Text.lines text.toList).map cutLine := by
  rw [cutTokens, String.toList_ofList, Text.lines_eachLine keepsLines_cutLine]

/-- A fault without the text of its line. -/
def placed (located : LocatedFault) : Fault × Option Int :=
  (located.fault, located.number)

theorem pass_cutLine (draft : Draft) (number : Nat) (raws : List (List Char)) :
    (pass true draft number (raws.map trimmed)).mapError placed =
      (pass false draft number ((raws.map cutLine).map trimmed)).mapError placed := by
  induction raws generalizing draft number with
  | nil => rfl
  | cons raw rest inductionHypothesis =>
    rw [List.map_cons, List.map_cons, List.map_cons, pass, pass, apply_cutLine]
    cases (Line.ofText (trimmed raw)).apply true draft with
    | ok next => exact inductionHypothesis next (number + 1)
    | error fault => rfl

/-! ## Reading -/

/-- Passes that agree but for the texts of lines make readings that do. -/
theorem read_placed {truncate cutting : Bool} {text other : String}
    (same : (pass truncate Draft.empty 1 (strippedLines text)).mapError placed =
      (pass cutting Draft.empty 1 (strippedLines other)).mapError placed) :
    (read truncate text).result.mapError placed = (read cutting other).result.mapError placed := by
  rw [read_result, read_result]
  generalize pass truncate Draft.empty 1 (strippedLines text) = first at same ⊢
  generalize pass cutting Draft.empty 1 (strippedLines other) = second at same ⊢
  cases first with
  | ok draft =>
    cases second with
    | ok next =>
      rcases Except.ok.inj same with rfl
      rfl
    | error located => cases same
  | error located =>
    cases second with
    | ok next => cases same
    | error later => exact congrArg Except.error (Except.error.inj same)

/-- Whatever is read without cutting tokens is read alike with cutting them,
and whatever is refused is refused alike, unless for a long token; then a
reader that cuts tokens is not refused for any line above it.  It does with a
text what a reader that refuses long tokens does with the text in which they
are cut. -/
theorem read_cutting (text : String) :
    (∀ automaton, (read false text).result = .ok automaton →
      (read true text).result = .ok automaton) ∧
    (∀ located, (read false text).result = .error located →
      (∀ token, located.fault ≠ .malformed (.longSymbol token)) →
        (read true text).result = .error located) ∧
    (∀ located token, (read false text).result = .error located →
      located.fault = .malformed (.longSymbol token) →
        ∃ place : Nat, located.number = some (place : Int) ∧
          ∀ other, (read true text).result = .error other →
            ∃ later : Nat, other.number = some (later : Int) ∧ place ≤ later) ∧
    (read true text).result.mapError placed =
      (read false (cutTokens text)).result.mapError placed := by
  have fourth : (read true text).result.mapError placed =
      (read false (cutTokens text)).result.mapError placed := by
    apply read_placed
    rw [strippedLines, strippedLines, lines_cutTokens]
    exact pass_cutLine Draft.empty 1 (Text.lines text.toList)
  rcases pass_cutting Draft.empty 1 (strippedLines text) with
    same | ⟨token, place, line, long, behind⟩
  · have alike : (read true text).result = (read false text).result := by
      rw [read_result, read_result, same]
    rw [alike] at fourth ⊢
    refine ⟨fun _ found => found, fun _ found _ => found, ?_, fourth⟩
    intro located token found _
    rcases number_of_pass (read_eq_error_iff.mp found) with ⟨place, number, _⟩
    refine ⟨place, number, fun other again => ?_⟩
    cases found.symm.trans again
    exact ⟨place, number, Nat.le_refl place⟩
  · have fails := read_eq_error_iff.mpr long
    refine ⟨?_, ?_, ?_, fourth⟩
    · intro automaton found
      cases fails.symm.trans found
    · intro located found short
      cases fails.symm.trans found
      exact absurd rfl (short token)
    · intro located _ found _
      cases fails.symm.trans found
      exact ⟨place, rfl, fun other again => behind other (read_eq_error_iff.mp again)⟩

/-- A text with two long tokens, the symbols of which are the same. -/
def longTokens : String :=
  "state=p, q
(p, q)->q
  ( p,\tabc )->q\r
start_state=p
(p, ad)->p"

/-- The same text with its tokens cut. -/
example : cutTokens longTokens = "state=p, q
(p, q)->q
  ( p,\ta )->q\r
start_state=p
(p, a)->p" := by
  decide +kernel

theorem read_cutting_longTokens :
    (∃ automaton, (read true "state=p\n(p, a)->p").result = .ok automaton) ∧
    (read true "state=p\n(p, a)->q").result =
      .error ⟨.missingTarget "q", some 2, some "(p, a)->q"⟩ ∧
    (∃ place later : Nat, place = 3 ∧ later = 5 ∧ place ≤ later ∧
      (read true longTokens).result =
        .error ⟨.conflictingMove "p" "a" "q" "p", some (later : Int), some "(p, ad)->p"⟩) ∧
    (read false (cutTokens longTokens)).result.mapError placed =
      .error (.conflictingMove "p" "a" "q" "p", some 5) := by
  have taken : ((read false "state=p\n(p, a)->p").result.toOption).isSome = true := by
    decide +kernel
  have refused : (read false "state=p\n(p, a)->q").result =
      .error ⟨.missingTarget "q", some 2, some "(p, a)->q"⟩ := by
    decide +kernel
  have long : (read false longTokens).result =
      .error ⟨.malformed (.longSymbol "abc"), some 3, some "( p,\tabc )->q"⟩ := by
    decide +kernel
  have conflict : (read true longTokens).result =
      .error ⟨.conflictingMove "p" "a" "q" "p", some 5, some "(p, ad)->p"⟩ := by
    decide +kernel
  refine ⟨?_, ?_, ?_, ?_⟩
  · cases found : (read false "state=p\n(p, a)->p").result with
    | error located =>
      rw [found] at taken
      cases taken
    | ok automaton => exact ⟨automaton, (read_cutting _).1 automaton found⟩
  · exact (read_cutting _).2.1 _ refused fun token => by simp
  · rcases (read_cutting longTokens).2.2.1 _ _ long rfl with ⟨place, three, behind⟩
    rcases behind _ conflict with ⟨later, five, order⟩
    have third := Option.some.inj three
    have fifth := Option.some.inj five
    refine ⟨place, later, by omega, by omega, order, ?_⟩
    rw [conflict, ← five]
  · rw [← (read_cutting longTokens).2.2.2, conflict]
    rfl

end Specification
end FiniteAutomata
