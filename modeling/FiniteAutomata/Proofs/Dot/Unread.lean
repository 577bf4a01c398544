import FiniteAutomata.Proofs.Dot.Pieces

namespace FiniteAutomata
namespace Dot

/-!
# Names that are not read

A name with a quote in it is written as it is, and its own quotes cut it into
pieces when it is read.  Other texts can draw a node of that name, but they
have to spell it with a backslash for each of its quotes, so they are longer
than the name.  Hence the longest of the names with quotes is the ID of no
node: every text from one quote to the next is a piece of a name, or without
quotes, or a label, and a label is a value and no ID.
-/

/-! ## Places of a scan -/

namespace Mode

/-- Outside of quotes, with no quote in the word that is read. -/
def Bare : Mode → Prop
  | .outside _ => True
  | .word _ text => '"' ∉ text
  | .hyphen => True
  | _ => False

/-- What was read since the last quote is of a kind, the backslash that waits
included. -/
def Reads (fits : List Char → Prop) : Mode → Prop
  | .quoted _ text => fits text
  | .escaping _ text => fits (text ++ ['\\'])
  | mode => mode.Bare

/-- No backslash waits for the next character. -/
def Ready : Mode → Prop
  | .escaping _ _ => False
  | _ => True

/-- A quote was just read. -/
def Fresh : Mode → Prop
  | .outside _ => True
  | .quoted _ text => text = []
  | _ => False

/-- No quote is in what is read, and no backslash waits. -/
def Level (mode : Mode) : Prop :=
  mode.Reads ('"' ∉ ·) ∧ mode.Ready

/-- A quote here ends no ID of the name. -/
def Safe (name : String) (mode : Mode) : Prop :=
  mode.Reads (· ≠ name.toList) ∧ mode.Ready

variable {fits more : List Char → Prop} {mode : Mode}

theorem Bare.reads (bare : mode.Bare) : mode.Reads fits := by
  cases mode with
  | quoted _ _ => cases bare
  | escaping _ _ => cases bare
  | _ => exact bare

theorem Bare.ready (bare : mode.Bare) : mode.Ready := by
  cases mode with
  | escaping _ _ => cases bare
  | _ => trivial

theorem Reads.mono (reads : mode.Reads fits) (included : ∀ text, fits text → more text) :
    mode.Reads more := by
  cases mode with
  | quoted _ text => exact included text reads
  | escaping _ text => exact included (text ++ ['\\']) reads
  | _ => exact reads

theorem Fresh.reads (fresh : mode.Fresh) (nothing : fits []) : mode.Reads fits := by
  cases mode with
  | outside _ => trivial
  | quoted _ text =>
    have nothingRead : text = [] := fresh
    exact nothingRead ▸ nothing
  | _ => cases fresh

theorem Fresh.ready (fresh : mode.Fresh) : mode.Ready := by
  cases mode with
  | escaping _ _ => cases fresh
  | _ => trivial

theorem Fresh.level (fresh : mode.Fresh) : mode.Level :=
  ⟨fresh.reads List.not_mem_nil, fresh.ready⟩

end Mode

/-! ## Characters -/

section Characters

variable {name : String} (quoted : '"' ∈ name.toList) {fits more : List Char → Prop}
  {mode next : Mode} {c : Char} {tokens : List Token}

theorem ne_quote_of_isWordChar (wordChar : isWordChar c = true) : c ≠ '"' := by
  rintro rfl
  exact absurd wordChar (by decide)

theorem idToken_eq_id_iff {valued : Bool} {text : List Char} :
    idToken valued text = .id name ↔ valued = false ∧ text = name.toList := by
  cases valued with
  | true => simp [idToken]
  | false =>
    have same : String.ofList text = name ↔ text = name.toList :=
      ⟨fun whole => by rw [← whole, String.toList_ofList],
        fun whole => by rw [whole, String.ofList_toList]⟩
    simp [idToken, same]

include quoted in
theorem idToken_ne_of_clear {text : List Char} (clear : '"' ∉ text) (valued : Bool) :
    idToken valued text ≠ .id name := by
  intro same
  rcases idToken_eq_id_iff.mp same with ⟨_, rfl⟩
  exact clear quoted

theorem bare_enter {valued : Bool} (entered : Mode.enter valued c = some (tokens, next)) :
    (∀ token ∈ tokens, token ≠ .id name) ∧ (c ≠ '"' → next.Bare) ∧ (c = '"' → next.Fresh) := by
  rcases enter_eq_some entered with ⟨marks, place⟩
  have others : ∀ token ∈ tokens, token ≠ .id name := by
    intro token member
    rcases marks token member with ⟨mark, rfl⟩
    rintro ⟨⟩
  refine ⟨others, ?_⟩
  rcases place with ⟨_, rfl⟩ | rfl | ⟨wordChar, rfl⟩ | ⟨quote, rfl⟩
  · exact ⟨fun _ => trivial, fun _ => trivial⟩
  · refine ⟨fun _ => trivial, ?_⟩
    rintro rfl
    cases entered
  · have other := ne_quote_of_isWordChar wordChar
    exact ⟨fun _ => by simpa [Mode.Bare] using other.symm, fun quote => absurd quote other⟩
  · exact ⟨fun other => absurd quote other, fun _ => rfl⟩

include quoted

/-- Outside of quotes only a quote leads between quotes, and the tokens there
have no quotes in them. -/
theorem bare_read (bare : mode.Bare) (stepped : mode.read c = some (tokens, next)) :
    (∀ token ∈ tokens, token ≠ .id name) ∧ (c ≠ '"' → next.Bare) ∧ (c = '"' → next.Fresh) := by
  cases mode with
  | outside valued => exact bare_enter stepped
  | word valued text =>
    have clear : '"' ∉ text := bare
    rcases read_word_eq_some stepped with ⟨wordChar, rfl, rfl⟩ | ⟨token, marks, found, entered, rfl⟩
    · have other := ne_quote_of_isWordChar wordChar
      have longer : '"' ∉ text ++ [c] := by simpa [other.symm] using clear
      exact ⟨by simp, fun _ => longer, fun quote => absurd quote other⟩
    · have behind : (∀ token ∈ marks, token ≠ .id name) ∧ _ := bare_enter entered
      refine ⟨List.forall_mem_cons.mpr ⟨?_, behind.1⟩, behind.2⟩
      rcases wordToken?_eq_some found with rfl | ⟨keyword, rfl⟩
      · exact idToken_ne_of_clear quoted clear valued
      · rintro ⟨⟩
  | hyphen =>
    rw [Mode.read] at stepped
    split at stepped
    · cases stepped
      exact ⟨by simp, fun _ => trivial, fun _ => trivial⟩
    · cases stepped
  | quoted _ _ => cases bare
  | escaping _ _ => cases bare

/-- One character more between quotes: it is read as it is, or it is a quote
behind a backslash, or a quote that ends what was read. -/
theorem reads_read (reads : mode.Reads fits) (stepped : mode.read c = some (tokens, next))
    (longer : c ≠ '"' → ∀ text, fits text → more (text ++ [c]))
    (escaped : c = '"' → ∀ text, fits (text ++ ['\\']) → more (text ++ ['"']))
    (ended : c = '"' → more [] ∧ ∀ text, fits text → text ≠ name.toList) :
    (∀ token ∈ tokens, token ≠ .id name) ∧ next.Reads more := by
  have outer (bare : mode.Bare) : (∀ token ∈ tokens, token ≠ .id name) ∧ next.Reads more := by
    have step := bare_read quoted bare stepped
    refine ⟨step.1, ?_⟩
    by_cases quote : c = '"'
    · exact (step.2.2 quote).reads (ended quote).1
    · exact (step.2.1 quote).reads
  cases mode with
  | quoted valued text =>
    rw [Mode.read] at stepped
    split at stepped
    · rename_i quote
      cases stepped
      refine ⟨List.forall_mem_singleton.mpr fun same => ?_, trivial⟩
      exact (ended quote).2 text reads (idToken_eq_id_iff.mp same).2
    · rename_i other
      split at stepped
      · rename_i backslash
        subst backslash
        cases stepped
        exact ⟨by simp, longer other text reads⟩
      · cases stepped
        exact ⟨by simp, longer other text reads⟩
  | escaping valued text =>
    rw [Mode.read] at stepped
    split at stepped
    · rename_i quote
      cases stepped
      exact ⟨by simp, escaped quote text reads⟩
    · rename_i other
      have step := longer other (text ++ ['\\']) reads
      split at stepped
      · rename_i backslash
        subst backslash
        cases stepped
        exact ⟨by simp, step⟩
      · cases stepped
        rw [List.append_assoc] at step
        exact ⟨by simp, step⟩
  | outside _ => exact outer reads
  | word _ _ => exact outer reads
  | hyphen => exact outer reads

/-- A quote that ends no ID of the name is followed by a fresh place. -/
theorem safe_read_quote (safe : mode.Safe name) (stepped : mode.read '"' = some (tokens, next)) :
    (∀ token ∈ tokens, token ≠ .id name) ∧ next.Fresh := by
  rcases safe with ⟨reads, ready⟩
  have outer (bare : mode.Bare) : (∀ token ∈ tokens, token ≠ .id name) ∧ next.Fresh :=
    ⟨(bare_read quoted bare stepped).1, (bare_read quoted bare stepped).2.2 rfl⟩
  cases mode with
  | quoted valued text =>
    cases stepped
    refine ⟨List.forall_mem_singleton.mpr fun same => ?_, trivial⟩
    exact reads (idToken_eq_id_iff.mp same).2
  | escaping _ _ => cases ready
  | outside _ => exact outer reads
  | word _ _ => exact outer reads
  | hyphen => exact outer reads

theorem Mode.Level.safe (level : mode.Level) : mode.Safe name :=
  ⟨level.1.mono fun _ clear same => clear (same ▸ quoted), level.2⟩

end Characters

/-! ## Pieces of a text -/

theorem ready_enter {valued : Bool} {c : Char} {tokens : List Token} {next : Mode}
    (entered : Mode.enter valued c = some (tokens, next)) : next.Ready := by
  rcases (enter_eq_some entered).2 with ⟨_, rfl⟩ | rfl | ⟨_, rfl⟩ | ⟨_, rfl⟩ <;> trivial

/-- Only a backslash waits for the next character. -/
theorem ready_read {mode next : Mode} {c : Char} {tokens : List Token} (other : c ≠ '\\')
    (stepped : mode.read c = some (tokens, next)) : next.Ready := by
  cases mode with
  | outside _ => exact ready_enter stepped
  | word _ _ =>
    rcases read_word_eq_some stepped with ⟨_, _, rfl⟩ | ⟨_, _, _, entered, _⟩
    · trivial
    · exact ready_enter entered
  | hyphen =>
    rw [Mode.read] at stepped
    split at stepped <;> cases stepped
    trivial
  | quoted _ _ =>
    rw [Mode.read, if_neg other] at stepped
    split at stepped <;> cases stepped <;> trivial
  | escaping _ _ =>
    rw [Mode.read, if_neg other] at stepped
    split at stepped <;> cases stepped <;> trivial

theorem leads_ready {text : List Char} (closed : Closed text) :
    Leads Mode.Ready text (fun _ => True) Mode.Ready := by
  rcases List.eq_nil_or_concat' text with rfl | ⟨front, c, rfl⟩
  · exact leads_nil fun _ held => held
  · have anywhere : Leads Mode.Ready front (fun _ => True) fun _ => True := by
      intro mode _ tokens last _
      exact ⟨fun _ _ => trivial, trivial⟩
    refine anywhere.append (leads_cons ?_ (leads_nil fun _ held => held))
    intro mode _ tokens next stepped
    exact ⟨fun _ _ => trivial, ready_read (closed_concat_iff.mp closed) stepped⟩

theorem Leads.mono {before first behind : Mode → Prop} {text : List Char} {fits : Token → Prop}
    (leads : Leads before text fits behind) (included : ∀ mode, first mode → before mode) :
    Leads first text fits behind :=
  fun _ held _ _ scanned => leads (included _ held) scanned

section Pieces

variable {name : String} (quoted : '"' ∈ name.toList)

include quoted

/-- A text without quotes, from anywhere but between a backslash and the next
character. -/
theorem leads_level {text : List Char} (clear : '"' ∉ text) (closed : Closed text) :
    Leads Mode.Level text (· ≠ .id name) Mode.Level := by
  intro mode level tokens last scanned
  have along : Leads (Mode.Reads ('"' ∉ ·)) text (· ≠ .id name) (Mode.Reads ('"' ∉ ·)) := by
    refine leads_of_step fun c member mode reads tokens next stepped => ?_
    have other : c ≠ '"' := fun quote => clear (quote ▸ member)
    refine reads_read quoted reads stepped (fun _ text before => ?_)
      (fun quote => absurd quote other) fun quote => absurd quote other
    simpa [other.symm] using before
  have found := along level.1 scanned
  exact ⟨found.1, found.2, (leads_ready closed level.2 scanned).2⟩

theorem leads_quote : Leads (Mode.Safe name) ['"'] (· ≠ .id name) Mode.Fresh :=
  leads_cons (fun _ safe _ _ stepped => safe_read_quote quoted safe stepped)
    (leads_nil fun _ held => held)

/-- What was read of so many characters.  A quote in it took two of them. -/
def Short (size : Nat) (text : List Char) : Prop :=
  text.length ≤ size ∧ ('"' ∈ text → text.length < size)

theorem Short.ne_name {size : Nat} (fits : size ≤ name.toList.length) {text : List Char}
    (short : Short size text) : text ≠ name.toList := by
  rintro rfl
  have smaller := short.2 quoted
  omega

theorem leads_short {text : List Char} {size : Nat}
    (fits : size + text.length ≤ name.toList.length) :
    Leads (Mode.Reads (Short size)) text (· ≠ .id name)
      (Mode.Reads (Short (size + text.length))) := by
  induction text generalizing size with
  | nil => exact leads_nil fun _ held => held
  | cons c rest inductionHypothesis =>
    rw [List.length_cons] at fits ⊢
    have later : Leads (Mode.Reads (Short (size + 1))) rest (· ≠ .id name)
        (Mode.Reads (Short (size + 1 + rest.length))) := inductionHypothesis (by omega)
    have whole : size + (rest.length + 1) = size + 1 + rest.length := by omega
    rw [whole]
    refine leads_cons (fun mode reads tokens next stepped => ?_) later
    refine reads_read quoted reads stepped (fun other read short => ?_) (fun _ read short => ?_)
      fun _ => ⟨⟨by simp, by simp⟩, fun read short => short.ne_name quoted (by omega)⟩
    · refine ⟨by simpa using short.1, fun inside => ?_⟩
      have before : '"' ∈ read := by simpa [other.symm] using inside
      simpa using short.2 before
    · have bound := short.1
      rw [List.length_append, List.length_singleton] at bound
      rw [Short, List.length_append, List.length_singleton]
      exact ⟨by omega, fun _ => by omega⟩

/-- A name between quotes, behind a quote that was just read.  It has no quotes,
or it is not longer than the name that is looked for. -/
theorem leads_name {text : List Char} (closed : Closed text)
    (short : '"' ∈ text → text.length ≤ name.toList.length) :
    Leads Mode.Fresh (text ++ ['"']) (· ≠ .id name) Mode.Fresh := by
  refine Leads.append ?_ (leads_quote quoted)
  intro mode fresh tokens last scanned
  by_cases inside : '"' ∈ text
  · have fits : 0 + text.length ≤ name.toList.length := by
      rw [Nat.zero_add]
      exact short inside
    have nothing : Short 0 [] := ⟨le_rfl, by simp⟩
    have found := leads_short quoted fits (fresh.reads nothing) scanned
    have ready := (leads_ready closed fresh.ready scanned).2
    exact ⟨found.1, found.2.mono fun _ read => read.ne_name quoted fits, ready⟩
  · have found := leads_level quoted inside closed fresh.level scanned
    exact ⟨found.1, found.2.safe quoted⟩

/-- Outside of quotes no backslash can be read. -/
theorem leads_escaped (text : List Char) :
    Leads Mode.Bare (escaped text) (· ≠ .id name) Mode.Bare := by
  induction text with
  | nil => exact leads_nil fun _ held => held
  | cons c rest inductionHypothesis =>
    rw [escaped_cons]
    split
    · intro mode bare tokens last scanned
      have refused : mode.read '\\' = none := by
        rw [Option.eq_none_iff_forall_ne_some]
        rintro ⟨_, _⟩ stepped
        cases mode with
        | outside valued => cases valued <;> cases stepped
        | word valued read =>
          rcases read_word_eq_some stepped with ⟨wordChar, _⟩ | ⟨_, _, _, entered, _⟩
          · exact absurd wordChar (by decide)
          · cases entered
        | hyphen => cases stepped
        | quoted _ _ => cases bare
        | escaping _ _ => cases bare
      rw [Scans, scan, refused] at scanned
      cases scanned
    · rename_i other
      refine leads_cons (fun mode bare tokens next stepped => ?_) inductionHypothesis
      have step := bare_read quoted bare stepped
      exact ⟨step.1, step.2.1 other⟩

/-- A label between its quotes.  If its first quote begins it, it is read as the
value that it is; and if its first quote ends another ID, it is read outside of
quotes. -/
theorem leads_label {text : List Char} (closed : Closed text) :
    Leads Mode.Fresh (" [label=\"".toList ++ (escaped text ++ ['"'])) (· ≠ .id name)
      Mode.Fresh := by
  intro mode fresh tokens last scanned
  cases mode with
  | outside valued =>
    cases valued with
    | false =>
      have opening : Scans (.outside false) " [label=\"".toList
          [.mark .openBracket, .id "label"] (.quoted true []) := by decide +kernel
      have whole := opening.append (scans_quoted closed true)
      rw [Scans] at whole scanned
      rw [whole] at scanned
      cases scanned
      refine ⟨?_, trivial⟩
      have apart : Token.id "label" ≠ .id name := by
        intro same
        rw [← Token.id.inj same] at quoted
        exact absurd quoted (by decide)
      simp [apart, idToken]
    | true =>
      have opening : scan (.outside true) " [label=\"".toList = none := by decide +kernel
      rw [Scans, scan_append, opening] at scanned
      cases scanned
  | quoted valued read =>
    have nothing : read = [] := fresh
    subst nothing
    have opening : Scans (.quoted valued []) " [label=\"".toList
        [idToken valued " [label=".toList] (.outside false) := by
      cases valued <;> decide +kernel
    have apart : idToken valued " [label=".toList ≠ .id name :=
      idToken_ne_of_clear quoted (by decide) valued
    have behind : Leads Mode.Bare (escaped text ++ ['"']) (· ≠ .id name) Mode.Fresh :=
      (leads_escaped quoted text).append
        ((leads_quote quoted).mono fun _ bare => ⟨bare.reads, bare.ready⟩)
    rw [Scans, scan_append, opening, Option.bind_some] at scanned
    rcases Option.map_eq_some_iff.mp scanned with ⟨found, foundRest, same⟩
    cases same
    have outer : (Mode.outside false).Bare := trivial
    have later := behind outer foundRest
    refine ⟨?_, later.2⟩
    intro token member
    rcases List.mem_append.mp member with first | other
    · rw [List.mem_singleton.mp first]
      exact apart
    · exact later.1 token other
  | _ => cases fresh

end Pieces

/-! ## Lines -/

/-- A line that the name is not read from, whatever comes before it. -/
def Unread (name line : String) : Prop :=
  Leads Mode.Level (line.toList ++ ['\n']) (· ≠ .id name) Mode.Level

/-- A state name that its quotes end, and that is not longer than the name if
it has quotes in it. -/
structure Harmless (name other : String) : Prop where
  closed : Closed other.toList
  short : '"' ∈ other.toList → other.toList.length ≤ name.toList.length

section Lines

variable {name : String} (quoted : '"' ∈ name.toList)

include quoted

theorem leads_between {text : List Char} (closed : Closed text)
    (short : '"' ∈ text → text.length ≤ name.toList.length) :
    Leads Mode.Level (between text) (· ≠ .id name) Mode.Fresh :=
  ((leads_quote quoted).mono fun _ => Mode.Level.safe quoted).append
    (leads_name quoted closed short)

theorem leads_fixed (text : String)
    (fixed : '"' ∉ text.toList ∧ Closed text.toList) :
    Leads Mode.Level text.toList (· ≠ .id name) Mode.Level :=
  leads_level quoted fixed.1 fixed.2

theorem Harmless.leads {other : String}
    (harmless : Harmless name other) :
    Leads Mode.Level (between other.toList) (· ≠ .id name) Mode.Level :=
  fun _ level _ _ scanned =>
    have found := leads_between quoted harmless.closed harmless.short level scanned
    ⟨found.1, found.2.level⟩

theorem unread_of_clear {line : String} (clear : '"' ∉ line.toList) :
    Unread name line :=
  leads_level quoted (by simpa using clear) (closed_concat_iff.mpr (by decide))

theorem unread_acceptingLine {other : String}
    (harmless : Harmless name other) : Unread name (acceptingLine other) := by
  rw [Unread, toList_acceptingLine]
  exact (leads_fixed quoted "  " (by decide)).append
    ((harmless.leads quoted).append
      (leads_fixed quoted " [shape=doublecircle];\n" (by decide)))

theorem unread_startLines {other : String}
    (harmless : Harmless name other) : ∀ line ∈ startLines other, Unread name line := by
  intro line member
  rcases List.mem_cons.mp member with rfl | later
  · exact unread_of_clear quoted (by decide)
  · rcases List.mem_singleton.mp later with rfl
    rw [Unread, toList_entryLine]
    exact (leads_fixed quoted "  __start__ -> " (by decide)).append
      ((harmless.leads quoted).append (leads_fixed quoted ";\n" (by decide)))

theorem unread_edgeLine {source target : String} {symbols : List Char}
    (fromHarmless : Harmless name source) (toHarmless : Harmless name target)
    (closed : Closed (labelText symbols).toList) :
    Unread name (edgeLine source target symbols) := by
  rw [Unread, toList_edgeLine]
  have ending : Leads Mode.Fresh "];\n".toList (· ≠ .id name) Mode.Level :=
    (leads_fixed quoted "];\n" (by decide)).mono fun _ => Mode.Fresh.level
  have labelled := (leads_between quoted toHarmless.closed toHarmless.short).append
    ((leads_label quoted closed).append ending)
  exact (leads_fixed quoted "  " (by decide)).append
    ((fromHarmless.leads quoted).append
      ((leads_fixed quoted " -> " (by decide)).append labelled))

end Lines

theorem leads_lines {kept : Mode → Prop} {fits : Token → Prop} {lines : List String}
    (each : ∀ line ∈ lines, Leads kept (line.toList ++ ['\n']) fits kept) :
    Leads kept (lines.flatMap fun line => line.toList ++ ['\n']) fits kept := by
  induction lines with
  | nil => exact leads_nil fun _ held => held
  | cons line rest inductionHypothesis =>
    rw [List.flatMap_cons]
    exact (each line List.mem_cons_self).append
      (inductionHypothesis fun other member => each other (List.mem_cons_of_mem _ member))

/-- A name with quotes is the ID of no node, if no name with quotes is longer
and all names and labels are ended by their quotes. -/
theorem id_notMem_of_longest {automaton : Automaton} {name : String}
    (quoted : '"' ∈ name.toList)
    (harmless : ∀ other ∈ automaton.stateNames, Harmless name other)
    (labels : ∀ source target, Closed (labelText (automaton.symbolsBetween source target)).toList)
    {tokens : List Token} (read : tokens? (write automaton) = some tokens) :
    Token.id name ∉ tokens := by
  have unread : ∀ line ∈ writtenLines automaton, Unread name line := by
    apply forall_writtenLines
    · intro line member
      refine unread_of_clear quoted ?_
      have clear : ∀ line ∈ ["digraph DFA \x7b", "  rankdir=LR;", "  node [shape=circle];", "\x7d"],
          '"' ∉ line.toList := by decide
      exact clear line member
    · intro state member
      exact unread_acceptingLine quoted (harmless _ (Automaton.name_mem_stateNames member))
    · intro state member
      exact unread_startLines quoted (harmless _ (Automaton.name_mem_stateNames member))
    · intro state member target reached
      exact unread_edgeLine quoted (harmless _ (Automaton.name_mem_stateNames member))
        (harmless _ (Automaton.mem_stateNames_of_targetsFrom reached)) (labels _ _)
  have along := leads_lines unread
  rw [← toList_write] at along
  unfold tokens? at read
  split at read
  · rename_i found scanned
    cases read
    have level : (Mode.outside false).Level := ⟨trivial, trivial⟩
    exact fun member => (along level scanned).1 _ member rfl
  · cases read

end Dot
end FiniteAutomata
