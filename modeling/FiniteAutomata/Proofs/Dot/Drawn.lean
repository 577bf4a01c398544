import FiniteAutomata.Proofs.Dot.Parsed

namespace FiniteAutomata

/-!
# What statements draw

The nodes of a graph are those that its statements name, and its edges are
those of its statements in their order, where no statement gives defaults to
edges.  A node has a double circle if a statement has given it one last.
-/

namespace Entries

variable {κ ν : Type} [DecidableEq κ]

theorem mem_insert {key : κ} {value : ν} {map : List (κ × ν)} {entry : κ × ν}
    (member : entry ∈ insert key value map) : entry = (key, value) ∨ entry ∈ map := by
  induction map with
  | nil => exact Or.inl (List.mem_singleton.mp member)
  | cons first rest inductionHypothesis =>
    rw [insert] at member
    split at member
    · exact (List.mem_cons.mp member).imp_right (List.mem_cons_of_mem _)
    · rcases List.mem_cons.mp member with rfl | later
      · exact Or.inr List.mem_cons_self
      · exact (inductionHypothesis later).imp_right (List.mem_cons_of_mem _)

theorem mem_insertAll {map entries : List (κ × ν)} {entry : κ × ν}
    (member : entry ∈ insertAll map entries) : entry ∈ entries ∨ entry ∈ map := by
  induction entries generalizing map with
  | nil => exact Or.inr member
  | cons first rest inductionHypothesis =>
    rcases inductionHypothesis member with later | before
    · exact Or.inl (List.mem_cons_of_mem _ later)
    · exact (mem_insert before).imp_left fun same : entry = first => same ▸ List.mem_cons_self

end Entries

namespace Dot
namespace Graph

variable {graph : Graph}

/-! ## Nodes -/

theorem mem_names_declare {name other : String} {attributes : List (String × String)} :
    other ∈ (graph.declare name attributes).names ↔ other = name ∨ other ∈ graph.names :=
  Entries.mem_keys_insert _ _ _ _

theorem mem_names_join {source target other : String} {attributes : List (String × String)} :
    other ∈ (graph.join source target attributes).names ↔
      other = target ∨ other = source ∨ other ∈ graph.names :=
  mem_names_declare.trans (or_congr_right mem_names_declare)

theorem mem_names_joinAll {source other : String} {attributes : List (String × String)}
    {targets : List String} : other ∈ (graph.joinAll source attributes targets).names ↔
      (targets ≠ [] ∧ other = source) ∨ other ∈ targets ∨ other ∈ graph.names := by
  induction targets generalizing graph source with
  | nil => simp [joinAll]
  | cons target rest inductionHypothesis =>
    rw [joinAll, inductionHypothesis, mem_names_join, List.mem_cons]
    grind

/-- A statement adds the nodes that it names. -/
theorem mem_names_add {statement : Statement} {other : String} :
    other ∈ (graph.add statement).names ↔ other ∈ statement.names ∨ other ∈ graph.names := by
  cases statement with
  | setting key value => simp [add, Statement.names]
  | defaults kind attributes => cases kind <;> simp [add, Statement.names, names]
  | chain source targets attributes =>
    cases targets with
    | nil => simp [add, Statement.names, mem_names_declare]
    | cons target rest => simp [add, Statement.names, mem_names_joinAll, or_assoc]

theorem mem_names_draw {list : List Statement} {other : String} :
    other ∈ (graph.draw list).names ↔
      (∃ statement ∈ list, other ∈ statement.names) ∨ other ∈ graph.names := by
  induction list generalizing graph with
  | nil => simp [draw]
  | cons statement rest inductionHypothesis =>
    have step : graph.draw (statement :: rest) = (graph.add statement).draw rest := rfl
    rw [step, inductionHypothesis, mem_names_add]
    simp only [List.mem_cons, exists_eq_or_imp]
    rw [or_left_comm, or_assoc]

/-! ## Attributes of edges -/

/-- What edges have, now and by default, is of a kind. -/
structure EdgesHave (fits : String × String → Prop) (graph : Graph) : Prop where
  defaults : ∀ entry ∈ graph.edgeDefaults, fits entry
  edges : ∀ edge ∈ graph.edges, ∀ entry ∈ edge.attributes, fits entry

variable {fits : String × String → Prop}

theorem EdgesHave.join (known : EdgesHave fits graph) {attributes : List (String × String)}
    (given : ∀ entry ∈ attributes, fits entry) (source target : String) :
    EdgesHave fits (graph.join source target attributes) where
  defaults := known.defaults
  edges := by
    intro edge member entry inside
    rcases List.mem_append.mp member with old | new
    · exact known.edges edge old entry inside
    · rcases List.mem_singleton.mp new with rfl
      exact (Entries.mem_insertAll inside).elim (given entry) (known.defaults entry)

theorem EdgesHave.joinAll (known : EdgesHave fits graph) {attributes : List (String × String)}
    (given : ∀ entry ∈ attributes, fits entry) (source : String) (targets : List String) :
    EdgesHave fits (graph.joinAll source attributes targets) := by
  induction targets generalizing graph source with
  | nil => exact known
  | cons target rest inductionHypothesis =>
    exact inductionHypothesis (known.join given source target) target

theorem EdgesHave.add (known : EdgesHave fits graph) {statement : Statement}
    (given : ∀ entry ∈ statement.given, fits entry) : EdgesHave fits (graph.add statement) := by
  cases statement with
  | setting key value => exact known
  | defaults kind attributes =>
    cases kind with
    | edge =>
      refine ⟨fun entry member => ?_, known.edges⟩
      exact (Entries.mem_insertAll member).elim (given entry) (known.defaults entry)
    | _ => exact ⟨known.defaults, known.edges⟩
  | chain source targets attributes =>
    cases targets with
    | nil => exact ⟨known.defaults, known.edges⟩
    | cons target rest => exact known.joinAll given source (target :: rest)

theorem EdgesHave.draw (known : EdgesHave fits graph) {list : List Statement}
    (given : ∀ statement ∈ list, ∀ entry ∈ statement.given, fits entry) :
    EdgesHave fits (graph.draw list) := by
  induction list generalizing graph with
  | nil => exact known
  | cons statement rest inductionHypothesis =>
    exact inductionHypothesis (known.add (given statement List.mem_cons_self))
      fun other member => given other (List.mem_cons_of_mem _ member)

theorem EdgesHave.label (known : EdgesHave fits graph) {source target text : String}
    (labelled : some text ∈ graph.labels source target) : fits ("label", text) := by
  rcases List.mem_map.mp labelled with ⟨edge, found, has⟩
  rcases List.lookup_eq_some_iff.mp has with ⟨before, after, whole, _⟩
  refine known.edges edge (List.mem_filter.mp found).1 ("label", text) ?_
  rw [whole]
  exact List.mem_append_right _ List.mem_cons_self

/-! ## Edges in their order -/

/-- The edges of a path. -/
def pathEdges (source : String) (attributes : List (String × String)) : List String → List Edge
  | [] => []
  | target :: rest =>
    ⟨source, target, Entries.collapse attributes⟩ :: pathEdges target attributes rest

end Graph

namespace Statement

/-- The edges of a statement, if edges have nothing by default. -/
def edges : Statement → List Edge
  | .chain source targets attributes => Graph.pathEdges source attributes targets
  | _ => []

/-- The statement gives no defaults to edges. -/
def LeavesEdges : Statement → Prop
  | .defaults kind _ => kind ≠ .edge
  | _ => True

end Statement

namespace Graph

variable {graph : Graph}

theorem edges_joinAll (bare : graph.edgeDefaults = []) (source : String)
    (attributes : List (String × String)) (targets : List String) :
    (graph.joinAll source attributes targets).edges =
        graph.edges ++ pathEdges source attributes targets ∧
      (graph.joinAll source attributes targets).edgeDefaults = [] := by
  induction targets generalizing graph source with
  | nil => exact ⟨(List.append_nil _).symm, bare⟩
  | cons target rest inductionHypothesis =>
    have drawn : (graph.join source target attributes).edges =
        graph.edges ++ [⟨source, target, Entries.collapse attributes⟩] := by
      have same : (graph.join source target attributes).edges = graph.edges ++
          [⟨source, target, Entries.insertAll graph.edgeDefaults attributes⟩] := rfl
      rw [same, bare]
      rfl
    have stillBare : (graph.join source target attributes).edgeDefaults = [] := bare
    have later := inductionHypothesis stillBare target
    rw [joinAll, later.1, drawn, List.append_assoc]
    exact ⟨rfl, later.2⟩

theorem edges_add (bare : graph.edgeDefaults = []) {statement : Statement}
    (leaves : statement.LeavesEdges) :
    (graph.add statement).edges = graph.edges ++ statement.edges ∧
      (graph.add statement).edgeDefaults = [] := by
  cases statement with
  | setting key value => exact ⟨(List.append_nil _).symm, bare⟩
  | defaults kind attributes =>
    cases kind with
    | edge => exact absurd rfl leaves
    | _ => exact ⟨(List.append_nil _).symm, bare⟩
  | chain source targets attributes =>
    cases targets with
    | nil => exact ⟨(List.append_nil _).symm, bare⟩
    | cons target rest => exact edges_joinAll bare source attributes (target :: rest)

theorem edges_draw (bare : graph.edgeDefaults = []) {list : List Statement}
    (leave : ∀ statement ∈ list, statement.LeavesEdges) :
    (graph.draw list).edges = graph.edges ++ list.flatMap Statement.edges := by
  induction list generalizing graph with
  | nil => exact (List.append_nil _).symm
  | cons statement rest inductionHypothesis =>
    have step := edges_add bare (leave statement List.mem_cons_self)
    have later := inductionHypothesis step.2 fun other member =>
      leave other (List.mem_cons_of_mem _ member)
    have first : graph.draw (statement :: rest) = (graph.add statement).draw rest := rfl
    rw [first, later, step.1, List.flatMap_cons, List.append_assoc]

/-! ## Double circles -/

/-- Nodes have no double circle by default. -/
def Plain (graph : Graph) : Prop :=
  graph.nodeDefaults.lookup "shape" ≠ some "doublecircle"

instance (graph : Graph) : Decidable graph.Plain :=
  inferInstanceAs (Decidable (graph.nodeDefaults.lookup "shape" ≠ some "doublecircle"))

def Doubled (graph : Graph) (name : String) : Prop :=
  graph.property? name "shape" = some "doublecircle"

theorem property?_declare {name other key : String} {attributes : List (String × String)} :
    (graph.declare name attributes).property? other key =
      if other = name then
        (Entries.insertAll ((graph.nodes.lookup name).getD graph.nodeDefaults) attributes).lookup key
      else graph.property? other key := by
  have entry := Entries.lookup_insert name other
    (Entries.insertAll ((graph.nodes.lookup name).getD graph.nodeDefaults) attributes) graph.nodes
  have step : (graph.declare name attributes).nodes.lookup other = _ := entry
  rw [property?, step]
  split <;> rfl

/-- A node that is only named has a double circle if it had one. -/
theorem doubled_declare_nil (plain : graph.Plain) {name other : String} :
    (graph.declare name []).Doubled other ↔ graph.Doubled other := by
  rw [Doubled, property?_declare]
  split
  · rename_i same
    subst same
    rw [Doubled, property?, Entries.insertAll]
    cases graph.nodes.lookup other with
    | none =>
      have ordinary : graph.nodeDefaults.lookup "shape" ≠ some "doublecircle" := plain
      simpa using ordinary
    | some attributes => rfl
  · rfl

theorem doubled_declare_shape {name other shape : String} :
    (graph.declare name [("shape", shape)]).Doubled other ↔
      if other = name then shape = "doublecircle" else graph.Doubled other := by
  rw [Doubled, property?_declare]
  split
  · rw [Entries.insertAll, Entries.insertAll, Entries.lookup_insert, if_pos rfl]
    exact Option.some_inj
  · rfl

theorem doubled_joinAll (plain : graph.Plain) {source other : String}
    {attributes : List (String × String)} {targets : List String} :
    (graph.joinAll source attributes targets).Doubled other ↔ graph.Doubled other := by
  induction targets generalizing graph source with
  | nil => rfl
  | cons target rest inductionHypothesis =>
    have plainSource : (graph.declare source []).Plain := plain
    have plainBoth : (graph.join source target attributes).Plain := plain
    have named : (graph.join source target attributes).Doubled other ↔ graph.Doubled other :=
      (doubled_declare_nil plainSource).trans (doubled_declare_nil plain)
    exact (inductionHypothesis plainBoth).trans named

theorem plain_joinAll (plain : graph.Plain) (source : String)
    (attributes : List (String × String)) (targets : List String) :
    (graph.joinAll source attributes targets).Plain := by
  induction targets generalizing graph source with
  | nil => exact plain
  | cons target rest inductionHypothesis =>
    have still : (graph.join source target attributes).Plain := plain
    exact inductionHypothesis still target

theorem plain_draw (plain : graph.Plain) {list : List Statement}
    (chains : ∀ statement ∈ list, ∃ source targets attributes,
      statement = .chain source targets attributes) : (graph.draw list).Plain := by
  induction list generalizing graph with
  | nil => exact plain
  | cons statement rest inductionHypothesis =>
    rcases chains statement List.mem_cons_self with ⟨source, targets, attributes, rfl⟩
    have still : (graph.add (.chain source targets attributes)).Plain := by
      cases targets with
      | nil => exact plain
      | cons target others => exact plain_joinAll plain source attributes (target :: others)
    exact inductionHypothesis still fun other member => chains other (List.mem_cons_of_mem _ member)

theorem draw_append (first second : List Statement) :
    graph.draw (first ++ second) = (graph.draw first).draw second :=
  List.foldl_append

/-- Paths of edges leave the circles. -/
theorem doubled_draw_paths (plain : graph.Plain) {list : List Statement} {other : String}
    (paths : ∀ statement ∈ list, ∃ source target attributes,
      statement = .chain source [target] attributes) :
    (graph.draw list).Doubled other ↔ graph.Doubled other := by
  induction list generalizing graph with
  | nil => rfl
  | cons statement rest inductionHypothesis =>
    rcases paths statement List.mem_cons_self with ⟨source, target, attributes, rfl⟩
    have stillPlain : (graph.joinAll source attributes [target]).Plain := plain
    have later := inductionHypothesis stillPlain fun other member =>
      paths other (List.mem_cons_of_mem _ member)
    exact later.trans (doubled_joinAll plain)

end Graph
end Dot
end FiniteAutomata
