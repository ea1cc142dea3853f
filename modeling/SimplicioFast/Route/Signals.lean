import Mathlib.Data.Prod.Lex
import Mathlib.Data.List.Perm.Subperm
import SimplicioFast.Lib.Lines
import SimplicioFast.Lib.Reread
import SimplicioFast.Prism.Base

/-!
# The graph signals of a route

`_graph_signals` counts the inbound and outbound edges of every node of a dependency graph and
reports the largest counts of the targets.  `_measured` takes the value itself for both bounds, also
on a truncated graph, and a target that the graph does not have counts zero.
-/

namespace SimplicioFast

namespace RouteSignals

/-- `PluginRouteSignalsError`. -/
inductive Raised
  | pluginRouteSignalsError (reasonCode detail : PyStr)
deriving DecidableEq

/-! ## Paths -/

def normalized (value : PyStr) : PyStr := PyStr.replace "\\" "/" value

/-- `validate_relative_path` accepts the path. -/
def ValidPath (value : PyStr) : Prop :=
  value.strip ≠ [] ∧ (normalized value).head? ≠ some (.scalar '/') ∧
    (".." : PyStr) ∉ Prism.parts (normalized value) ∧ normalized value ∉ ([[], "."] : List PyStr) ∧
    ∀ first ∈ (Prism.parts (normalized value)).head?, PyChar.scalar ':' ∉ first

instance (value : PyStr) : Decidable (ValidPath value) := by
  unfold ValidPath
  infer_instance

/-- The path that `validate_relative_path` returns. -/
def pathOf (value : PyStr) : PyStr := Prism.asPosix (normalized value)

def validatePath (value : PyStr) : Except Raised PyStr :=
  if ValidPath value then .ok (pathOf value) else .error
    (.pluginRouteSignalsError "path_escape" value)

def vagueTargets (targets : List PyStr) : Bool :=
  targets = [] || targets.any fun item =>
    item.strip = [] || (.scalar '*') ∈ item || item ∈ ([".", "/"] : List PyStr)

/-! ## Signals -/

/-- The kinds of a signal. -/
inductive Kind
  | unknown
  | measured
  | boundedEstimate
deriving DecidableEq

/-- A signal about the graph.  Its unit is `count`, as `SIGNAL_UNITS` has it for all three. -/
structure Signal where
  name : PyStr
  kind : Kind
  value : Option ℕ
  unit : PyStr := "count"
  lowerBound : Option ℕ
  upperBound : Option ℕ
  unknownReason : Option PyStr
  provenance : PyStr
deriving DecidableEq

def unknown (name reason provenance : PyStr) : Signal where
  name := name
  kind := .unknown
  value := none
  lowerBound := none
  upperBound := none
  unknownReason := some reason
  provenance := provenance

/-- `_measured`; a bound that is not given is the value. -/
def measured (name : PyStr) (value : ℕ) (provenance : PyStr) (kind : Kind)
    (lower upper : Option ℕ) : Signal where
  name := name
  kind := kind
  value := some value
  lowerBound := some (lower.getD value)
  upperBound := some (upper.getD value)
  unknownReason := none
  provenance := provenance

/-- A dependency graph: its nodes, its edges with their members `from` and `to`, and its flag. -/
structure Graph where
  nodes : List PyStr
  edges : List (PyStr × PyStr)
  truncated : Bool := false

/-- What `_graph_signals` returns. -/
structure GraphSignals where
  fanIn : Signal
  fanOut : Signal
  hub : Signal
  truncated : Bool
  digest : Option PyStr
deriving DecidableEq

def MAX_GRAPH_NODES : ℕ := 100000

def MAX_GRAPH_EDGES : ℕ := 100000

/-! ## Digests -/

def edgeJson (e : PyStr × PyStr) : Json := .arr [.str e.1, .str e.2]

/-- The canonical text of nodes and edges. -/
def graphText (nodes : List PyStr) (edges : List (PyStr × PyStr)) : PyStr :=
  Json.dumps true (.obj [("nodes", .arr (nodes.map .str)), ("edges", .arr (edges.map edgeJson))])

/-- `_digest` of a text. -/
def digestOf (text : PyStr) : PyStr := PyStr.ofChars (Sha256.hexdigest (PyStr.encodeAscii text))

/-- `sorted` of the nodes. -/
def sortedNodes (nodes : List PyStr) : List PyStr := nodes.insertionSort (· ≤ ·)

/-- `sorted` of the edges; pairs are compared by their first components first. -/
def sortedEdges (edges : List (PyStr × PyStr)) : List (PyStr × PyStr) :=
  ((edges.map toLex).insertionSort (· ≤ ·)).map ofLex

/-! ## Counting -/

/-- The counts of the loop over the edges, and the edges with checked paths. -/
structure Counts where
  inbound : Dict PyStr ℕ
  outbound : Dict PyStr ℕ
  canonicalEdges : List (PyStr × PyStr)

/-- `{node: 0 for node in normalized_nodes}`. -/
def zeroCounts (nodes : List PyStr) : Dict PyStr ℕ := nodes.foldl
    (fun counts node => counts.set node 0) .empty

/-- `counts[node] = counts.get(node, 0) + 1`. -/
def bump (counts : Dict PyStr ℕ) (node : PyStr) : Dict PyStr ℕ :=
  counts.set node ((counts.get? node).getD 0 + 1)

/-- One pass of the loop over the edges. -/
def countEdge (counts : Counts) (edge : PyStr × PyStr) : Except Raised Counts := do
  let src ← validatePath edge.1
  let dst ← validatePath edge.2
  return ⟨bump counts.inbound dst, bump counts.outbound src, counts.canonicalEdges ++ [(src, dst)]⟩

/-- `max` of a list that is not empty. -/
def largest (l : List ℕ) : ℕ := l.foldr max 0

/-- The three signals of counts about the nodes in focus. -/
def focusSignals (focus : List PyStr) (inbound outbound : Dict PyStr ℕ) (kind : Kind) :
    Signal × Signal × Signal :=
  let fanIn := largest (focus.map fun node => (inbound.get? node).getD 0)
  let fanOut := largest (focus.map fun node => (outbound.get? node).getD 0)
  let hub :=
      largest (focus.map fun node => (inbound.get? node).getD 0 + (outbound.get? node).getD 0)
  (measured "fan_in" fanIn "graph" kind none none, measured "fan_out" fanOut "graph" kind none none,
    measured "hub" hub "graph" kind none none)

/-- `focus`: the targets, or all nodes when the targets are vague. -/
def focusPaths (targets normalizedNodes : List PyStr) : Except Raised (List PyStr) :=
  if targets ≠ [] && !vagueTargets targets then targets.mapM validatePath else .ok normalizedNodes

def graphSignals (targets : List PyStr) (graph : Option Graph) : Except Raised GraphSignals :=
  match graph with
  | none =>
    .ok ⟨unknown "fan_in" "graph_missing" "graph", unknown "fan_out" "graph_missing" "graph",
      unknown "hub" "graph_missing" "graph", false, none⟩
  | some graph =>
    if MAX_GRAPH_NODES < graph.nodes.length || MAX_GRAPH_EDGES < graph.edges.length then
      .error (.pluginRouteSignalsError "graph_limit" [])
    else do
      let normalizedNodes ← graph.nodes.mapM validatePath
      let counts ← graph.edges.foldlM countEdge
          ⟨zeroCounts normalizedNodes, zeroCounts normalizedNodes, []⟩
      let focus ← focusPaths targets normalizedNodes
      if focus = [] then
        return ⟨unknown "fan_in" "targets_missing" "graph",
          unknown "fan_out" "targets_missing" "graph",
          unknown "hub" "targets_missing" "graph", false,
            digestOf (graphText normalizedNodes counts.canonicalEdges)⟩
      else
        let kind := if graph.truncated then .boundedEstimate else .measured
        let signals := focusSignals focus counts.inbound counts.outbound kind
        return ⟨signals.1, signals.2.1, signals.2.2, graph.truncated,
          digestOf (graphText (sortedNodes normalizedNodes) (sortedEdges counts.canonicalEdges))⟩

/-! ## What the signals should mean -/

/-- The checks of the graph and of the targets pass. -/
structure Accepted (targets : List PyStr) (graph : Graph) : Prop where
  nodeCount : graph.nodes.length ≤ MAX_GRAPH_NODES
  edgeCount : graph.edges.length ≤ MAX_GRAPH_EDGES
  nodes : ∀ node ∈ graph.nodes, ValidPath node
  edges : ∀ edge ∈ graph.edges, ValidPath edge.1 ∧ ValidPath edge.2
  targets : vagueTargets targets = false → ∀ target ∈ targets, ValidPath target

namespace Graph

def paths (graph : Graph) : List PyStr := graph.nodes.map pathOf

def arrows (graph : Graph) : List (PyStr × PyStr) := graph.edges.map fun edge =>
    (pathOf edge.1, pathOf edge.2)

def inDegree (graph : Graph) (node : PyStr) : ℕ := graph.arrows.countP fun edge => edge.2 = node

def outDegree (graph : Graph) (node : PyStr) : ℕ := graph.arrows.countP fun edge => edge.1 = node

/-- How many edges start or end at the node. -/
def degree (graph : Graph) (node : PyStr) : ℕ := graph.inDegree node + graph.outDegree node

/-- The node is listed, or an edge starts or ends there. -/
def Occurs (graph : Graph) (node : PyStr) : Prop :=
  node ∈ graph.paths ∨ ∃ edge ∈ graph.arrows, node = edge.1 ∨ node = edge.2

/-- The nodes that the signals are about: the targets, unless they are vague. -/
def focus (graph : Graph) (targets : List PyStr) : List PyStr :=
  if vagueTargets targets then graph.paths else targets.map pathOf

/-- Some nodes and edges of another graph. -/
structure Within (part graph : Graph) : Prop where
  nodes : part.nodes.Subperm graph.nodes
  edges : part.edges.Subperm graph.edges

end Graph

/-! ## The loop -/

variable {targets : List PyStr} {graph part : Graph} {value path node : PyStr}

theorem validatePath_eq_ok_iff : validatePath value = .ok path ↔
    ValidPath value ∧ path = pathOf value := by
  unfold validatePath
  by_cases valid : ValidPath value
  · simp [valid, eq_comm]
  · simp [valid]

theorem mapM_validatePath {values : List PyStr} (valid : ∀ value ∈ values, ValidPath value) :
    values.mapM validatePath = .ok (values.map pathOf) :=
  Except.mapM_eq_ok fun value mem => validatePath_eq_ok_iff.2 ⟨valid value mem, rfl⟩

theorem getD_zeroCounts (nodes : List PyStr) : ((zeroCounts nodes).get? node).getD 0 = 0 := by
  have start (counts : Dict PyStr ℕ) (zero : (counts.get? node).getD 0 = 0) :
      ((nodes.foldl (fun counts node => counts.set node 0) counts).get? node).getD 0 = 0 := by
    induction nodes generalizing counts with
    | nil => exact zero
    | cons other nodes ih =>
      apply ih
      rw [Dict.get?_set]
      split
      · rfl
      · exact zero
  exact start .empty rfl

theorem getD_bump (counts : Dict PyStr ℕ) (other : PyStr) :
    ((bump counts other).get? node).getD 0 = (counts.get? node).getD 0 + if other =
    node then 1 else 0 := by
  rw [bump, Dict.get?_set]
  by_cases here : node = other
  · simp [here]
  · have there : other ≠ node := fun same => here same.symm
    simp [here, there]

theorem foldlM_countEdge {edges : List (PyStr × PyStr)}
    (valid : ∀ edge ∈ edges, ValidPath edge.1 ∧ ValidPath edge.2)
    (counts : Counts) :
    ∃ counts', edges.foldlM countEdge counts = .ok counts' ∧
      counts'.canonicalEdges = counts.canonicalEdges ++
        edges.map (fun edge => (pathOf edge.1, pathOf edge.2)) ∧
      (∀ node, (counts'.inbound.get? node).getD 0 = (counts.inbound.get? node).getD 0 +
        (edges.map fun edge => (pathOf edge.1, pathOf edge.2)).countP fun edge => edge.2 = node) ∧
      ∀ node, (counts'.outbound.get? node).getD 0 = (counts.outbound.get? node).getD 0 +
        (edges.map fun edge => (pathOf edge.1, pathOf edge.2)).countP fun edge =>
        edge.1 = node := by
  induction edges generalizing counts with
  | nil => exact ⟨counts, rfl, (List.append_nil _).symm, fun _ => rfl, fun _ => rfl⟩
  | cons edge edges ih =>
    obtain ⟨⟨src, dst⟩, valid⟩ := List.forall_mem_cons.1 valid
    obtain ⟨counts', folded, listed, inbound, outbound⟩ :=
        ih valid ⟨bump counts.inbound (pathOf edge.2),
      bump counts.outbound (pathOf edge.1), counts.canonicalEdges ++
        [(pathOf edge.1, pathOf edge.2)]⟩
    have first : countEdge counts edge = .ok ⟨bump counts.inbound (pathOf edge.2),
        bump counts.outbound (pathOf edge.1), counts.canonicalEdges ++
            [(pathOf edge.1, pathOf edge.2)]⟩ := by
      refine bind_ok.2 ⟨_, validatePath_eq_ok_iff.2 ⟨src, rfl⟩, ?_⟩
      exact bind_ok.2 ⟨_, validatePath_eq_ok_iff.2 ⟨dst, rfl⟩, rfl⟩
    refine ⟨counts', bind_ok.2 ⟨_, first, folded⟩, ?_, fun node => ?_, fun node => ?_⟩
    · rw [listed, List.append_assoc, List.singleton_append, List.map_cons]
    · rw [inbound, getD_bump, List.map_cons, List.countP_cons]
      simp only [decide_eq_true_eq]
      omega
    · rw [outbound, getD_bump, List.map_cons, List.countP_cons]
      simp only [decide_eq_true_eq]
      omega

theorem validPath_of_foldlM {edges : List (PyStr × PyStr)} {counts counts' : Counts}
    (h : edges.foldlM countEdge counts = .ok counts') : ∀ edge ∈ edges, ValidPath edge.1 ∧
    ValidPath edge.2 := by
  induction edges generalizing counts with
  | nil => exact fun edge mem => absurd mem List.not_mem_nil
  | cons edge edges ih =>
    obtain ⟨next, first, rest⟩ := bind_ok.1 h
    obtain ⟨src, validSrc, first⟩ := bind_ok.1 first
    obtain ⟨dst, validDst, -⟩ := bind_ok.1 first
    exact List.forall_mem_cons.2
      ⟨⟨(validatePath_eq_ok_iff.1 validSrc).1, (validatePath_eq_ok_iff.1 validDst).1⟩, ih rest⟩

/-! ## What is reported -/

/-- What `_graph_signals` reports about an accepted graph. -/
def report (targets : List PyStr) (graph : Graph) : GraphSignals :=
  if graph.focus targets = [] then
    ⟨unknown "fan_in" "targets_missing" "graph", unknown "fan_out" "targets_missing" "graph",
      unknown "hub" "targets_missing" "graph", false, digestOf (graphText graph.paths graph.arrows)⟩
  else
    let kind := if graph.truncated then .boundedEstimate else .measured
    ⟨measured "fan_in" (largest ((graph.focus targets).map graph.inDegree)) "graph" kind none none,
      measured "fan_out" (largest ((graph.focus targets).map graph.outDegree)) "graph" kind
        none none,
      measured "hub" (largest ((graph.focus targets).map graph.degree)) "graph" kind none none,
      graph.truncated, digestOf (graphText (sortedNodes graph.paths) (sortedEdges graph.arrows))⟩

theorem focusPaths_eq (accepted : Accepted targets graph) :
    focusPaths targets graph.paths = .ok (graph.focus targets) := by
  unfold focusPaths Graph.focus
  cases vague : vagueTargets targets with
  | true =>
    rw [Bool.not_true, Bool.and_false, if_neg Bool.false_ne_true, if_pos rfl]
  | false =>
    have some : targets ≠ [] := by
      rintro rfl
      cases vague
    rw [decide_eq_true some, Bool.not_false, Bool.true_and, if_pos rfl, if_neg Bool.false_ne_true]
    exact mapM_validatePath (accepted.targets vague)

theorem graphSignals_eq (accepted : Accepted targets graph) :
    graphSignals targets (some graph) = .ok (report targets graph) := by
  obtain ⟨counts, folded, listed, inbound, outbound⟩ := foldlM_countEdge accepted.edges
    ⟨zeroCounts graph.paths, zeroCounts graph.paths, []⟩
  have zero (node : PyStr) : ((zeroCounts graph.paths).get? node).getD 0 = 0 := getD_zeroCounts _
  have inbound (node : PyStr) : (counts.inbound.get? node).getD 0 = graph.inDegree node := by
    rw [inbound, zero, Nat.zero_add]
    rfl
  have outbound (node : PyStr) : (counts.outbound.get? node).getD 0 = graph.outDegree node := by
    rw [outbound, zero, Nat.zero_add]
    rfl
  have listed : counts.canonicalEdges = graph.arrows := listed
  have limits : (MAX_GRAPH_NODES < graph.nodes.length || MAX_GRAPH_EDGES < graph.edges.length) =
      false := by
    have := accepted.nodeCount
    have := accepted.edgeCount
    rw [Bool.or_eq_false_iff, decide_eq_false_iff_not, decide_eq_false_iff_not]
    omega
  unfold graphSignals
  dsimp only
  rw [limits, if_neg Bool.false_ne_true]
  refine bind_ok.2 ⟨graph.paths, mapM_validatePath accepted.nodes, ?_⟩
  refine bind_ok.2 ⟨counts, folded, ?_⟩
  refine bind_ok.2 ⟨graph.focus targets, focusPaths_eq accepted, ?_⟩
  unfold report focusSignals
  simp only [inbound, outbound, listed]
  split <;> rfl

theorem accepted_of_graphSignals {r : GraphSignals}
    (h : graphSignals targets (some graph) = .ok r) :
    Accepted targets graph := by
  have each {values paths : List PyStr} (h : values.mapM validatePath = .ok paths) :
      ∀ value ∈ values, ValidPath value := by
    intro value mem
    obtain ⟨path, valid⟩ := Except.exists_mapM_eq_ok_iff.1 ⟨paths, h⟩ value mem
    exact (validatePath_eq_ok_iff.1 valid).1
  unfold graphSignals at h
  dsimp only at h
  split at h
  · cases h
  · next limits =>
    rw [Bool.or_eq_true, decide_eq_true_eq, decide_eq_true_eq, not_or] at limits
    obtain ⟨paths, nodes, h⟩ := bind_ok.1 h
    obtain ⟨counts, folded, h⟩ := bind_ok.1 h
    obtain ⟨focus, focused, -⟩ := bind_ok.1 h
    refine ⟨Nat.le_of_not_lt limits.1, Nat.le_of_not_lt limits.2, each nodes,
      validPath_of_foldlM folded,
      fun vague target mem => ?_⟩
    have some : targets ≠ [] := List.ne_nil_of_mem mem
    unfold focusPaths at focused
    rw [vague, decide_eq_true some, Bool.not_false, Bool.true_and, if_pos rfl] at focused
    exact each focused target mem

/-! ## Largest counts -/

variable {l : List ℕ} {n : ℕ} {focus focus' : List PyStr} {count count' : PyStr → ℕ}

theorem largest_le_iff : largest l ≤ n ↔ ∀ m ∈ l, m ≤ n := by
  induction l with
  | nil => exact iff_of_true (Nat.zero_le n) fun m mem => absurd mem List.not_mem_nil
  | cons m l ih => rw [largest, List.foldr_cons, Nat.max_le, List.forall_mem_cons, ← ih, largest]

theorem le_largest (mem : n ∈ l) : n ≤ largest l := largest_le_iff.1 le_rfl n mem

theorem largest_mem (nonempty : l ≠ []) : largest l ∈ l := by
  induction l with
  | nil => exact absurd rfl nonempty
  | cons m l ih =>
    rw [largest, List.foldr_cons, ← largest]
    rcases Nat.le_total (largest l) m with small | large
    · rw [Nat.max_eq_left small]
      exact List.mem_cons_self
    · rw [Nat.max_eq_right large]
      by_cases empty : l = []
      · subst empty
        rw [Nat.le_zero.1 large]
        exact List.mem_cons_self
      · exact List.mem_cons_of_mem _ (ih empty)

/-- Every node has at most the count of some node in the other focus. -/
def Covers (focus focus' : List PyStr) (count count' : PyStr → ℕ) : Prop :=
  ∀ node ∈ focus, ∃ node' ∈ focus', count node ≤ count' node'

theorem largest_le_largest_iff (nonempty : focus' ≠ []) :
    largest (focus.map count) ≤ largest (focus'.map count') ↔ Covers focus focus' count count' := by
  rw [largest_le_iff, List.forall_mem_map]
  refine forall₂_congr fun node _ => ⟨fun h => ?_, fun ⟨node', mem, h⟩ => ?_⟩
  · obtain ⟨node', mem, same⟩ :=
        List.mem_map.1 (largest_mem (l := focus'.map count') (by simpa using nonempty))
    exact ⟨node', mem, same ▸ h⟩
  · exact h.trans (le_largest (List.mem_map_of_mem mem))

/-! ## Parts of a graph -/

theorem subperm_map {α β : Type*} (f : α → β) {as bs : List α} (h : as.Subperm bs) :
    (as.map f).Subperm (bs.map f) := by
  obtain ⟨cs, perm, sublist⟩ := h
  exact ⟨cs.map f, perm.map f, sublist.map f⟩

namespace Graph.Within

theorem arrows (within : part.Within graph) : part.arrows.Subperm graph.arrows :=
    subperm_map _ within.edges

theorem inDegree_le (within : part.Within graph) (node : PyStr) :
    part.inDegree node ≤ graph.inDegree node :=
  within.arrows.countP_le _

theorem outDegree_le (within : part.Within graph) (node : PyStr) :
    part.outDegree node ≤ graph.outDegree node :=
  within.arrows.countP_le _

theorem degree_le (within : part.Within graph) (node : PyStr) :
    part.degree node ≤ graph.degree node :=
  Nat.add_le_add (within.inDegree_le node) (within.outDegree_le node)

theorem focus_subset (within : part.Within graph) : part.focus targets ⊆ graph.focus targets := by
  unfold Graph.focus
  split
  · exact (subperm_map pathOf within.nodes).subset
  · exact List.Subset.refl _

theorem accepted (within : part.Within graph) (h : Accepted targets graph) :
    Accepted targets part where
  nodeCount := within.nodes.length_le.trans h.nodeCount
  edgeCount := within.edges.length_le.trans h.edgeCount
  nodes node mem := h.nodes node (within.nodes.subset mem)
  edges edge mem := h.edges edge (within.edges.subset mem)
  targets := h.targets

end Graph.Within

theorem within_of_perm {nodes : List PyStr} {edges : List (PyStr × PyStr)}
    (hn : nodes.Perm graph.nodes)
    (he : edges.Perm graph.edges) :
    Graph.Within { graph with nodes := nodes, edges := edges } graph :=
  ⟨hn.subperm, he.subperm⟩

/-! ## Digested texts -/

def edgeText (e : PyStr × PyStr) : PyStr := Json.dumps true (edgeJson e)

theorem graphText_eq_iff {nodes : List PyStr} {edges edges' : List (PyStr × PyStr)} :
    graphText nodes edges = graphText nodes edges' ↔ edges.map edgeText = edges'.map edgeText := by
  obtain ⟨front, behind, around⟩ :=
      Json.dumps_around true "edges" [("nodes", .arr (nodes.map .str))] []
  have written (edges : List (PyStr × PyStr)) :
      Json.sortKeys (.arr (edges.map edgeJson)) = .arr (edges.map edgeJson) := by
    rw [Json.sortKeys, Json.sortItems_eq_map, List.map_map]
    rfl
  have texts (edges : List (PyStr × PyStr)) :
      (edges.map edgeJson).map (Json.write true) = edges.map edgeText := by
    rw [List.map_map]
    rfl
  have text (edges : List (PyStr × PyStr)) :
      graphText nodes edges = front ++ (Json.write true (.arr (edges.map edgeJson)) ++ behind) := by
    rw [← written, ← around]
    rfl
  rw [text, text, List.append_cancel_left_eq, List.append_cancel_right_eq, ← texts, ← texts]
  exact ⟨Json.map_write_of_write_arr_eq, Json.write_arr_of_map_write_eq⟩

theorem sortedNodes_perm {nodes nodes' : List PyStr} (h : nodes.Perm nodes') :
    sortedNodes nodes = sortedNodes nodes' :=
  ((List.perm_insertionSort _ _).trans (h.trans (List.perm_insertionSort _ _).symm)).eq_of_pairwise'
    (List.pairwise_insertionSort _ _) (List.pairwise_insertionSort _ _)

theorem sortedEdges_perm {edges edges' : List (PyStr × PyStr)} (h : edges.Perm edges') :
    sortedEdges edges = sortedEdges edges' := by
  have sorted : (edges.map toLex).insertionSort (· ≤ ·) = (edges'.map toLex).insertionSort
      (· ≤ ·) :=
    ((List.perm_insertionSort _ _).trans
    ((h.map toLex).trans (List.perm_insertionSort _ _).symm)).eq_of_pairwise'
      (List.pairwise_insertionSort _ _) (List.pairwise_insertionSort _ _)
  rw [sortedEdges, sortedEdges, sorted]

/-! ## Sound signals -/

/-- The interval of a signal, if it has one, holds the value of the other signal, if it has one. -/
def Contains (interval signal : Signal) : Prop :=
  ∀ lower upper value, interval.lowerBound = some lower → interval.upperBound = some upper →
    signal.value = some value → lower ≤ value ∧ value ≤ upper

/-- The intervals on a part of the graph hold the values on the graph, a target that does not occur
makes the signals unknown, and the digest does not depend on the order of the nodes and edges. -/
structure Sound (targets : List PyStr) (graph part : Graph) : Prop where
  bounds : ∀ r r', graphSignals targets (some graph) = .ok r →
    graphSignals targets (some part) = .ok r' →
    Contains r'.fanIn r.fanIn ∧ Contains r'.fanOut r.fanOut ∧ Contains r'.hub r.hub
  absent : ∀ r, graphSignals targets (some graph) = .ok r → vagueTargets targets = false →
    (∃ target ∈ targets, ¬ graph.Occurs (pathOf target)) →
      r.fanIn.kind = .unknown ∧ r.fanOut.kind = .unknown ∧ r.hub.kind = .unknown
  digest : ∀ nodes edges r r', nodes.Perm graph.nodes → edges.Perm graph.edges →
    graphSignals targets (some graph) = .ok r →
      graphSignals targets (some { graph with nodes := nodes, edges := edges }) = .ok r' →
        r'.digest = r.digest

/-- The part covers the counts of the graph in focus, the targets occur, and the edges of a graph
without nodes in focus have one text. -/
structure Faithful (targets : List PyStr) (graph part : Graph) : Prop where
  covered : part.focus targets ≠ [] →
    Covers (graph.focus targets) (part.focus targets) graph.inDegree part.inDegree ∧
      Covers (graph.focus targets) (part.focus targets) graph.outDegree part.outDegree ∧
      Covers (graph.focus targets) (part.focus targets) graph.degree part.degree
  occurs : vagueTargets targets = false → ∀ target ∈ targets, graph.Occurs (pathOf target)
  ordered : graph.focus targets = [] → ∀ e ∈ graph.arrows, ∀ e' ∈ graph.arrows,
    edgeText e = edgeText e'

/-- The digest of the edges of a graph without nodes in focus tells their orders apart. -/
def DigestTells (targets : List PyStr) (graph : Graph) : Prop :=
  graph.focus targets = [] → ∀ edges, edges.Perm graph.edges →
    digestOf (graphText [] { graph with edges := edges }.arrows) =
      digestOf (graphText [] graph.arrows) →
      graphText [] { graph with edges := edges }.arrows = graphText [] graph.arrows

variable {name : PyStr} {kind kind' : Kind}

theorem contains_measured_iff {value value' : ℕ} (small : value' ≤ value) :
    Contains (measured name value' "graph" kind' none none)
      (measured name value "graph" kind none none) ↔
      value ≤ value' := by
  constructor
  · intro h
    exact (h _ _ _ rfl rfl rfl).2
  · rintro large _ _ _ ⟨⟩ ⟨⟩ ⟨⟩
    exact ⟨small, large⟩

theorem contains_unknown {signal : Signal} {reason : PyStr} :
    Contains (unknown name reason "graph") signal :=
  fun _ _ _ h => nomatch h

theorem contains_largest_iff (nonempty : focus' ≠ []) (subset : focus' ⊆ focus)
    (le : ∀ node, count' node ≤ count node) :
    Contains (measured name (largest (focus'.map count')) "graph" kind' none none)
        (measured name (largest (focus.map count)) "graph" kind none none) ↔
        Covers focus focus' count count' := by
  have some : focus ≠ [] := by
    rintro rfl
    exact nonempty (List.subset_nil.1 subset)
  rw [contains_measured_iff ((largest_le_largest_iff some).2 fun node mem =>
    ⟨node, subset mem, le node⟩),
    largest_le_largest_iff nonempty]

theorem forall_ok_iff {P : GraphSignals → GraphSignals → Prop} {a b : GraphSignals} :
    (∀ r r', (.ok a : Except Raised GraphSignals) = .ok r → (.ok b : Except Raised GraphSignals) =
    .ok r' → P r r') ↔
      P a b := by
  refine ⟨fun h => h a b rfl rfl, fun h r r' same same' => ?_⟩
  rw [← Except.ok.inj same, ← Except.ok.inj same']
  exact h

theorem bounds_iff (accepted : Accepted targets graph) (within : part.Within graph) :
    (∀ r r', graphSignals targets (some graph) = .ok r → graphSignals targets (some part) = .ok r' →
      Contains r'.fanIn r.fanIn ∧ Contains r'.fanOut r.fanOut ∧ Contains r'.hub r.hub) ↔
    (part.focus targets ≠ [] →
      Covers (graph.focus targets) (part.focus targets) graph.inDegree part.inDegree ∧
        Covers (graph.focus targets) (part.focus targets) graph.outDegree part.outDegree ∧
        Covers (graph.focus targets) (part.focus targets) graph.degree part.degree) := by
  have subset : part.focus targets ⊆ graph.focus targets := within.focus_subset
  rw [graphSignals_eq accepted, graphSignals_eq (within.accepted accepted), forall_ok_iff]
  by_cases empty : part.focus targets = []
  · refine iff_of_true ?_ fun some => absurd empty some
    rw [report, report, if_pos empty]
    exact ⟨contains_unknown, contains_unknown, contains_unknown⟩
  · have some : graph.focus targets ≠ [] := by
      intro none
      exact empty (List.subset_nil.1 (none ▸ subset))
    rw [report, report, if_neg empty, if_neg some, forall_prop_of_true empty]
    exact and_congr (contains_largest_iff empty subset within.inDegree_le)
      (and_congr (contains_largest_iff empty subset within.outDegree_le)
        (contains_largest_iff empty subset within.degree_le))

theorem absent_iff (accepted : Accepted targets graph) :
    (∀ r, graphSignals targets (some graph) = .ok r → vagueTargets targets = false →
      (∃ target ∈ targets, ¬ graph.Occurs (pathOf target)) →
        r.fanIn.kind = .unknown ∧ r.fanOut.kind = .unknown ∧ r.hub.kind = .unknown) ↔
    (vagueTargets targets = false → ∀ target ∈ targets, graph.Occurs (pathOf target)) := by
  rw [graphSignals_eq accepted]
  constructor
  · intro h vague target mem
    by_contra absent
    have kinds := (h _ rfl vague ⟨target, mem, absent⟩).1
    have some : graph.focus targets ≠ [] := by
      unfold Graph.focus
      rw [vague, if_neg Bool.false_ne_true]
      exact List.ne_nil_of_mem (List.mem_map_of_mem mem)
    rw [report, if_neg some] at kinds
    cases truncated : graph.truncated with
    | true =>
      rw [truncated] at kinds
      cases kinds
    | false =>
      rw [truncated] at kinds
      cases kinds
  · rintro h _ _ vague ⟨target, mem, absent⟩
    exact absurd (h vague target mem) absent

theorem digest_of_focus_eq_nil (empty : graph.focus targets = []) :
    (report targets graph).digest = some (digestOf (graphText graph.paths graph.arrows)) := by
  rw [report, if_pos empty]

theorem digest_of_focus_ne_nil (some : graph.focus targets ≠ []) :
    (report targets graph).digest =
      .some (digestOf (graphText (sortedNodes graph.paths) (sortedEdges graph.arrows))) := by
  rw [report, if_neg some]

theorem nodes_eq_nil (empty : graph.focus targets = []) : graph.nodes = [] := by
  unfold Graph.focus at empty
  split at empty
  · exact List.map_eq_nil_iff.1 empty
  · next vague =>
    rw [List.map_eq_nil_iff.1 empty] at vague
    exact absurd rfl vague

theorem map_eq_map_of_perm {α β : Type*} {f : α → β} {as bs : List α} (perm : bs.Perm as)
    (same : ∀ a ∈ as, ∀ a' ∈ as, f a = f a') : bs.map f = as.map f := by
  cases as with
  | nil => rw [List.perm_nil.1 perm]
  | cons a as =>
    have constant : (a :: as).map f = List.replicate (a :: as).length (f a) := by
      refine List.eq_replicate_iff.2 ⟨List.length_map _, fun b mem => ?_⟩
      obtain ⟨a', mem', rfl⟩ := List.mem_map.1 mem
      exact same a' mem' a List.mem_cons_self
    rw [constant]
    exact List.perm_replicate.1 (constant ▸ perm.map f)

theorem digest_iff (accepted : Accepted targets graph) (tells : DigestTells targets graph) :
    (∀ nodes edges r r', nodes.Perm graph.nodes → edges.Perm graph.edges →
      graphSignals targets (some graph) = .ok r →
        graphSignals targets (some { graph with nodes := nodes, edges := edges }) = .ok r' →
          r'.digest = r.digest) ↔
    (graph.focus targets = [] → ∀ e ∈ graph.arrows, ∀ e' ∈ graph.arrows,
    edgeText e = edgeText e') := by
  constructor
  · intro h empty
    have none : graph.paths = [] := by rw [Graph.paths, nodes_eq_nil empty, List.map_nil]
    have first (edge : PyStr × PyStr) (mem : edge ∈ graph.edges) :
        some (edgeText (pathOf edge.1, pathOf edge.2)) = (graph.arrows.map edgeText).head? := by
      have perm : (edge :: graph.edges.erase edge).Perm graph.edges :=
          (List.perm_cons_erase mem).symm
      have within := within_of_perm (List.Perm.refl graph.nodes) perm
      have same := h graph.nodes (edge :: graph.edges.erase edge) _ _ (List.Perm.refl _) perm
        (graphSignals_eq accepted) (graphSignals_eq (within.accepted accepted))
      rw [digest_of_focus_eq_nil empty, digest_of_focus_eq_nil (by exact empty), none] at same
      have texts :=
          graphText_eq_iff.1 (tells empty _ perm (by rw [← Option.some.inj same, ← none]; rfl))
      rw [← texts]
      rfl
    intro e mem e' mem'
    obtain ⟨edge, inside, rfl⟩ := List.mem_map.1 mem
    obtain ⟨edge', inside', rfl⟩ := List.mem_map.1 mem'
    exact Option.some.inj ((first edge inside).trans (first edge' inside').symm)
  · intro h nodes edges r r' hn he
    have within := within_of_perm hn he
    rw [graphSignals_eq accepted, graphSignals_eq (within.accepted accepted)]
    rintro ⟨⟩ ⟨⟩
    have arrows :
        ({ graph with nodes := nodes, edges := edges } : Graph).arrows.Perm graph.arrows := he.map _
    by_cases empty : graph.focus targets = []
    · have empty' : ({ graph with nodes := nodes, edges := edges } : Graph).focus targets = [] :=
        List.subset_nil.1 (empty ▸ within.focus_subset)
      rw [digest_of_focus_eq_nil empty, digest_of_focus_eq_nil empty']
      have same : nodes = graph.nodes := by
        rw [nodes_eq_nil empty] at hn ⊢
        exact List.perm_nil.1 hn
      subst same
      exact congrArg (fun text => some (digestOf text))
        (graphText_eq_iff.2 (map_eq_map_of_perm arrows (h empty)))
    · have empty' : ({ graph with nodes := nodes, edges := edges } : Graph).focus targets ≠ [] := by
        intro none
        have back : Graph.Within graph { graph with nodes := nodes, edges := edges } :=
            ⟨hn.symm.subperm, he.symm.subperm⟩
        exact empty (List.subset_nil.1 (none ▸ back.focus_subset))
      have paths : ({ graph with nodes := nodes, edges := edges } : Graph).paths.Perm graph.paths :=
          hn.map _
      rw [digest_of_focus_ne_nil empty, digest_of_focus_ne_nil empty', sortedNodes_perm paths,
        sortedEdges_perm arrows]

/-- The signals on a graph that is read, and on a part of it, are sound exactly when the part covers
the counts of the graph, every target occurs, and the edges of a graph without nodes in focus have
one text. -/
theorem signals_sound_iff (read : ∃ r, graphSignals targets (some graph) = .ok r)
    (within : part.Within graph)
    (tells : DigestTells targets graph) : Sound targets graph part ↔
    Faithful targets graph part := by
  obtain ⟨r, read⟩ := read
  have accepted := accepted_of_graphSignals read
  constructor
  · intro h
    exact ⟨(bounds_iff accepted within).1 h.bounds, (absent_iff accepted).1 h.absent,
      (digest_iff accepted tells).1 h.digest⟩
  · intro h
    exact ⟨(bounds_iff accepted within).2 h.covered, (absent_iff accepted).2 h.occurs,
      (digest_iff accepted tells).2 h.ordered⟩

def importGraph : Graph := { nodes := ["a.py", "b.py"], edges := [("b.py", "a.py")] }

def cutGraph : Graph := { nodes := ["a.py", "b.py"], edges := [], truncated := true }

/-- The graph without the other file, cut behind its edge. -/
def edgeGraph : Graph := { nodes := ["a.py"], edges := [("b.py", "a.py")], truncated := true }

theorem accepted_importGraph : Accepted ["a.py"] importGraph := by
  refine ⟨by decide, by decide, by decide, by decide, fun _ => by decide⟩

theorem digestTells_importGraph : DigestTells ["a.py"] importGraph := by
  intro empty
  exact absurd empty (by decide)

/-- The part with the edge has sound signals. -/
theorem sound_edgeGraph : Sound ["a.py"] importGraph edgeGraph := by
  have within : edgeGraph.Within importGraph :=
    ⟨(List.sublist_append_left (["a.py"] : List PyStr) ["b.py"]).subperm,
      (List.Sublist.refl _).subperm⟩
  refine (signals_sound_iff ⟨_, graphSignals_eq accepted_importGraph⟩ within digestTells_importGraph).2
    ⟨fun _ => ?_, ?_, ?_⟩
  · unfold Covers
    decide
  · intro _ target mem
    rw [List.mem_singleton.1 mem]
    exact .inl (by decide)
  · intro empty
    exact absurd empty (by decide)

/-- The part without the edge has the interval from 0 to 0 for a value of 1, and a target that is in
no graph has a measured 0. -/
theorem not_sound_cutGraph :
    (cutGraph.Within importGraph ∧ ¬ Sound ["a.py"] importGraph cutGraph) ∧
      ¬ Sound ["c.py"] importGraph cutGraph := by
  have within : cutGraph.Within importGraph :=
    ⟨(List.Sublist.refl _).subperm, (List.nil_sublist _).subperm⟩
  refine ⟨⟨within, fun h => ?_⟩, fun h => ?_⟩
  · have covered := (bounds_iff accepted_importGraph within).1 h.bounds (by decide)
    obtain ⟨node, mem, le⟩ := covered.1 "a.py" (by decide)
    rw [List.mem_singleton.1 mem] at le
    exact absurd le (by decide)
  · have accepted : Accepted ["c.py"] importGraph := by
      refine ⟨by decide, by decide, by decide, by decide, fun _ => by decide⟩
    have kinds := h.absent _ (graphSignals_eq accepted) (by decide)
      ⟨"c.py", List.mem_singleton_self _, by unfold Graph.Occurs; decide⟩
    exact absurd kinds.1 (by decide)

end RouteSignals

end SimplicioFast
