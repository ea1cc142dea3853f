import SimplicioFast.Federation.Graph
import SimplicioFast.Lib.Bfs
import SimplicioFast.Lib.Machine

/-!
# Traversal of a federation

`Federation.traverse` is a breadth-first search with budgets for the depth, the nodes, the edges and the bytes of its
result.  Its queue, its visited nodes and its paths are those of the search of `Bfs`, so a traversal that reports to be
complete has found exactly what can be reached (`traverse_exact`).
-/

namespace SimplicioFast

namespace Federated

/-- The budgets of a traversal. -/
structure TraversalLimits where
  maxDepth : ℤ := 8
  maxNodes : ℤ := 1000
  maxEdges : ℤ := MAX_EDGES
  maxBytes : ℤ := MAX_BYTES

/-- The local variables of the loop. -/
structure TraversalState where
  queue : List (PyStr × ℕ)
  visited : List PyStr
  paths : Dict PyStr (List PyStr)
  edges : List Json
  usedBytes : ℕ
  truncationReasons : List PyStr

/-- What `traverse` returns. -/
structure Traversal where
  startHandle : PyStr
  nodes : List PyStr
  edges : List Json
  paths : Dict PyStr (List PyStr)
  complete : Bool
  truncationReasons : List PyStr

/-- The JSON value of what `traverse` returns. -/
def Traversal.toJson (t : Traversal) : Json :=
  .obj [("start_handle", .str t.startHandle), ("nodes", .arr (t.nodes.map .str)), ("edges", .arr t.edges),
    ("paths", .obj (t.paths.entries.map fun f => (f.1, .arr (f.2.map .str)))), ("complete", .bool t.complete),
    ("truncation_reasons", .arr (t.truncationReasons.map .str))]

namespace Federation

variable (f : Federation) (limits : TraversalLimits)

def edgeTurn (current : PyStr) (depth : ℕ) (st : TraversalState) (edge : FederatedEdge) :
    Except Raised TraversalState := do
  check (st.edges.length < limits.maxEdges) "edge_budget_exceeded"
  let record ← canonical edge.toDict
  check (st.usedBytes + record.length ≤ limits.maxBytes) "result_size_limit"
  let st := { st with edges := st.edges ++ [edge.toDict], usedBytes := st.usedBytes + record.length }
  if depth < limits.maxDepth ∧ edge.targetHandle ∉ st.visited ∧ (st.paths.get? edge.targetHandle).isNone then
    return { st with
      paths := st.paths.set edge.targetHandle ((st.paths.get? current).getD [] ++ [edge.targetHandle])
      queue := st.queue ++ [(edge.targetHandle, depth + 1)] }
  else return st

/-- The body of the outer loop, for the first entry of the queue and the rest of it. -/
def turn (current : PyStr) (depth : ℕ) (rest : List (PyStr × ℕ)) (st : TraversalState) :
    Except Raised TraversalState :=
  let st := { st with queue := rest }
  if current ∈ st.visited then .ok st
  else if limits.maxDepth < depth then
    .ok { st with truncationReasons := st.truncationReasons ++ [("max_depth" : PyStr)] }
  else
    let reasons : List PyStr := if depth = limits.maxDepth ∧ f.outgoing current ≠ [] then ["max_depth"] else []
    let st := { st with visited := st.visited ++ [current], truncationReasons := st.truncationReasons ++ reasons }
    (f.outgoing current).foldlM (edgeTurn limits current depth) st

/-- The outer loop; a turn that is made visits a node, so there are at most `max_nodes` of them. -/
def loop : ℕ → TraversalState → Except Raised TraversalState
  | 0, st => .ok st
  | fuel + 1, st => match st.queue with
    | [] => .ok st
    | (current, depth) :: rest =>
      if st.visited.length < limits.maxNodes then do
        let st ← f.turn limits current depth rest st
        loop fuel st
      else .ok st

def start (startHandle : PyStr) : TraversalState :=
  ⟨[(startHandle, 0)], [], Dict.empty.set startHandle [startHandle], [], 0, []⟩

def resultOf (startHandle : PyStr) (st : TraversalState) : Traversal :=
  let reasons := st.truncationReasons ++ if st.queue ≠ [] then [("max_nodes" : PyStr)] else []
  { startHandle := startHandle
    nodes := PyStr.sortedSet st.visited
    edges := st.edges
    paths := st.paths
    complete := st.queue = [] && reasons = []
    truncationReasons := PyStr.sortedSet reasons }

def traverse (startHandle : PyStr) : Except Raised Traversal := do
  handle startHandle "source_handle_invalid"
  budget limits.maxDepth "traversal_budget_invalid" 0 MAX_EDGES
  budget limits.maxNodes "traversal_budget_invalid" 1 MAX_EDGES
  budget limits.maxEdges "edge_budget_invalid" 0 MAX_EDGES
  budget limits.maxBytes "byte_budget_invalid" 0 MAX_BYTES
  let st ← f.loop limits limits.maxNodes.toNat (start startHandle)
  let record ← canonical (resultOf startHandle st).toJson
  check (record.length ≤ limits.maxBytes) "result_size_limit"
  return resultOf startHandle st

/-! ## The search -/

/-- The targets of the edges of a node. -/
def targets (source : PyStr) : List PyStr := (f.outgoing source).map fun e => e.targetHandle

end Federation

/-- The state of the search in a traversal. -/
def TraversalState.search (st : TraversalState) : Bfs.State PyStr :=
  ⟨st.queue, st.visited, st.paths, st.truncationReasons ≠ []⟩

namespace Federation

variable {f : Federation} {limits : TraversalLimits} {st st' : TraversalState} {current startHandle : PyStr} {depth : ℕ}
  {rest : List (PyStr × ℕ)} {edge : FederatedEdge}

/-- The nodes that were visited have paths. -/
def Known (st : TraversalState) : Prop := ∀ v ∈ st.visited, (st.paths.get? v).isSome

theorem search_edgeTurn (known : Known st) (turn : edgeTurn limits current depth st edge = .ok st') :
    st'.search = (if (depth : ℤ) < limits.maxDepth then Bfs.discover current depth st.search edge.targetHandle
      else st.search) ∧ Known st' := by
  obtain ⟨⟨⟩, -, turn⟩ := bind_ok.1 turn
  obtain ⟨record, -, turn⟩ := bind_ok.1 turn
  obtain ⟨⟨⟩, -, turn⟩ := bind_ok.1 turn
  dsimp only at turn
  split at turn
  · rename_i new
    obtain ⟨within, -, fresh⟩ := new
    cases turn
    have fresh : ¬ (st.search.paths.get? edge.targetHandle).isSome := by
      rw [show st.search.paths.get? edge.targetHandle = none from Option.isNone_iff_eq_none.1 fresh]
      exact Bool.false_ne_true
    rw [if_pos within, Bfs.discover, if_neg fresh]
    refine ⟨rfl, fun v mem => ?_⟩
    rw [Dict.get?_set]
    split
    · rfl
    · exact known v mem
  · rename_i old
    cases turn
    refine ⟨?_, known⟩
    split
    · rename_i within
      rw [Bfs.discover, if_pos]
      · rfl
      · by_contra none
        refine old ⟨within, fun mem => none (known _ mem), ?_⟩
        rw [Option.isNone_iff_eq_none]
        exact Option.not_isSome_iff_eq_none.1 none
    · rfl

theorem search_foldlM_edgeTurn {edges : List FederatedEdge} (known : Known st)
    (ran : edges.foldlM (edgeTurn limits current depth) st = .ok st') :
    st'.search = if (depth : ℤ) < limits.maxDepth then
      (edges.map fun e => e.targetHandle).foldl (Bfs.discover current depth) st.search else st.search := by
  induction edges generalizing st with
  | nil =>
    cases ran
    rw [List.map_nil, List.foldl_nil, ite_self]
  | cons edge edges ih =>
    obtain ⟨next, turn, ran⟩ := bind_ok.1 ran
    obtain ⟨same, known⟩ := search_edgeTurn known turn
    rw [ih known ran, same]
    split <;> rfl

theorem search_turn (known : Known st) (queue : st.queue = (current, depth) :: rest) (unvisited : current ∉ st.visited)
    (has : (st.paths.get? current).isSome) (within : (depth : ℤ) ≤ limits.maxDepth)
    (turn : f.turn limits current depth rest st = .ok st') :
    st'.search = Bfs.step limits.maxDepth.toNat f.targets st.search := by
  unfold Federation.turn at turn
  dsimp only at turn
  rw [if_neg unvisited, if_neg (not_lt.2 within)] at turn
  have known' : ∀ v ∈ st.visited ++ [current], (st.paths.get? v).isSome := by
    intro v mem
    rcases List.mem_append.1 mem with mem | mem
    · exact known v mem
    · cases List.mem_singleton.1 mem
      exact has
  generalize reasons : (if (depth : ℤ) = limits.maxDepth ∧ f.outgoing current ≠ [] then [("max_depth" : PyStr)]
    else []) = extra at turn
  have same := search_foldlM_edgeTurn (by exact known') turn
  unfold Bfs.step
  rw [show st.search.queue = (current, depth) :: rest from queue]
  dsimp only
  by_cases less : (depth : ℤ) < limits.maxDepth
  · have none : [] = extra := by rw [← reasons, if_neg fun both => less.ne both.1]
    subst none
    rw [List.append_nil, if_pos less] at same
    have less' : depth < limits.maxDepth.toNat := by omega
    rw [same, if_pos less']
    rfl
  · have last : (depth : ℤ) = limits.maxDepth := le_antisymm within (not_lt.1 less)
    have least : ¬ depth < limits.maxDepth.toNat := by omega
    rw [if_neg less] at same
    rw [same, if_neg least]
    have cut : decide (st.truncationReasons ++ extra ≠ []) =
        (decide (st.truncationReasons ≠ []) || decide (f.targets current ≠ [])) := by
      rw [← reasons, ← Bool.decide_or]
      refine decide_eq_decide.2 ?_
      unfold targets
      by_cases none : f.outgoing current = []
      · simp [none]
      · simp [none, last]
    unfold TraversalState.search
    rw [cut]

/-! ## The loop -/

/-- What every turn of the loop keeps. -/
structure Searching (f : Federation) (limits : TraversalLimits) (startHandle : PyStr) (st : TraversalState) : Prop where
  explored : ∃ n, Bfs.Explored f.targets startHandle n (· ∈ st.search.visited) st.search
  within : ∀ a ∈ st.queue, a.2 ≤ limits.maxDepth.toNat

theorem searching_start : Searching f limits startHandle (start startHandle) :=
  ⟨⟨0, Bfs.explored_init f.targets startHandle⟩, fun a mem => by
    cases List.mem_singleton.1 mem
    exact Nat.zero_le _⟩

theorem searching_turn (h : Searching f limits startHandle st) (deep : 0 ≤ limits.maxDepth)
    (queue : st.queue = (current, depth) :: rest) (turn : f.turn limits current depth rest st = .ok st') :
    Searching f limits startHandle st' ∧ st'.visited = st.visited ++ [current] := by
  obtain ⟨⟨n, explored⟩, within⟩ := h
  have waits : (current, depth) ∈ st.queue := queue ▸ List.mem_cons_self
  have known : Known st := fun v mem => (explored.found v).2 (.inl mem)
  have has : (st.paths.get? current).isSome := (explored.found current).2 (.inr (List.mem_map_of_mem waits))
  have unvisited : current ∉ st.visited := fun mem =>
    (List.nodup_append.1 explored.nodup).2.2 current mem current (List.mem_map_of_mem waits) rfl
  have low : (depth : ℤ) ≤ limits.maxDepth := by
    have := within _ waits
    omega
  have same := search_turn known queue unvisited has low turn
  refine ⟨⟨?_, ?_⟩, ?_⟩
  · obtain ⟨m, next⟩ := explored.step limits.maxDepth.toNat
    rw [← same] at next
    exact ⟨m, next⟩
  · have next := Bfs.depth_step_le f.targets (show ∀ a ∈ st.search.queue, a.2 ≤ limits.maxDepth.toNat from within)
    rw [← same] at next
    exact next
  · have next := Bfs.visited_step limits.maxDepth.toNat f.targets (show st.search.queue = (current, depth) :: rest from queue)
    rw [← same] at next
    exact next

theorem searching_loop {fuel : ℕ} (h : Searching f limits startHandle st) (deep : 0 ≤ limits.maxDepth)
    (enough : limits.maxNodes ≤ fuel + st.visited.length) (ran : f.loop limits fuel st = .ok st') :
    Searching f limits startHandle st' ∧ (st'.queue = [] ∨ limits.maxNodes ≤ st'.visited.length) := by
  induction fuel generalizing st with
  | zero =>
    cases ran
    exact ⟨h, .inr (by omega)⟩
  | succ fuel ih =>
    rw [loop] at ran
    split at ran
    · rename_i empty
      cases ran
      exact ⟨h, .inl empty⟩
    · rename_i current depth rest queue
      split at ran
      · obtain ⟨next, turn, ran⟩ := bind_ok.1 ran
        obtain ⟨h, visited⟩ := searching_turn h deep queue turn
        refine ih h ?_ ran
        rw [visited, List.length_append, List.length_singleton]
        omega
      · rename_i full
        cases ran
        exact ⟨h, .inr (not_lt.1 full)⟩

/-- A traversal that reports to be complete has the nodes that can be reached, each with a path as short as any. -/
theorem traverse_exact {t : Traversal} (ran : f.traverse limits startHandle = .ok t) (complete : t.complete = true) :
    (∀ v, v ∈ t.nodes ↔ Bfs.Reachable f.targets startHandle v) ∧
      ∀ v ∈ t.nodes, ∃ p, t.paths.get? v = some p ∧ Bfs.IsShortest f.targets startHandle v p := by
  obtain ⟨⟨⟩, -, ran⟩ := bind_ok.1 ran
  obtain ⟨⟨⟩, deep, ran⟩ := bind_ok.1 ran
  obtain ⟨⟨⟩, -, ran⟩ := bind_ok.1 ran
  obtain ⟨⟨⟩, -, ran⟩ := bind_ok.1 ran
  obtain ⟨⟨⟩, -, ran⟩ := bind_ok.1 ran
  obtain ⟨st, looped, ran⟩ := bind_ok.1 ran
  obtain ⟨record, -, ran⟩ := bind_ok.1 ran
  obtain ⟨⟨⟩, -, ran⟩ := bind_ok.1 ran
  cases ran
  have deep : 0 ≤ limits.maxDepth := by
    unfold budget check at deep
    split at deep
    · rename_i bounds
      exact of_decide_eq_true (Bool.and_eq_true_iff.1 bounds).1
    · cases deep
  obtain ⟨⟨⟨n, explored⟩, -⟩, -⟩ := searching_loop (searching_start (f := f)) deep (by omega) looped
  obtain ⟨empty, reasons⟩ := Bool.and_eq_true_iff.1 complete
  have empty : st.queue = [] := of_decide_eq_true empty
  have uncut : st.search.cut = false := by
    have none := (List.append_eq_nil_iff.1 (of_decide_eq_true reasons)).1
    exact decide_eq_false (not_not.2 none)
  obtain ⟨reach, short⟩ := explored.exact empty uncut
  refine ⟨fun v => PyStr.mem_sortedSet.trans (reach v), fun v mem => short v (PyStr.mem_sortedSet.1 mem)⟩

def sample : Except Raised Federation := do
  let digest : PyStr := List.replicate 64 (.scalar 'a')
  let members ← [MemberFields.mk "a" "c" "g" "s" digest "*" false, .mk "b" "c" "g" "s" digest "*" false].mapM
    FederationMember.make
  let edges ← [EdgeFields.mk "a:x" "a:y" "call" (.int 1) [] false, .mk "a:x" "b:z" "call" (.int 1) [] false,
    .mk "a:y" "a:x" "call" (.int 1) [] false].mapM FederatedEdge.make
  make PyStr.asciiCasefold members edges

/-- A complete traversal of the sample. -/
theorem traverse_exact_sample :
    ∃ f t, sample = .ok f ∧ f.traverse {} "a:x" = .ok t ∧ t.nodes = ["a:x", "a:y", "b:z"] ∧
      ∀ v ∈ t.nodes, ∃ p, t.paths.get? v = some p ∧ Bfs.IsShortest f.targets "a:x" v p := by
  have ran : (sample.toOption.map fun f =>
      (f.traverse {} "a:x").toOption.map fun t => (t.complete, t.nodes)) =
      some (some (true, (["a:x", "a:y", "b:z"] : List PyStr))) := by decide +kernel
  obtain ⟨f, made, ran⟩ := Except.exists_of_map_toOption ran
  obtain ⟨t, ran, same⟩ := Except.exists_of_map_toOption ran
  obtain ⟨complete, nodes⟩ := Prod.mk.inj same
  exact ⟨f, t, made, ran, nodes, (traverse_exact ran complete).2⟩

end Federation

end Federated

end SimplicioFast
