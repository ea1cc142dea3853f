import SimplicioFast.Federation.Identity
import SimplicioFast.Lib.Worklist

/-!
# The impact of a change in a federation

`SemanticDiff.impact_federated` follows the edges of a federation from the handles of the records of a diff.  It asks
`Federation.dependencies` for the edges of a node, which go from it to what it depends on, and never more than the first
1000 of them.  A result that is reported as complete has exactly the nodes that these edges lead to
(`mem_nodes_iff`); what depends on the change is among them only when it can be found that way (`impact_iff`).

Of a record of a diff only its handle and its kind are modelled.
-/

namespace SimplicioFast

namespace Federated

/-! ## Dependencies -/

/-- `_bounded_records`, for the bytes used so far. -/
def boundedRecords (maxBytes : ℤ) : ℕ → List FederatedEdge → Except Raised Unit
  | _, [] => .ok ()
  | used, edge :: rest => do
    let encoded ← canonical edge.toDict
    check (used + encoded.length ≤ maxBytes) "result_size_limit"
    boundedRecords maxBytes (used + encoded.length) rest

/-- `Federation.dependencies`: the edges whose dictionaries it returns. -/
def Federation.dependencies (f : Federation) (sourceHandle : PyStr) (maxEdges maxBytes : ℤ) :
    Except Raised (List FederatedEdge) := do
  handle sourceHandle "source_handle_invalid"
  budget maxEdges "edge_budget_invalid" 0 MAX_EDGES
  budget maxBytes "byte_budget_invalid" 0 MAX_BYTES
  let edges := (f.outgoing sourceHandle).take maxEdges.toNat
  boundedRecords maxBytes 0 edges
  let encoded ← canonical (.arr (edges.map FederatedEdge.toDict))
  check (encoded.length ≤ maxBytes) "result_size_limit"
  return edges

/-- The nodes that `dependencies` leads to from a node. -/
def Federation.shown (f : Federation) (source : PyStr) : List PyStr :=
  ((f.outgoing source).take 1000).map fun e => e.targetHandle

end Federated

namespace SemanticDiffs

open Federated

/-- The exceptions of `impact_federated`. -/
inductive Raised
  | semanticDiffError (reasonCode : PyStr)
  | federation (x : Federated.Raised)
deriving DecidableEq

def KINDS : List PyStr := ["add", "remove", "update"]

def MAX_IMPACT_NODES : ℕ := 100000

def MAX_IMPACT_EDGES : ℕ := 100000

def MAX_IMPACT_DEPTH : ℕ := 1024

def MAX_IMPACT_BYTES : ℕ := 8 * 1024 * 1024

/-- The handle and the kind of a `DiffRecord`. -/
structure DiffRecord where
  handle : PyStr
  kind : PyStr
  isFilled_handle : isFilled handle
  mem_kinds : kind ∈ KINDS

/-- The order of the records: by handle and kind. -/
def DiffRecord.le (r s : DiffRecord) : Bool := r.handle < s.handle || r.handle = s.handle && r.kind ≤ s.kind

structure SemanticDiff where
  records : List DiffRecord
  complete : Bool
  truncationReasons : List PyStr
  isFilled_reasons : ∀ reason ∈ truncationReasons, isFilled reason

/-- `SemanticDiff.__init__`, for arguments of the right types. -/
def SemanticDiff.make (records : List DiffRecord) (complete : Bool) (truncationReasons : List PyStr) :
    Except Raised SemanticDiff :=
  if filled : ∀ reason ∈ truncationReasons, isFilled reason then
    .ok ⟨records.insertionSort fun r s => r.le s = true, complete, truncationReasons, filled⟩
  else .error (.semanticDiffError "truncation_reasons_invalid")

def impactBudget (value : ℤ) (reason : PyStr) (minimum maximum : ℕ) : Except Raised Unit :=
  if minimum ≤ value ∧ value ≤ maximum then .ok () else .error (.semanticDiffError reason)

/-- The budgets of `impact_federated`. -/
structure ImpactLimits where
  maxNodes : ℤ := 1000
  maxDepth : ℤ := MAX_IMPACT_DEPTH
  maxEdges : ℤ := MAX_IMPACT_EDGES
  maxBytes : ℤ := MAX_IMPACT_BYTES

/-- The local variables of the loop. -/
structure ImpactState where
  queue : List (PyStr × ℕ)
  included : List PyStr
  reasons : Dict PyStr PyStr
  paths : Dict PyStr (List PyStr)
  truncationReasons : List PyStr
  traversedEdges : ℕ
  usedBytes : ℕ

/-- What `impact_federated` returns. -/
structure Impact where
  federationGeneration : PyStr
  nodes : List PyStr
  reasons : Dict PyStr PyStr
  paths : Dict PyStr (List PyStr)
  complete : Bool
  truncationReasons : List PyStr

/-- A call of the federation, whose exceptions are not caught. -/
def lift {α : Type} : Except Federated.Raised α → Except Raised α
  | .ok a => .ok a
  | .error x => .error (.federation x)

/-- `federation.dependencies(current)`. -/
def dependenciesOf (f : Federation) (current : PyStr) : Except Raised (List FederatedEdge) :=
  lift (f.dependencies current 1000 MAX_BYTES)

/-- The bytes that an edge takes of the budget. -/
def edgeBytes (source target : PyStr) : ℕ :=
  ((Json.obj [("source", .str source), ("target", .str target)]).dumps true).length

/-- The inner loop; it breaks when the budget for the edges or the bytes is spent. -/
def edgesLoop (limits : ImpactLimits) (current : PyStr) (depth : ℕ) : List FederatedEdge → ImpactState → ImpactState
  | [], st => st
  | edge :: rest, st =>
    let st := { st with traversedEdges := st.traversedEdges + 1 }
    if limits.maxEdges < st.traversedEdges then
      { st with truncationReasons := st.truncationReasons ++ [("max_edges" : PyStr)] }
    else
      let bytes := edgeBytes current edge.targetHandle
      if limits.maxBytes < st.usedBytes + bytes then
        { st with truncationReasons := st.truncationReasons ++ [("max_bytes" : PyStr)] }
      else
        let st := { st with usedBytes := st.usedBytes + bytes }
        edgesLoop limits current depth rest
          (if (st.paths.get? edge.targetHandle).isNone then { st with
            paths := st.paths.set edge.targetHandle ((st.paths.get? current).getD [] ++ [edge.targetHandle])
            queue := st.queue ++ [(edge.targetHandle, depth + 1)] }
          else st)

/-- The state behind `included.add(current)` and the reason for it, with the rest of the queue. -/
def ImpactState.visit (st : ImpactState) (current : PyStr) (rest : List (PyStr × ℕ)) : ImpactState :=
  { st with
    queue := rest
    included := st.included ++ [current]
    reasons := st.reasons.set current
      (if ((st.paths.get? current).any fun path => path.length = 1) then "direct_change" else "federated_consumer") }

/-- The body of the outer loop, for the first entry of the queue and the rest of it. -/
def turn (f : Federation) (limits : ImpactLimits) (current : PyStr) (depth : ℕ) (rest : List (PyStr × ℕ))
    (st : ImpactState) : Except Raised ImpactState :=
  if current ∈ st.included then .ok { st with queue := rest }
  else do
    let edges ← dependenciesOf f current
    let st := st.visit current rest
    return if limits.maxDepth ≤ depth then
        { st with truncationReasons := st.truncationReasons ++ if edges ≠ [] then [("max_depth" : PyStr)] else [] }
      else edgesLoop limits current depth edges st

def loop (f : Federation) (limits : ImpactLimits) : ℕ → ImpactState → Except Raised ImpactState
  | 0, st => .ok st
  | fuel + 1, st => match st.queue with
    | [] => .ok st
    | (current, depth) :: rest =>
      if st.included.length < limits.maxNodes then do
        let st ← turn f limits current depth rest st
        loop f limits fuel st
      else .ok st

namespace SemanticDiff

variable (d : SemanticDiff) (f : Federation) (limits : ImpactLimits)

def handles : List PyStr := d.records.map DiffRecord.handle

def start : ImpactState where
  queue := d.handles.map fun handle => (handle, 0)
  included := []
  reasons := .empty
  paths := d.handles.foldl (fun paths handle => paths.set handle [handle]) .empty
  truncationReasons := []
  traversedEdges := 0
  usedBytes := 0

/-- The result, for the state behind the loop. -/
def resultOf (generation : PyStr) (st : ImpactState) : Impact :=
  let reasons := st.truncationReasons ++ if st.queue ≠ [] then [("max_nodes" : PyStr)] else []
  { federationGeneration := generation
    nodes := PyStr.sortedSet st.included
    reasons := st.reasons
    paths := st.paths
    complete := st.queue = [] && reasons = [] && d.complete
    truncationReasons := if !d.complete || reasons ≠ [] then PyStr.sortedSet (d.truncationReasons ++ reasons) else [] }

/-- `impact_federated`.  Every turn takes an entry from the queue, and besides the records only targets of edges that
have no path yet are put into it. -/
def impactFederated : Except Raised Impact := do
  impactBudget limits.maxNodes "impact_budget_invalid" 1 MAX_IMPACT_NODES
  impactBudget limits.maxDepth "impact_depth_invalid" 0 MAX_IMPACT_DEPTH
  impactBudget limits.maxEdges "impact_edge_budget_invalid" 0 MAX_IMPACT_EDGES
  impactBudget limits.maxBytes "impact_byte_budget_invalid" 1 MAX_IMPACT_BYTES
  let st ← loop f limits (d.records.length + f.edges.length) d.start
  let generation ← lift f.generation
  return d.resultOf generation st

end SemanticDiff

/-! ## The inner loop -/

variable {f : Federation} {limits : ImpactLimits} {d : SemanticDiff} {st st' : ImpactState} {current : PyStr} {depth : ℕ}
  {rest : List (PyStr × ℕ)} {edges : List FederatedEdge}

/-- The nodes that have paths are those that were included or wait in the queue. -/
def Found (st : ImpactState) : Prop :=
  ∀ v, (st.paths.get? v).isSome ↔ v ∈ st.included ∨ v ∈ st.queue.map Prod.fst

/-- What the inner loop adds to the queue. -/
structure Expands (edges : List FederatedEdge) (st st' : ImpactState) : Prop where
  included : st'.included = st.included
  queue : ∃ new, st'.queue.map Prod.fst = st.queue.map Prod.fst ++ new ∧
    (∀ v ∈ new, v ∈ edges.map fun e => e.targetHandle) ∧
    (st'.truncationReasons = [] → st.truncationReasons = [] ∧
      ∀ e ∈ edges, (st'.paths.get? e.targetHandle).isSome)
  kept : ∀ v, (st.paths.get? v).isSome → (st'.paths.get? v).isSome
  found : Found st'

theorem expands_edgesLoop (found : Found st) : Expands edges st (edgesLoop limits current depth edges st) := by
  induction edges generalizing st with
  | nil =>
    exact ⟨rfl, ⟨[], (List.append_nil _).symm, fun _ mem => absurd mem List.not_mem_nil,
      fun none => ⟨none, fun _ mem => absurd mem List.not_mem_nil⟩⟩, fun _ => id, found⟩
  | cons edge edges ih =>
    have stops (reason : PyStr) : st.truncationReasons ++ [reason] ≠ [] := by simp
    rw [edgesLoop]
    dsimp only
    split
    · exact ⟨rfl, ⟨[], (List.append_nil _).symm, fun _ mem => absurd mem List.not_mem_nil,
        fun none => absurd none (stops _)⟩, fun _ => id, found⟩
    split
    · exact ⟨rfl, ⟨[], (List.append_nil _).symm, fun _ mem => absurd mem List.not_mem_nil,
        fun none => absurd none (stops _)⟩, fun _ => id, found⟩
    split
    · rename_i fresh
      have found' : Found { st with
          traversedEdges := st.traversedEdges + 1
          usedBytes := st.usedBytes + edgeBytes current edge.targetHandle
          paths := st.paths.set edge.targetHandle ((st.paths.get? current).getD [] ++ [edge.targetHandle])
          queue := st.queue ++ [(edge.targetHandle, depth + 1)] } := by
        intro v
        dsimp only
        rw [Dict.get?_set, List.map_append, List.mem_append, ← or_assoc, ← found v]
        by_cases same : v = edge.targetHandle
        · simp [same]
        · simp [same]
      obtain ⟨included, ⟨new, queue, sound, complete⟩, kept, found''⟩ := ih found'
      have here := kept edge.targetHandle ((found' _).2 (.inr (by simp)))
      refine ⟨included, ⟨edge.targetHandle :: new, ?_, ?_, fun none => ?_⟩, fun v has => kept v ?_, found''⟩
      · rw [queue, List.map_append, List.append_assoc]
        rfl
      · rintro v mem
        rcases List.mem_cons.1 mem with rfl | mem
        · exact List.mem_cons_self
        · exact List.mem_cons_of_mem _ (sound v mem)
      · obtain ⟨none, each⟩ := complete none
        exact ⟨none, List.forall_mem_cons.2 ⟨here, each⟩⟩
      · refine (found' v).2 (((found v).1 has).imp id fun mem => ?_)
        rw [List.map_append, List.mem_append]
        exact .inl mem
    · rename_i known
      have found' : Found { st with
          traversedEdges := st.traversedEdges + 1
          usedBytes := st.usedBytes + edgeBytes current edge.targetHandle } := found
      obtain ⟨included, ⟨new, queue, sound, complete⟩, kept, found''⟩ := ih found'
      refine ⟨included, ⟨new, queue, fun v mem => List.mem_cons_of_mem _ (sound v mem), fun none => ?_⟩, kept, found''⟩
      obtain ⟨none, each⟩ := complete none
      refine ⟨none, List.forall_mem_cons.2 ⟨kept _ ?_, each⟩⟩
      rw [Option.isNone_iff_eq_none] at known
      exact Option.isSome_iff_ne_none.2 known

theorem lift_eq_ok_iff {α : Type} {x : Except Federated.Raised α} {a : α} : lift x = .ok a ↔ x = .ok a := by
  cases x <;> simp [lift]

/-- The edges that `dependencies` returns are the first 1000. -/
theorem dependenciesOf_eq_ok (read : dependenciesOf f current = .ok edges) : edges = (f.outgoing current).take 1000 := by
  obtain ⟨⟨⟩, -, read⟩ := bind_ok.1 (lift_eq_ok_iff.1 read)
  obtain ⟨⟨⟩, -, read⟩ := bind_ok.1 read
  obtain ⟨⟨⟩, -, read⟩ := bind_ok.1 read
  obtain ⟨⟨⟩, -, read⟩ := bind_ok.1 read
  obtain ⟨encoded, -, read⟩ := bind_ok.1 read
  obtain ⟨⟨⟩, -, read⟩ := bind_ok.1 read
  cases read
  rfl

/-! ## The outer loop -/

/-- The search has found what waits or is included, and as long as nothing was cut off it covers what can be reached. -/
structure Searching (f : Federation) (d : SemanticDiff) (st : ImpactState) : Prop where
  found : Found st
  covers : st.truncationReasons = [] →
    Worklist.Covers (fun _ => true) (fun v w => w ∈ f.shown v) d.handles st.included (st.queue.map Prod.fst)

theorem found_start : Found d.start := by
  have paths (handles : List PyStr) (paths : Dict PyStr (List PyStr)) (v : PyStr) :
      ((handles.foldl (fun paths handle => paths.set handle [handle]) paths).get? v).isSome ↔
        (paths.get? v).isSome ∨ v ∈ handles := by
    induction handles generalizing paths with
    | nil => simp
    | cons handle handles ih =>
      rw [List.foldl_cons, ih, Dict.get?_set, List.mem_cons, ← or_assoc]
      by_cases same : v = handle
      · simp [same]
      · simp [same]
  intro v
  have handles : d.start.queue.map Prod.fst = d.handles := by
    show (d.handles.map fun handle => (handle, 0)).map Prod.fst = d.handles
    rw [List.map_map]
    exact List.map_id _
  rw [handles]
  exact (paths d.handles .empty v).trans (or_congr (iff_of_false (by simp) List.not_mem_nil) Iff.rfl)

theorem searching_start : Searching f d d.start := by
  refine ⟨found_start, fun _ => ?_⟩
  have handles : d.start.queue.map Prod.fst = d.handles := by
    show (d.handles.map fun handle => (handle, 0)).map Prod.fst = d.handles
    rw [List.map_map]
    exact List.map_id _
  rw [handles]
  exact Worklist.covers_nil

theorem searching_turn (h : Searching f d st) (queue : st.queue = (current, depth) :: rest)
    (turned : turn f limits current depth rest st = .ok st') : Searching f d st' := by
  obtain ⟨found, covers⟩ := h
  unfold Found at found
  rw [queue] at found covers
  unfold turn at turned
  split at turned
  · rename_i old
    cases turned
    refine ⟨fun v => ?_, fun none => ?_⟩
    · rw [found v, List.map_cons, List.mem_cons]
      constructor
      · rintro (mem | rfl | mem)
        · exact .inl mem
        · exact .inl old
        · exact .inr mem
      · exact Or.imp id .inr
    · refine @Worklist.Covers.drop _ _ _ _ _ _ [current] (covers none) fun v mem => ?_
      rw [List.mem_singleton.1 mem]
      exact .inl old
  · obtain ⟨edges, read, turned⟩ := bind_ok.1 turned
    have shown : edges.map (fun e => e.targetHandle) = f.shown current :=
      congrArg _ (dependenciesOf_eq_ok read)
    have visited : Found (st.visit current rest) := by
      intro v
      show (st.paths.get? v).isSome ↔ v ∈ st.included ++ [current] ∨ v ∈ rest.map Prod.fst
      rw [found v, List.map_cons, List.mem_cons, List.mem_append, List.mem_singleton, or_assoc]
    dsimp only at turned
    split at turned
    · cases turned
      refine ⟨visited, fun none => ?_⟩
      obtain ⟨none, nothing⟩ := List.append_eq_nil_iff.1 none
      have empty : edges = [] := by
        by_contra some
        rw [if_pos some] at nothing
        cases nothing
      rw [empty] at shown
      have expanded := (covers none).expand rfl (fun v mem => absurd mem List.not_mem_nil) fun w edge _ => by
        rw [← shown] at edge
        exact absurd edge List.not_mem_nil
      rwa [List.append_nil] at expanded
    · cases turned
      obtain ⟨included, ⟨new, queue', sound, complete⟩, -, found'⟩ :=
        expands_edgesLoop visited
      refine ⟨found', fun none => ?_⟩
      obtain ⟨none, each⟩ := complete none
      rw [included, queue']
      refine (covers none).expand rfl (fun w mem => shown ▸ sound w mem) fun w edge _ => ?_
      rw [← shown] at edge
      obtain ⟨e, mem, rfl⟩ := List.mem_map.1 edge
      have has := (found' _).1 (each e mem)
      rwa [included, queue'] at has

/-- How many turns the loop can still make. -/
def remaining (f : Federation) (st : ImpactState) : ℕ :=
  st.queue.length + (f.edges.map fun e => e.targetHandle).countP fun v => (st.paths.get? v).isNone

theorem remaining_edgesLoop_le (mem : ∀ e ∈ edges, e ∈ f.edges) :
    remaining f (edgesLoop limits current depth edges st) ≤ remaining f st := by
  induction edges generalizing st with
  | nil => exact le_rfl
  | cons edge edges ih =>
    obtain ⟨first, mem⟩ := List.forall_mem_cons.1 mem
    rw [edgesLoop]
    dsimp only
    split
    · exact le_rfl
    split
    · exact le_rfl
    refine (ih mem).trans ?_
    split
    · rename_i fresh
      have target : edge.targetHandle ∈ f.edges.map fun e => e.targetHandle := List.mem_map_of_mem first
      have less := countP_add_one_le (l := f.edges.map fun e => e.targetHandle) (a := edge.targetHandle)
        (p := fun v => ((st.paths.set edge.targetHandle
          ((st.paths.get? current).getD [] ++ [edge.targetHandle])).get? v).isNone)
        (q := fun v => (st.paths.get? v).isNone) (fun v _ none => ?_) target (by simp) fresh
      · unfold remaining
        dsimp only
        rw [List.length_append, List.length_singleton]
        omega
      · rw [Dict.get?_set] at none
        split at none
        · cases none
        · exact none
    · exact le_rfl

theorem remaining_turn_lt (queue : st.queue = (current, depth) :: rest)
    (turned : turn f limits current depth rest st = .ok st') : remaining f st' + 1 ≤ remaining f st := by
  have popped : remaining f (st.visit current rest) + 1 ≤ remaining f st := by
    unfold remaining
    rw [queue, List.length_cons]
    show rest.length + (f.edges.map fun e => e.targetHandle).countP (fun v => (st.paths.get? v).isNone) + 1 ≤ _
    omega
  unfold turn at turned
  split at turned
  · cases turned
    exact popped
  · obtain ⟨edges, read, turned⟩ := bind_ok.1 turned
    dsimp only at turned
    split at turned
    · cases turned
      exact popped
    · cases turned
      have inside : ∀ e ∈ edges, e ∈ f.edges := by
        intro e mem
        rw [dependenciesOf_eq_ok read] at mem
        exact List.mem_of_mem_filter (List.mem_of_mem_take mem)
      have kept := @remaining_edgesLoop_le _ limits (st.visit current rest) current depth _ inside
      omega

theorem searching_loop {fuel : ℕ} (h : Searching f d st) (enough : remaining f st ≤ fuel)
    (ran : loop f limits fuel st = .ok st') :
    Searching f d st' ∧ (st'.queue = [] ∨ limits.maxNodes ≤ st'.included.length) := by
  induction fuel generalizing st with
  | zero =>
    cases ran
    exact ⟨h, .inl (List.eq_nil_of_length_eq_zero (by unfold remaining at enough; omega))⟩
  | succ fuel ih =>
    rw [loop] at ran
    split at ran
    · rename_i empty
      cases ran
      exact ⟨h, .inl empty⟩
    · rename_i current depth rest queue
      split at ran
      · obtain ⟨next, turned, ran⟩ := bind_ok.1 ran
        have less := remaining_turn_lt queue turned
        exact ih (searching_turn h queue turned) (by omega) ran
      · rename_i full
        cases ran
        exact ⟨h, .inr (not_lt.1 full)⟩

theorem remaining_start_le : remaining f d.start ≤ d.records.length + f.edges.length := by
  have queue : d.start.queue.length = d.records.length := by
    show (d.handles.map fun handle => (handle, 0)).length = _
    rw [List.length_map, SemanticDiff.handles, List.length_map]
  have targets := List.countP_le_length (p := fun v => (d.start.paths.get? v).isNone)
    (l := f.edges.map fun e => e.targetHandle)
  rw [List.length_map] at targets
  unfold remaining
  omega

/-! ## Impact -/

/-- What the search follows from a changed node. -/
def IsShown (f : Federation) (d : SemanticDiff) (v : PyStr) : Prop :=
  ∃ r ∈ d.handles, Relation.ReflTransGen (fun a b => b ∈ f.shown a) r v

/-- A node from which a changed node is reached along edges. -/
def IsConsumer (f : Federation) (d : SemanticDiff) (v : PyStr) : Prop :=
  ∃ r ∈ d.handles, Relation.ReflTransGen (fun a b => ∃ e ∈ f.edges, e.sourceHandle = a ∧ e.targetHandle = b) v r

theorem reach_iff_isShown {v : PyStr} :
    Worklist.Reach (fun _ => true) (fun a b => b ∈ f.shown a) d.handles v ↔ IsShown f d v := by
  constructor
  · intro reach
    induction reach with
    | start mem _ => exact ⟨_, mem, .refl⟩
    | step _ edge _ ih =>
      obtain ⟨r, mem, path⟩ := ih
      exact ⟨r, mem, path.tail edge⟩
  · rintro ⟨r, mem, path⟩
    induction path with
    | refl => exact .start mem rfl
    | tail _ edge ih => exact .step ih edge rfl

theorem mem_nodes_iff {r : Impact} (ran : d.impactFederated f limits = .ok r) (complete : r.complete = true) (v : PyStr) :
    v ∈ r.nodes ↔ IsShown f d v := by
  obtain ⟨⟨⟩, -, ran⟩ := bind_ok.1 ran
  obtain ⟨⟨⟩, -, ran⟩ := bind_ok.1 ran
  obtain ⟨⟨⟩, -, ran⟩ := bind_ok.1 ran
  obtain ⟨⟨⟩, -, ran⟩ := bind_ok.1 ran
  obtain ⟨st, looped, ran⟩ := bind_ok.1 ran
  obtain ⟨generation, -, ran⟩ := bind_ok.1 ran
  cases ran
  obtain ⟨⟨-, covers⟩, -⟩ := searching_loop searching_start remaining_start_le looped
  obtain ⟨both, -⟩ := Bool.and_eq_true_iff.1 complete
  obtain ⟨empty, reasons⟩ := Bool.and_eq_true_iff.1 both
  have covers := covers (List.append_eq_nil_iff.1 (of_decide_eq_true reasons)).1
  rw [of_decide_eq_true empty] at covers
  rw [← reach_iff_isShown, ← covers.exact]
  exact PyStr.mem_sortedSet

/-- A complete result has every consumer of the change exactly when every consumer is also found behind the change. -/
theorem impact_iff {r : Impact} (ran : d.impactFederated f limits = .ok r) (complete : r.complete = true) :
    (∀ v, IsConsumer f d v → v ∈ r.nodes) ↔ ∀ v, IsConsumer f d v → IsShown f d v :=
  forall_congr' fun v => imp_congr_right fun _ => mem_nodes_iff ran complete v

/-! ## A call -/

/-- The federation in which `a:x` calls `a:y`. -/
def sampleFederation : Federation := ⟨[sampleMember], [sampleEdge true]⟩

def updateOf (handle : PyStr) (filled : isFilled handle) : SemanticDiff where
  records := [⟨handle, "update", filled, by decide +kernel⟩]
  complete := true
  truncationReasons := []
  isFilled_reasons := fun _ mem => absurd mem List.not_mem_nil

def callerUpdate : SemanticDiff := updateOf "a:x" (by decide)

def calleeUpdate : SemanticDiff := updateOf "a:y" (by decide)

/-- The impact of an update of the caller has every consumer of it: there is no other. -/
theorem impact_iff_caller : ∃ r, callerUpdate.impactFederated sampleFederation {} = .ok r ∧ r.complete = true ∧
    ∀ v, IsConsumer sampleFederation callerUpdate v → v ∈ r.nodes := by
  have ran : (callerUpdate.impactFederated sampleFederation {}).toOption.map (fun r => r.complete) = some true := by
    decide +kernel
  obtain ⟨r, ran, complete⟩ := Except.exists_of_map_toOption ran
  refine ⟨r, ran, complete, (impact_iff ran complete).2 ?_⟩
  rintro v ⟨h, mem, path⟩
  refine ⟨h, mem, ?_⟩
  rcases Relation.ReflTransGen.cases_tail path with rfl | ⟨w, -, e, edge, -, target⟩
  · exact .refl
  · rw [List.mem_singleton.1 mem, List.mem_singleton.1 edge] at target
    exact absurd target (by decide)

/-- The impact of an update of what is called is complete without the caller. -/
theorem not_impact_callee : ∃ r, Federation.make PyStr.asciiCasefold [sampleMember] [sampleEdge true] = .ok sampleFederation ∧
    calleeUpdate.impactFederated sampleFederation {} = .ok r ∧ r.complete = true ∧
    ∃ v, IsConsumer sampleFederation calleeUpdate v ∧ v ∉ r.nodes := by
  have ran : (calleeUpdate.impactFederated sampleFederation {}).toOption.map (fun r => (r.complete, r.nodes)) =
      some (true, (["a:y"] : List PyStr)) := by
    decide +kernel
  obtain ⟨r, ran, same⟩ := Except.exists_of_map_toOption ran
  obtain ⟨complete, nodes⟩ := Prod.mk.inj same
  refine ⟨r, rfl, ran, complete, "a:x", ⟨"a:y", List.mem_singleton.2 rfl, ?_⟩, ?_⟩
  · exact .single ⟨sampleEdge true, List.mem_singleton.2 rfl, rfl, rfl⟩
  · rw [nodes]
    decide

end SemanticDiffs

end SimplicioFast
