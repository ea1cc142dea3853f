import Mathlib.Data.List.Chain
import SimplicioFast.Lib.Dict

/-!
# Breadth-first search

A search from `start` along the edges `v → w` with `w ∈ succ v` keeps a path for every node that it has found.  A node
at the depth limit is not expanded, and the search is cut when such a node has successors.  When nothing is left in the
queue of a search that was not cut, the visited nodes are those that can be reached, and the path of each one is as
short as any (`Explored.exact`).
-/

namespace SimplicioFast

namespace Bfs

/-- The state of a search. -/
structure State (α : Type) where
  queue : List (α × ℕ)
  visited : List α
  paths : Dict α (List α)
  cut : Bool

variable {α : Type} [DecidableEq α]

def init (start : α) : State α := ⟨[(start, 0)], [], Dict.empty.set start [start], false⟩

/-- A successor of a node at a depth is found. -/
def discover (current : α) (depth : ℕ) (st : State α) (w : α) : State α :=
  if (st.paths.get? w).isSome then st
  else { st with
    queue := st.queue ++ [(w, depth + 1)]
    paths := st.paths.set w ((st.paths.get? current).getD [] ++ [w]) }

/-- The first node of the queue is visited. -/
def step (limit : ℕ) (succ : α → List α) (st : State α) : State α :=
  match st.queue with
  | [] => st
  | (current, depth) :: rest =>
    let next : State α := { st with queue := rest, visited := st.visited ++ [current] }
    if depth < limit then (succ current).foldl (discover current depth) next
    else { next with cut := st.cut || succ current ≠ [] }

@[simp] theorem visited_discover (current : α) (depth : ℕ) (st : State α) (w : α) :
    (discover current depth st w).visited = st.visited := by
  unfold discover
  split <;> rfl

theorem visited_foldl_discover (current : α) (depth : ℕ) (ws : List α) (st : State α) :
    (ws.foldl (discover current depth) st).visited = st.visited := by
  induction ws generalizing st with
  | nil => rfl
  | cons w ws ih => rw [List.foldl_cons, ih, visited_discover]

theorem visited_step (limit : ℕ) (succ : α → List α) {depth : ℕ} {st : State α} {current : α} {rest : List (α × ℕ)}
    (queue : st.queue = (current, depth) :: rest) : (step limit succ st).visited = st.visited ++ [current] := by
  unfold step
  rw [queue]
  dsimp only
  split
  · exact visited_foldl_discover _ _ _ _
  · rfl

theorem depth_discover_le {current : α} {depth limit : ℕ} {st : State α} (within : depth < limit)
    (le : ∀ a ∈ st.queue, a.2 ≤ limit) (w : α) : ∀ a ∈ (discover current depth st w).queue, a.2 ≤ limit := by
  unfold discover
  split
  · exact le
  · intro a mem
    rcases List.mem_append.1 mem with mem | mem
    · exact le a mem
    · cases List.mem_singleton.1 mem
      exact within

theorem depth_step_le {limit : ℕ} (succ : α → List α) {st : State α} (le : ∀ a ∈ st.queue, a.2 ≤ limit) :
    ∀ a ∈ (step limit succ st).queue, a.2 ≤ limit := by
  cases queue : st.queue with
  | nil =>
    rw [step, queue]
    exact le
  | cons a rest =>
    have le' : ∀ a ∈ rest, a.2 ≤ limit := fun b mem => le b (queue ▸ List.mem_cons_of_mem _ mem)
    unfold step
    rw [queue]
    dsimp only
    split
    · rename_i within
      generalize hst : ({ st with queue := rest, visited := st.visited ++ [a.1] } : State α) = next
      have le : ∀ a ∈ next.queue, a.2 ≤ limit := hst ▸ le'
      clear hst
      induction succ a.1 generalizing next with
      | nil => exact le
      | cons w ws ih => exact ih _ (depth_discover_le within le w)
    · exact le'

/-! ## Paths -/

/-- A path from `start` to a node. -/
inductive IsPath {α : Type} (succ : α → List α) (start : α) : α → List α → Prop
  | origin : IsPath succ start start [start]
  | edge {v w : α} {p : List α} (path : IsPath succ start v p) (mem : w ∈ succ v) : IsPath succ start w (p ++ [w])

/-- A node can be reached from `start`. -/
abbrev Reachable {α : Type} (succ : α → List α) (start v : α) : Prop :=
  Relation.ReflTransGen (fun a b => b ∈ succ a) start v

/-- A path that is as short as any other one with the same ends. -/
def IsShortest {α : Type} (succ : α → List α) (start v : α) (p : List α) : Prop :=
  IsPath succ start v p ∧ ∀ q, IsPath succ start v q → p.length ≤ q.length

theorem reachable_iff {α : Type} {succ : α → List α} {start v : α} :
    Reachable succ start v ↔ ∃ p, IsPath succ start v p := by
  constructor
  · intro reach
    induction reach with
    | refl => exact ⟨_, .origin⟩
    | tail _ mem ih =>
      obtain ⟨p, path⟩ := ih
      exact ⟨_, .edge path mem⟩
  · rintro ⟨p, path⟩
    induction path with
    | origin => exact .refl
    | edge _ mem ih => exact ih.tail mem

/-! ## The invariant -/

variable {succ : α → List α} {start current v w : α} {p q : List α} {limit depth n : ℕ} {st : State α}
  {expanded : α → Prop}

/-- The search has paths for the nodes that were visited or wait in the queue, which is sorted by depth and spans two
levels.  The successors of the nodes that were expanded have been found, unless the search was cut. -/
structure Explored (succ : α → List α) (start : α) (depth : ℕ) (expanded : α → Prop) (st : State α) : Prop where
  origin : st.paths.get? start = some [start]
  path : ∀ v p, st.paths.get? v = some p → IsPath succ start v p
  found : ∀ v, (st.paths.get? v).isSome ↔ v ∈ st.visited ∨ v ∈ st.queue.map Prod.fst
  nodup : (st.visited ++ st.queue.map Prod.fst).Nodup
  waiting : ∀ a ∈ st.queue, ∀ p, st.paths.get? a.1 = some p → p.length = a.2 + 1
  sorted : st.queue.Pairwise fun a b => a.2 ≤ b.2
  levels : ∀ a ∈ st.queue, depth ≤ a.2 ∧ a.2 ≤ depth + 1
  behind : ∀ v ∈ st.visited, ∀ p, st.paths.get? v = some p → p.length ≤ depth + 1
  seen : ∀ v, expanded v → v ∈ st.visited
  closed : st.cut = false → ∀ v, expanded v → ∀ w ∈ succ v, ∀ p, st.paths.get? v = some p →
    ∃ q, st.paths.get? w = some q ∧ q.length ≤ p.length + 1

theorem explored_init (succ : α → List α) (start : α) :
    Explored succ start 0 (· ∈ (init start).visited) (init start) := by
  have only : ∀ v p, (init start).paths.get? v = some p → v = start ∧ p = [start] := by
    intro v p h
    rw [init, Dict.get?_set] at h
    split at h
    · cases h
      exact ⟨‹_›, rfl⟩
    · cases h
  refine ⟨Dict.get?_set_self _ _ _, ?_, ?_, by simp [init], ?_, by simp [init], by simp [init], by simp [init],
    fun _ => id, ?_⟩
  · intro v p h
    obtain ⟨rfl, rfl⟩ := only v p h
    exact .origin
  · intro v
    rw [init, Dict.get?_set]
    by_cases same : v = start <;> simp [same, Dict.get?, Dict.empty, Dict.find]
  · intro a mem p h
    cases List.mem_singleton.1 mem
    obtain ⟨-, rfl⟩ := only _ _ h
    rfl
  · exact fun _ v absurd => (List.not_mem_nil absurd).elim

theorem Explored.length_le (h : Explored succ start depth expanded st) (found : st.paths.get? v = some p) :
    p.length ≤ depth + 2 := by
  rcases (h.found v).1 (Option.isSome_of_eq_some found) with old | waits
  · have := h.behind v old p found
    omega
  · obtain ⟨a, mem, rfl⟩ := List.mem_map.1 waits
    have := h.waiting a mem p found
    have := (h.levels a mem).2
    omega

theorem Explored.pop {rest : List (α × ℕ)} {c : Bool} (h : Explored succ start n (· ∈ st.visited) st)
    (queue : st.queue = (current, depth) :: rest) (cut : c = false → st.cut = false) :
    Explored succ start depth (· ∈ st.visited)
      { st with queue := rest, visited := st.visited ++ [current], cut := c } := by
  obtain ⟨origin, path, found, nodup, waiting, sorted, levels, behind, seen, closed⟩ := h
  rw [queue] at found nodup waiting sorted levels
  obtain ⟨least, sorted⟩ := List.pairwise_cons.1 sorted
  have low := (levels _ List.mem_cons_self).1
  refine ⟨origin, path, fun v => ?_, ?_, fun a mem => waiting a (List.mem_cons_of_mem _ mem), sorted, fun a mem => ?_,
    fun v mem p has => ?_, fun v mem => List.mem_append_left _ mem, fun uncut => closed (cut uncut)⟩
  · rw [found, List.map_cons, List.mem_cons, List.mem_append, List.mem_singleton, or_assoc]
  · rw [List.append_assoc]
    exact nodup
  · have := (levels a (List.mem_cons_of_mem _ mem)).2
    have := least a mem
    have := (levels _ List.mem_cons_self).2
    exact ⟨‹_›, by omega⟩
  · rcases List.mem_append.1 mem with old | new
    · have := behind v old p has
      omega
    · cases List.mem_singleton.1 new
      exact (waiting _ List.mem_cons_self p has).le

/-- What the discovery of a node leaves unchanged. -/
structure Extends (st st' : State α) : Prop where
  paths : ∀ v q, st.paths.get? v = some q → st'.paths.get? v = some q
  cut : st'.cut = st.cut
  visited : st'.visited = st.visited

theorem Explored.discover (h : Explored succ start depth expanded st) (mem : w ∈ succ current)
    (has : st.paths.get? current = some p) (length : p.length = depth + 1) :
    Explored succ start depth expanded (discover current depth st w) ∧
      ((Bfs.discover current depth st w).paths.get? w).isSome ∧ Extends st (Bfs.discover current depth st w) := by
  unfold Bfs.discover
  split
  · rename_i known
    exact ⟨h, known, fun _ _ => id, rfl, rfl⟩
  · rename_i unknown
    have fresh : st.paths.get? w = none := Option.not_isSome_iff_eq_none.1 unknown
    rw [has, Option.getD_some]
    have old {v : α} {q : List α} (found : st.paths.get? v = some q) :
        (st.paths.set w (p ++ [w])).get? v = some q := by
      have other : v ≠ w := by
        rintro rfl
        rw [fresh] at found
        cases found
      rw [Dict.get?_set_of_ne _ _ other, found]
    have either {v : α} {q : List α} (found : (st.paths.set w (p ++ [w])).get? v = some q) :
        v = w ∧ q = p ++ [w] ∨ st.paths.get? v = some q := by
      rw [Dict.get?_set] at found
      split at found
      · cases found
        exact .inl ⟨‹_›, rfl⟩
      · exact .inr found
    have unseen : w ∉ st.visited ∧ w ∉ st.queue.map Prod.fst := by
      rw [h.found w, not_or] at unknown
      exact unknown
    refine ⟨⟨old h.origin, fun v q found => ?_, fun v => ?_, ?_, fun a mem q found => ?_, ?_, fun a mem => ?_,
      fun v mem q found => ?_, h.seen, fun uncut v done u edge q found => ?_⟩, ?_, fun v q => old, rfl, rfl⟩
    · rcases either found with ⟨rfl, rfl⟩ | found
      · exact .edge (h.path _ _ has) mem
      · exact h.path v q found
    · rw [Dict.get?_set, List.map_append, List.mem_append, ← or_assoc, ← h.found]
      by_cases same : v = w
      · simp [same]
      · simp [same]
    · rw [List.map_append, ← List.append_assoc]
      refine List.nodup_append.2 ⟨h.nodup, List.nodup_singleton _, fun a left b right => ?_⟩
      cases List.mem_singleton.1 right
      rintro rfl
      rcases List.mem_append.1 left with left | left
      · exact unseen.1 left
      · exact unseen.2 left
    · rcases List.mem_append.1 mem with mem | mem
      · refine h.waiting a mem q ((either found).resolve_left ?_)
        rintro ⟨same, -⟩
        exact unseen.2 (same ▸ List.mem_map_of_mem mem)
      · cases List.mem_singleton.1 mem
        rw [Dict.get?_set_self] at found
        cases found
        rw [List.length_append, length, List.length_singleton]
    · refine List.pairwise_append.2 ⟨h.sorted, List.pairwise_singleton _ _, fun a left b right => ?_⟩
      cases List.mem_singleton.1 right
      exact (h.levels a left).2
    · rcases List.mem_append.1 mem with mem | mem
      · exact h.levels a mem
      · cases List.mem_singleton.1 mem
        exact ⟨Nat.le_succ _, le_rfl⟩
    · refine h.behind v mem q ((either found).resolve_left ?_)
      rintro ⟨rfl, -⟩
      exact unseen.1 mem
    · rcases either found with ⟨rfl, rfl⟩ | found
      · exact absurd (h.seen _ done) unseen.1
      · obtain ⟨q', has', short⟩ := h.closed uncut v done u edge q found
        exact ⟨q', old has', short⟩
    · rw [Dict.get?_set_self]
      rfl

theorem Explored.foldl_discover {ws : List α} (h : Explored succ start depth expanded st)
    (mem : ∀ w ∈ ws, w ∈ succ current) (has : st.paths.get? current = some p) (length : p.length = depth + 1) :
    Explored succ start depth expanded (ws.foldl (Bfs.discover current depth) st) ∧
      (∀ w ∈ ws, ((ws.foldl (Bfs.discover current depth) st).paths.get? w).isSome) ∧
      Extends st (ws.foldl (Bfs.discover current depth) st) := by
  induction ws generalizing st with
  | nil => exact ⟨h, fun w absurd => (List.not_mem_nil absurd).elim, fun _ _ => id, rfl, rfl⟩
  | cons w ws ih =>
    obtain ⟨first, rest⟩ := List.forall_mem_cons.1 mem
    obtain ⟨h, known, ext⟩ := h.discover first has length
    obtain ⟨h, others, ext'⟩ := ih h rest (ext.paths _ _ has)
    refine ⟨h, List.forall_mem_cons.2 ⟨?_, others⟩, fun v q found => ext'.paths _ _ (ext.paths v q found),
      ext'.cut.trans ext.cut, ext'.visited.trans ext.visited⟩
    obtain ⟨q, known⟩ := Option.isSome_iff_exists.1 known
    exact Option.isSome_of_eq_some (ext'.paths _ _ known)

theorem Explored.expand (h : Explored succ start depth expanded st) (has : st.paths.get? current = some p)
    (length : p.length = depth + 1) (mem : current ∈ st.visited)
    (found : st.cut = false → ∀ w ∈ succ current, (st.paths.get? w).isSome) :
    Explored succ start depth (fun v => expanded v ∨ v = current) st := by
  refine ⟨h.origin, h.path, h.found, h.nodup, h.waiting, h.sorted, h.levels, h.behind, fun v done => ?_,
    fun uncut v done w edge q known => ?_⟩
  · rcases done with done | rfl
    · exact h.seen v done
    · exact mem
  · rcases done with done | rfl
    · exact h.closed uncut v done w edge q known
    · cases has.symm.trans known
      obtain ⟨q, found⟩ := Option.isSome_iff_exists.1 (found uncut w edge)
      have := h.length_le found
      exact ⟨q, found, by omega⟩

theorem Explored.congr {expanded' : α → Prop} (h : Explored succ start depth expanded st)
    (same : ∀ v, expanded' v ↔ expanded v) : Explored succ start depth expanded' st := by
  rwa [show expanded' = expanded from funext fun v => propext (same v)]

theorem Explored.step (limit : ℕ) (h : Explored succ start n (· ∈ st.visited) st) :
    ∃ m, Explored succ start m (· ∈ (Bfs.step limit succ st).visited) (Bfs.step limit succ st) := by
  cases queue : st.queue with
  | nil =>
    rw [Bfs.step, queue]
    exact ⟨n, h⟩
  | cons a rest =>
    obtain ⟨current, depth⟩ := a
    have waits : (current, depth) ∈ st.queue := queue ▸ List.mem_cons_self
    obtain ⟨p, has⟩ := Option.isSome_iff_exists.1 ((h.found current).2 (.inr (List.mem_map_of_mem waits)))
    have length := h.waiting _ waits p has
    refine ⟨depth, ?_⟩
    unfold Bfs.step
    rw [queue]
    dsimp only
    split
    · have popped := h.pop queue id
      obtain ⟨next, known, ext⟩ := popped.foldl_discover (fun _ => id) has length
      have new : current ∈ st.visited ++ [current] := by simp
      refine (next.expand (ext.paths _ _ has) length (ext.visited ▸ new) fun _ => known).congr fun v => ?_
      rw [ext.visited, List.mem_append, List.mem_singleton]
    · have popped := h.pop (c := st.cut || succ current ≠ []) queue fun uncut => (Bool.or_eq_false_iff.1 uncut).1
      have new : current ∈ st.visited ++ [current] := by simp
      refine (popped.expand has length new fun uncut w edge => ?_).congr fun v => ?_
      · have none := of_decide_eq_false (Bool.or_eq_false_iff.1 uncut).2
        rw [not_not.1 none] at edge
        exact (List.not_mem_nil edge).elim
      · rw [List.mem_append, List.mem_singleton]

theorem Explored.exact (h : Explored succ start n (· ∈ st.visited) st) (queue : st.queue = []) (uncut : st.cut = false) :
    (∀ v, v ∈ st.visited ↔ Reachable succ start v) ∧
      ∀ v ∈ st.visited, ∃ p, st.paths.get? v = some p ∧ IsShortest succ start v p := by
  have found (v : α) : (st.paths.get? v).isSome ↔ v ∈ st.visited := by
    rw [h.found, queue, List.map_nil, or_iff_left List.not_mem_nil]
  have short {v : α} {q : List α} (path : IsPath succ start v q) :
      ∃ p, st.paths.get? v = some p ∧ p.length ≤ q.length := by
    induction path with
    | origin => exact ⟨_, h.origin, le_rfl⟩
    | edge _ mem ih =>
      obtain ⟨p, has, le⟩ := ih
      obtain ⟨p', has', le'⟩ := h.closed uncut _ ((found _).1 (Option.isSome_of_eq_some has)) _ mem p has
      refine ⟨p', has', ?_⟩
      rw [List.length_append, List.length_singleton]
      omega
  constructor
  · intro v
    rw [reachable_iff, ← found, Option.isSome_iff_exists]
    exact ⟨fun ⟨p, has⟩ => ⟨p, h.path v p has⟩, fun ⟨q, path⟩ => (short path).imp fun p has => has.1⟩
  · intro v mem
    obtain ⟨p, has⟩ := Option.isSome_iff_exists.1 ((found v).2 mem)
    refine ⟨p, has, h.path v p has, fun q path => ?_⟩
    obtain ⟨p', has', le⟩ := short path
    cases has.symm.trans has'
    exact le

end Bfs

end SimplicioFast
