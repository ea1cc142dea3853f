import Mathlib.Data.List.TakeWhile

/-!
# Closure by a work list

`visit` takes elements from a list of pending elements, skips those that it does not know or has
visited, and puts the successors of the others at the end of the list, until nothing is pending or
the budget is spent.  A visit that leaves nothing pending has found exactly the least set that holds
the known starting points and is closed under known successors (`mem_visit_iff`).
-/

namespace SimplicioFast

namespace Worklist

variable {α : Type*} {known : α → Bool} {succ : α → α → Prop} {next : List α → α → List α}
  {start visited pending : List α} {a b : α}

/-- The least set that holds the known starting points and is closed under known successors. -/
inductive Reach (known : α → Bool) (succ : α → α → Prop) (start : List α) : α → Prop
  | start {a : α} (mem : a ∈ start) (isKnown : known a = true) : Reach known succ start a
  | step {a b : α} (reach : Reach known succ start a) (edge : succ a b) (isKnown : known b = true) :
    Reach known succ start b

/-- The visited and the pending elements when nothing is pending or `budget` more elements have been
visited. -/
def visit [DecidableEq α] (known : α → Bool) (next : List α → α → List α) :
    ℕ → List α → List α → List α × List α
  | 0, visited, pending => (visited, pending)
  | budget + 1, visited, pending =>
    match pending.dropWhile fun a => a ∈ visited || !known a with
    | [] => (visited, [])
    | a :: pending => visit known next budget (visited ++ [a]) (pending ++ next (visited ++ [a]) a)

/-- Everything visited or pending is to be visited, and everything to be visited is visited, pending
or behind something pending. -/
structure Covers (known : α → Bool) (succ : α → α → Prop) (start visited pending : List α) :
    Prop where
  reach_visited : ∀ a ∈ visited, Reach known succ start a
  reach_pending : ∀ a ∈ pending, known a = true → Reach known succ start a
  covers_start : ∀ a ∈ start, known a = true → a ∈ visited ∨ a ∈ pending
  covers_succ : ∀ a ∈ visited, ∀ b, succ a b → known b = true → b ∈ visited ∨ b ∈ pending

theorem covers_nil : Covers known succ start [] start where
  reach_visited := by
    intro a mem
    cases mem
  reach_pending := fun _ mem isKnown => .start mem isKnown
  covers_start := fun _ mem _ => .inr mem
  covers_succ := by
    intro a mem
    cases mem

theorem Covers.drop {dropped : List α} (h : Covers known succ start visited (dropped ++ pending))
    (skipped : ∀ a ∈ dropped, a ∈ visited ∨ known a = false) :
    Covers known succ start visited pending := by
  have keep : ∀ a, known a = true → a ∈ visited ∨ a ∈ dropped ++ pending →
      a ∈ visited ∨ a ∈ pending := by
    rintro a isKnown (mem | mem)
    · exact .inl mem
    · rcases List.mem_append.1 mem with mem | mem
      · rcases skipped a mem with mem | unknown
        · exact .inl mem
        · rw [isKnown] at unknown
          cases unknown
      · exact .inr mem
  exact ⟨h.reach_visited, fun a mem => h.reach_pending a (List.mem_append_right _ mem),
    fun a mem isKnown => keep a isKnown (h.covers_start a mem isKnown),
    fun a mem b edge isKnown => keep b isKnown (h.covers_succ a mem b edge isKnown)⟩

theorem Covers.expand (h : Covers known succ start visited (a :: pending)) (isKnown : known a = true) {new : List α}
    (sound : ∀ b ∈ new, succ a b)
    (complete : ∀ b, succ a b → known b = true → b ∈ visited ++ [a] ∨ b ∈ pending ++ new) :
    Covers known succ start (visited ++ [a]) (pending ++ new) := by
  have reach := h.reach_pending a List.mem_cons_self isKnown
  have keep : ∀ b, b ∈ visited ∨ b ∈ a :: pending → b ∈ visited ++ [a] ∨ b ∈ pending ++ new := by
    rintro b (mem | mem)
    · exact .inl (List.mem_append_left _ mem)
    · rcases List.mem_cons.1 mem with rfl | mem
      · exact .inl (List.mem_append_right _ List.mem_cons_self)
      · exact .inr (List.mem_append_left _ mem)
  refine ⟨?_, ?_, fun b mem isKnown => keep b (h.covers_start b mem isKnown), ?_⟩
  · intro b mem
    rcases List.mem_append.1 mem with mem | mem
    · exact h.reach_visited b mem
    · rw [List.mem_singleton.1 mem]
      exact reach
  · intro b mem isKnown
    rcases List.mem_append.1 mem with mem | mem
    · exact h.reach_pending b (List.mem_cons_of_mem _ mem) isKnown
    · exact .step reach (sound b mem) isKnown
  · intro b mem c edge isKnown
    rcases List.mem_append.1 mem with mem | mem
    · exact keep c (h.covers_succ b mem c edge isKnown)
    · rw [List.mem_singleton.1 mem] at edge
      exact complete c edge isKnown

theorem Covers.visit_one (h : Covers known succ start visited (a :: pending))
    (isKnown : known a = true)
    (hnext : ∀ b, b ∈ next (visited ++ [a]) a ↔ succ a b ∧ b ∉ visited ++ [a]) :
    Covers known succ start (visited ++ [a]) (pending ++ next (visited ++ [a]) a) := by
  refine h.expand isKnown (fun b mem => ((hnext b).1 mem).1) fun b edge _ => ?_
  by_cases old : b ∈ visited ++ [a]
  · exact .inl old
  · exact .inr (List.mem_append_right _ ((hnext b).2 ⟨edge, old⟩))

theorem Covers.exact (h : Covers known succ start visited []) : a ∈ visited ↔ Reach known succ start a := by
  constructor
  · exact h.reach_visited a
  · intro reach
    induction reach with
    | start mem isKnown => exact (h.covers_start _ mem isKnown).resolve_right List.not_mem_nil
    | step _ edge isKnown ih => exact (h.covers_succ _ ih _ edge isKnown).resolve_right List.not_mem_nil

variable [DecidableEq α]

theorem Covers.visit (h : Covers known succ start visited pending)
    (hnext : ∀ visited a b, b ∈ next visited a ↔ succ a b ∧ b ∉ visited) (budget : ℕ) :
    Covers known succ start (visit known next budget visited pending).1
      (visit known next budget visited pending).2 := by
  induction budget generalizing visited pending with
  | zero => exact h
  | succ budget ih =>
    rw [Worklist.visit]
    rw [← List.takeWhile_append_dropWhile (p := fun a => a ∈ visited || !known a) (l := pending)] at h
    have rest := h.drop fun a mem => by
      simpa using List.mem_takeWhile_imp mem
    split
    · next nothing =>
      rw [nothing] at rest
      exact rest
    · next a pending' first =>
      rw [first] at rest
      have isKnown : known a = true := by
        have head := List.head_dropWhile_not (fun a => a ∈ visited || !known a)
          (l := pending) (by rw [first]; exact List.cons_ne_nil _ _)
        simp only [first, List.head_cons, Bool.or_eq_false_iff, Bool.not_eq_false'] at head
        exact head.2
      exact ih (rest.visit_one isKnown fun b => hnext _ a b)

theorem mem_visit_iff {budget : ℕ}
    (hnext : ∀ visited a b, b ∈ next visited a ↔ succ a b ∧ b ∉ visited)
    (done : (visit known next budget [] start).2 = []) :
    a ∈ (visit known next budget [] start).1 ↔ Reach known succ start a := by
  have covers := (covers_nil : Covers known succ start [] start).visit hnext budget
  rw [done] at covers
  exact covers.exact

end Worklist

end SimplicioFast
