import Mathlib.Data.Fintype.Pigeonhole
import Mathlib.Data.Set.Finite.Basic

/-!
# Sources of a relation

A source of a relation on a finite set is an element which nothing is related to.  There need not be one: going
backwards from an element may lead around a cycle.  There is a source exactly when some element cannot be reached from
a cycle (`exists_source_iff`).
-/

namespace SimplicioFast

namespace Sources

variable {α : Type*} {r : α → α → Prop} {s : Set α}

/-- The relation between elements of a set. -/
def Within (s : Set α) (r : α → α → Prop) (a b : α) : Prop := a ∈ s ∧ b ∈ s ∧ r a b

/-- An element can be reached from a cycle within the set. -/
def BelowCycle (s : Set α) (r : α → α → Prop) (b : α) : Prop :=
  ∃ a, Relation.TransGen (Within s r) a a ∧ Relation.ReflTransGen (Within s r) a b

theorem BelowCycle.exists_related {b : α} (below : BelowCycle s r b) : ∃ a ∈ s, r a b := by
  obtain ⟨a, cycle, path⟩ := below
  cases path with
  | refl =>
    obtain ⟨c, -, ⟨inside, -, related⟩⟩ := Relation.TransGen.tail'_iff.1 cycle
    exact ⟨c, inside, related⟩
  | tail _ last => exact ⟨_, last.1, last.2.2⟩

theorem belowCycle_of_forall (finite : s.Finite) (related : ∀ b ∈ s, ∃ a ∈ s, r a b) {b : α} (mem : b ∈ s) :
    BelowCycle s r b := by
  choose! before inside before_related using related
  have stays (n : ℕ) : before^[n] b ∈ s := by
    induction n with
    | zero => exact mem
    | succ n ih =>
      rw [Function.iterate_succ_apply']
      exact inside _ ih
  have step (n : ℕ) : Within s r (before^[n + 1] b) (before^[n] b) := by
    rw [Function.iterate_succ_apply']
    exact ⟨inside _ (stays n), stays n, before_related _ (stays n)⟩
  have path (n k : ℕ) : Relation.ReflTransGen (Within s r) (before^[n + k] b) (before^[n] b) := by
    induction k with
    | zero => exact .refl
    | succ k ih => exact .head (step (n + k)) ih
  -- The chain visits some element twice.
  have : Finite s := finite
  obtain ⟨n, m, differ, same⟩ :=
    Finite.exists_ne_map_eq_of_infinite fun n : ℕ => (⟨before^[n] b, stays n⟩ : s)
  have again (n m : ℕ) (less : n < m) (same : before^[n] b = before^[m] b) : BelowCycle s r b := by
    refine ⟨before^[n] b, ?_, ?_⟩
    · have first : Relation.ReflTransGen (Within s r) (before^[m] b) (before^[n + 1] b) := by
        have := path (n + 1) (m - (n + 1))
        rwa [show n + 1 + (m - (n + 1)) = m by omega] at this
      rw [← same] at first
      exact Relation.TransGen.tail' first (step n)
    · have := path 0 n
      rwa [Nat.zero_add] at this
  have equal : before^[n] b = before^[m] b := congrArg Subtype.val same
  rcases Nat.lt_or_gt_of_ne differ with less | less
  · exact again n m less equal
  · exact again m n less equal.symm

theorem exists_source_iff (finite : s.Finite) :
    (∃ b ∈ s, ∀ a ∈ s, ¬ r a b) ↔ ∃ b ∈ s, ¬ BelowCycle s r b := by
  constructor
  · rintro ⟨b, mem, source⟩
    refine ⟨b, mem, fun below => ?_⟩
    obtain ⟨a, inside, related⟩ := below.exists_related
    exact source a inside related
  · rintro ⟨b, mem, above⟩
    by_contra none
    push Not at none
    exact above (belowCycle_of_forall finite none mem)

end Sources

end SimplicioFast
