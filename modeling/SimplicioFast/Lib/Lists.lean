import Mathlib.Data.List.Count
import Mathlib.Data.List.Sort
import Mathlib.Tactic.Ring

/-!
# Entries of a list

A table of workers, of calls or of threads is a list that a step changes at one place.  A list may be sorted, or taken apart
by a key of its entries.
-/

namespace SimplicioFast

variable {α : Type*} {l : List α} {i j : ℕ} {a b c : α}

theorem exists_first {P : α → Prop} (mem : a ∈ l) (holds : P a) :
    ∃ front b back, l = front ++ b :: back ∧ P b ∧ ∀ c ∈ front, ¬ P c := by
  induction l with
  | nil => cases mem
  | cons c l ih =>
    by_cases here : P c
    · exact ⟨[], c, l, rfl, here, fun _ mem => by cases mem⟩
    · rcases List.mem_cons.1 mem with rfl | mem
      · exact absurd holds here
      · obtain ⟨front, b, back, rfl, found, none⟩ := ih mem
        exact ⟨c :: front, b, back, rfl, found, List.forall_mem_cons.2 ⟨here, none⟩⟩

theorem countP_set_add (p : α → Bool) (b : α) (h : l[i]? = some a) :
    (l.set i b).countP p + (if p a then 1 else 0) = l.countP p + (if p b then 1 else 0) := by
  induction l generalizing i with
  | nil => simp at h
  | cons c l ih =>
    cases i with
    | zero =>
      obtain rfl : c = a := by simpa using h
      rw [List.set_cons_zero, List.countP_cons, List.countP_cons]
      omega
    | succ i =>
      rw [List.set_cons_succ, List.countP_cons, List.countP_cons]
      have rest := ih (by simpa using h)
      omega

theorem getElem?_set_of_some (b : α) (h : l[i]? = some a) (j : ℕ) :
    (l.set i b)[j]? = if j = i then some b else l[j]? := by
  have bound : i < l.length := (List.getElem?_eq_some_iff.1 h).1
  rw [List.getElem?_set]
  by_cases same : i = j
  · rw [if_pos same, if_pos bound, if_pos same.symm]
  · rw [if_neg same, if_neg fun e => same e.symm]

theorem set_eq_self (h : l[i]? = some a) : l.set i a = l := by
  obtain ⟨bound, entry⟩ := List.getElem?_eq_some_iff.1 h
  rw [← entry, List.set_getElem_self]

theorem getElem?_append_one (l : List α) (b : α) (j : ℕ) :
    (l ++ [b])[j]? = some c ↔ l[j]? = some c ∨ j = l.length ∧ b = c := by
  rw [List.getElem?_append]
  split
  · next inside =>
    constructor
    · exact .inl
    · rintro (h | ⟨h, -⟩)
      · exact h
      · omega
  · next outside =>
    have none : l[j]? = none := List.getElem?_eq_none (Nat.not_lt.1 outside)
    rw [none]
    constructor
    · intro h
      have place : j - l.length < [b].length := (List.getElem?_eq_some_iff.1 h).1
      have zero : j - l.length = 0 := by
        simp only [List.length_singleton] at place
        omega
      rw [zero] at h
      exact .inr ⟨by omega, by simpa using h⟩
    · rintro (h | ⟨rfl, rfl⟩)
      · cases h
      · simp

theorem countP_add_one_le {p q : α → Bool} (imp : ∀ b ∈ l, p b = true → q b = true) (mem : a ∈ l) (gone : p a = false)
    (there : q a = true) : l.countP p + 1 ≤ l.countP q := by
  obtain ⟨s, t, rfl⟩ := List.append_of_mem mem
  have before : s.countP p ≤ s.countP q := List.countP_mono_left fun b inside => imp b (List.mem_append_left _ inside)
  have behind : t.countP p ≤ t.countP q :=
    List.countP_mono_left fun b inside => imp b (List.mem_append_right _ (List.mem_cons_of_mem _ inside))
  rw [List.countP_append, List.countP_append, List.countP_cons, List.countP_cons, gone, there]
  simp only [Bool.false_eq_true, if_false, if_true]
  omega

/-! ## Sorting -/

section Sorting

variable {r : α → α → Prop} [DecidableRel r]

theorem orderedInsert_of_forall (h : ∀ b ∈ l, r a b) : l.orderedInsert r a = a :: l := by
  cases l with
  | nil => rfl
  | cons b l => exact List.orderedInsert_cons_of_le r l (h b List.mem_cons_self)

theorem filter_orderedInsert (trans : ∀ a b c, r a b → r b c → r a c) (p : α → Bool) (sorted : l.Pairwise r) :
    (l.orderedInsert r a).filter p = if p a then (l.filter p).orderedInsert r a else l.filter p := by
  induction l with
  | nil => cases h : p a <;> simp [h]
  | cons b l ih =>
    obtain ⟨least, sorted⟩ := List.pairwise_cons.1 sorted
    by_cases le : r a b
    · have all : ∀ c ∈ (b :: l).filter p, r a c := fun c mem => by
        rcases List.mem_cons.1 (List.mem_of_mem_filter mem) with rfl | mem
        · exact le
        · exact trans a b c le (least c mem)
      rw [List.orderedInsert_cons_of_le r l le, orderedInsert_of_forall all, List.filter_cons]
    · rw [List.orderedInsert_of_not_le r l le, List.filter_cons, List.filter_cons, ih sorted]
      cases hb : p b
      · rfl
      · cases ha : p a
        · rfl
        · rw [if_pos rfl, if_pos rfl, if_pos rfl, if_pos rfl, List.orderedInsert_of_not_le r _ le]

theorem filter_insertionSort_of_trans (total : ∀ a b, r a b ∨ r b a) (trans : ∀ a b c, r a b → r b c → r a c)
    (p : α → Bool) (l : List α) : (l.insertionSort r).filter p = (l.filter p).insertionSort r := by
  have : Std.Total r := ⟨total⟩
  have : IsTrans α r := ⟨trans⟩
  induction l with
  | nil => rfl
  | cons a l ih =>
    rw [List.insertionSort_cons, filter_orderedInsert trans p (List.pairwise_insertionSort r l), ih, List.filter_cons]
    cases p a <;> rfl

end Sorting

/-! ## Groups -/

section Groups

variable {β : Type*} [DecidableEq α] [DecidableEq β] [BEq β] [LawfulBEq β]

theorem count_flatMap_filter (key : α → β) (l : List α) (keys : List β) (a : α) :
    (keys.flatMap fun k => l.filter fun b => key b = k).count a = keys.count (key a) * l.count a := by
  induction keys with
  | nil => simp
  | cons k keys ih =>
    rw [List.flatMap_cons, List.count_append, ih, List.count_cons]
    by_cases same : key a = k
    · have kept : (l.filter fun b => key b = k).count a = l.count a := List.count_filter (decide_eq_true same)
      rw [kept, same, if_pos (beq_self_eq_true k)]
      ring
    · have dropped : (l.filter fun b => key b = k).count a = 0 :=
        List.count_eq_zero.2 fun mem => same (of_decide_eq_true (List.of_mem_filter mem :))
      rw [dropped, if_neg (by simpa using Ne.symm same)]
      ring

theorem flatMap_filter_perm_iff (key : α → β) (l : List α) (keys : List β) :
    (keys.flatMap fun k => l.filter fun b => key b = k).Perm l ↔ ∀ a ∈ l, keys.count (key a) = 1 := by
  rw [List.perm_iff_count]
  refine forall_congr' fun a => ?_
  rw [count_flatMap_filter]
  by_cases mem : a ∈ l
  · have positive : 0 < l.count a := List.count_pos_iff.2 mem
    rw [Nat.mul_eq_right (Nat.ne_of_gt positive)]
    exact ⟨fun once _ => once, fun once => once mem⟩
  · rw [List.count_eq_zero.2 mem, Nat.mul_zero]
    exact iff_of_true rfl fun mem' => absurd mem' mem

end Groups

end SimplicioFast
