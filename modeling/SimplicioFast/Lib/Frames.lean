import Mathlib.Data.List.Basic

/-!
# Logs of framed records

A log file is the frames of its records one behind the other, in any encoding `frame`.  A crash leaves a prefix of the
file: the frames of the records that are complete in it, and a cut of the next frame (`take_flatMap`).
-/

namespace SimplicioFast

namespace Frames

variable {α β : Type*} (frame : α → List β)

/-- The records whose frames lie completely inside the first `size` bytes of the log. -/
def complete : ℕ → List α → List α
  | _, [] => []
  | size, r :: rs => if (frame r).length ≤ size then r :: complete (size - (frame r).length) rs else []

theorem complete_isPrefix (size : ℕ) (rs : List α) : complete frame size rs <+: rs := by
  induction rs generalizing size with
  | nil => exact List.prefix_rfl
  | cons r rs ih =>
    rw [complete]
    split_ifs
    · exact List.cons_prefix_cons.2 ⟨rfl, ih _⟩
    · exact List.nil_prefix

theorem complete_length_flatMap {rs kept : List α} (nonempty : ∀ r ∈ rs, frame r ≠ []) (first : kept <+: rs) :
    complete frame (kept.flatMap frame).length rs = kept := by
  induction rs generalizing kept with
  | nil => rw [List.prefix_nil.1 first, complete]
  | cons r rs ih =>
    obtain ⟨filled, others⟩ := List.forall_mem_cons.1 nonempty
    cases kept with
    | nil =>
      have long : ¬ (frame r).length ≤ 0 := by rwa [Nat.le_zero, List.length_eq_zero_iff]
      exact if_neg long
    | cons q kept =>
      obtain ⟨rfl, behind⟩ := List.cons_prefix_cons.1 first
      rw [List.flatMap_cons, List.length_append, complete, if_pos (Nat.le_add_right _ _), Nat.add_sub_cancel_left,
        ih others behind]

/-- What is left of the first frame that is not complete. -/
structure Cut (size : ℕ) (rs : List α) (cut : List β) : Prop where
  take_eq : (rs.flatMap frame).take size = (complete frame size rs).flatMap frame ++ cut
  partial_frame : cut = [] ∨ ∃ r rest, rs = complete frame size rs ++ r :: rest ∧ cut <+: frame r ∧
    cut.length < (frame r).length

theorem exists_cut (size : ℕ) (rs : List α) : ∃ cut, Cut frame size rs cut := by
  induction rs generalizing size with
  | nil => exact ⟨[], List.take_nil, .inl rfl⟩
  | cons r rs ih =>
    by_cases inside : (frame r).length ≤ size
    · obtain ⟨cut, taken, next⟩ := ih (size - (frame r).length)
      have head : complete frame size (r :: rs) = r :: complete frame (size - (frame r).length) rs := if_pos inside
      refine ⟨cut, ?_, ?_⟩
      · rw [head, List.flatMap_cons, List.flatMap_cons, List.append_assoc, ← taken, List.take_append,
          List.take_of_length_le inside]
      · rcases next with rfl | ⟨q, rest, split, part, short⟩
        · exact .inl rfl
        · refine .inr ⟨q, rest, ?_, part, short⟩
          rw [head, List.cons_append, ← split]
    · have head : complete frame size (r :: rs) = [] := if_neg inside
      have taken : ((r :: rs).flatMap frame).take size = (frame r).take size := by
        rw [List.flatMap_cons, List.take_append_of_le_length (by omega)]
      refine ⟨(frame r).take size, ?_, .inr ⟨r, rs, ?_, List.take_prefix _ _, ?_⟩⟩
      · rw [taken, head]
        rfl
      · rw [head]
        rfl
      · rw [List.length_take]
        omega

end Frames

end SimplicioFast
