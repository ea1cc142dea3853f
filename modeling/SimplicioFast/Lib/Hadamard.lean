import Mathlib.Algebra.BigOperators.Ring.Finset
import Mathlib.Data.Nat.Bitwise
import Mathlib.Tactic.Ring

/-!
# Sylvester's Hadamard matrices

The matrix of order `2 ^ k` has the entries `1` and `-1`: the sign at `i` and `j` is the parity of
the bits that the two numbers share (`entry`).  The matrix of the next order has four blocks, of
which the last one is negated (`entry_low_low` and its companions), so multiplication by it is a
butterfly over two multiplications by the one before (`transform_succ_low`, `transform_succ_high`),
and multiplying twice gives the vector times its length (`transform_transform`).
-/

namespace SimplicioFast

namespace Hadamard

open Finset

/-- The entry of the matrix of order `2 ^ k`. -/
def entry : ℕ → ℕ → ℕ → ℤ
  | 0, _, _ => 1
  | k + 1, i, j => if i.testBit k && j.testBit k then -entry k i j else entry k i j

variable {R : Type} [CommRing R] {k i j : ℕ} {f g : ℕ → R}

/-- The product of the matrix and a vector, at an index. -/
def transform (k : ℕ) (f : ℕ → R) (i : ℕ) : R := ∑ j ∈ range (2 ^ k), (entry k i j : R) * f j

/-! ## Blocks -/

theorem entry_add_left {m : ℕ} (h : k ≤ m) : entry k (2 ^ m + i) j = entry k i j := by
  induction k with
  | zero => rfl
  | succ k ih =>
    unfold entry
    rw [Nat.testBit_two_pow_add_gt (by omega), ih (by omega)]

theorem entry_comm : entry k i j = entry k j i := by
  induction k with
  | zero => rfl
  | succ k ih =>
    unfold entry
    rw [ih, Bool.and_comm]

theorem entry_add_right {m : ℕ} (h : k ≤ m) : entry k i (2 ^ m + j) = entry k i j := by
  rw [entry_comm, entry_add_left h, entry_comm]

theorem entry_low (hi : i < 2 ^ k) : entry (k + 1) i j = entry k i j := by
  rw [entry, Nat.testBit_lt_two_pow hi, Bool.false_and, if_neg Bool.false_ne_true]

theorem entry_low_low (hi : i < 2 ^ k) : entry (k + 1) i j = entry k i j := entry_low hi

theorem entry_low_high (hi : i < 2 ^ k) : entry (k + 1) i (2 ^ k + j) = entry k i j := by
  rw [entry_low hi, entry_add_right le_rfl]

theorem entry_high_low (hj : j < 2 ^ k) : entry (k + 1) (2 ^ k + i) j = entry k i j := by
  rw [entry_comm, entry_low_high hj, entry_comm]

theorem entry_high_high (hi : i < 2 ^ k) (hj : j < 2 ^ k) :
    entry (k + 1) (2 ^ k + i) (2 ^ k + j) = -entry k i j := by
  have bit {n : ℕ} (h : n < 2 ^ k) : (2 ^ k + n).testBit k = true := by
    rw [Nat.testBit_two_pow_add_eq, Nat.testBit_lt_two_pow h]
    rfl
  rw [entry, bit hi, bit hj, Bool.and_self, if_pos rfl, entry_add_left le_rfl,
    entry_add_right le_rfl]

/-! ## The transform -/

theorem transform_congr (h : ∀ j < 2 ^ k, f j = g j) : transform k f i = transform k g i :=
  Finset.sum_congr rfl fun j mem => by rw [h j (Finset.mem_range.1 mem)]

theorem transform_add : transform k (fun j => f j + g j) i = transform k f i + transform k g i := by
  unfold transform
  rw [← Finset.sum_add_distrib]
  exact Finset.sum_congr rfl fun j _ => mul_add _ _ _

theorem transform_sub : transform k (fun j => f j - g j) i = transform k f i - transform k g i := by
  unfold transform
  rw [← Finset.sum_sub_distrib]
  exact Finset.sum_congr rfl fun j _ => mul_sub _ _ _

theorem transform_mul (c : R) : transform k (fun j => c * f j) i = c * transform k f i := by
  unfold transform
  rw [Finset.mul_sum]
  exact Finset.sum_congr rfl fun j _ => mul_left_comm _ _ _

theorem transform_zero (f : ℕ → R) (i : ℕ) : transform 0 f i = f 0 := by
  simp [transform, entry]

theorem transform_succ_low (hi : i < 2 ^ k) :
    transform (k + 1) f i = transform k f i + transform k (fun j => f (2 ^ k + j)) i := by
  unfold transform
  rw [pow_succ, mul_two, Finset.sum_range_add]
  congr 1
  · exact Finset.sum_congr rfl fun j _ => by rw [entry_low_low hi]
  · exact Finset.sum_congr rfl fun j _ => by rw [entry_low_high hi]

theorem transform_succ_high (hi : i < 2 ^ k) :
    transform (k + 1) f (2 ^ k + i) = transform k f i - transform k (fun j => f (2 ^ k + j)) i := by
  unfold transform
  rw [pow_succ, mul_two, Finset.sum_range_add, sub_eq_add_neg, ← Finset.sum_neg_distrib]
  congr 1
  · refine Finset.sum_congr rfl fun j mem => ?_
    rw [entry_high_low (Finset.mem_range.1 mem)]
  · refine Finset.sum_congr rfl fun j mem => ?_
    rw [entry_high_high hi (Finset.mem_range.1 mem)]
    push_cast
    ring

theorem transform_transform (hi : i < 2 ^ k) : transform k (transform k f) i = 2 ^ k * f i := by
  induction k generalizing i f with
  | zero =>
    obtain rfl : i = 0 := by simpa using hi
    rw [transform_zero, transform_zero]
    ring
  | succ k ih =>
    -- the two halves of the transformed vector
    have low (j : ℕ) (hj : j < 2 ^ k) : transform (k + 1) f j =
        transform k f j + transform k (fun j => f (2 ^ k + j)) j := transform_succ_low hj
    have high (j : ℕ) (hj : j < 2 ^ k) : transform (k + 1) f (2 ^ k + j) =
        transform k f j - transform k (fun j => f (2 ^ k + j)) j := transform_succ_high hj
    rcases Nat.lt_or_ge i (2 ^ k) with lt | ge
    · rw [transform_succ_low lt, transform_congr low, transform_congr high, transform_add,
        transform_sub,
        ih lt, ih lt]
      ring
    · obtain ⟨i, rfl⟩ := Nat.exists_eq_add_of_le ge
      have lt : i < 2 ^ k := by
        rw [pow_succ] at hi
        omega
      rw [transform_succ_high lt, transform_congr low, transform_congr high, transform_add,
        transform_sub,
        ih lt, ih lt]
      ring

end Hadamard

end SimplicioFast
