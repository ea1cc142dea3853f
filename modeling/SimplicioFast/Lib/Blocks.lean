import Mathlib.Data.List.Basic

/-!
# Blocks of a fixed size

A stream that comes in chunks is regrouped into blocks: a buffer takes the chunks, whole blocks leave it from its front,
and what is left at the end is a shorter block.  The blocks are those of the concatenation (`regroup_eq_chop`).
-/

namespace SimplicioFast

namespace Blocks

variable {α : Type*} {n fuel : ℕ} {b c rest : List α} {bs : List (List α)}

/-- The loop that takes whole blocks from a buffer: the blocks, and what is left of the buffer. -/
def takeWhole (n : ℕ) : ℕ → List α → List (List α) × List α
  | 0, b => ([], b)
  | fuel + 1, b =>
    if n ≤ b.length then (b.take n :: (takeWhole n fuel (b.drop n)).1, (takeWhole n fuel (b.drop n)).2) else ([], b)

/-- The whole blocks at the front of a buffer; each has an element, so there are at most as many as elements. -/
def whole (n : ℕ) (b : List α) : List (List α) × List α := takeWhole n b.length b

def tail (b : List α) : List (List α) := if b = [] then [] else [b]

/-- The blocks of chunks that follow what is in the buffer. -/
def regroup (n : ℕ) : List α → List (List α) → List (List α)
  | pending, [] => tail pending
  | pending, chunk :: chunks => (whole n (pending ++ chunk)).1 ++ regroup n (whole n (pending ++ chunk)).2 chunks

def chop (n : ℕ) (b : List α) : List (List α) := (whole n b).1 ++ tail (whole n b).2

/-! ## Whole blocks -/

theorem takeWhole_congr (pos : 0 < n) {fuel' : ℕ} (enough : b.length ≤ fuel) (enough' : b.length ≤ fuel') :
    takeWhole n fuel b = takeWhole n fuel' b := by
  induction fuel generalizing b fuel' with
  | zero =>
    obtain rfl := List.eq_nil_of_length_eq_zero (Nat.le_zero.1 enough)
    cases fuel' with
    | zero => rfl
    | succ fuel' => exact (if_neg (Nat.not_le.2 pos)).symm
  | succ fuel ih =>
    cases fuel' with
    | zero =>
      obtain rfl := List.eq_nil_of_length_eq_zero (Nat.le_zero.1 enough')
      exact if_neg (Nat.not_le.2 pos)
    | succ fuel' =>
      rw [takeWhole, takeWhole]
      have drop : (b.drop n).length = b.length - n := List.length_drop
      rw [@ih (b.drop n) fuel' (by omega) (by omega)]

theorem whole_of_lt (short : b.length < n) : whole n b = ([], b) := by
  unfold whole
  cases b with
  | nil => rfl
  | cons a b => rw [List.length_cons, takeWhole, if_neg (Nat.not_le.2 short)]

theorem whole_of_le (pos : 0 < n) (long : n ≤ b.length) :
    whole n b = (b.take n :: (whole n (b.drop n)).1, (whole n (b.drop n)).2) := by
  have drop : (b.drop n).length = b.length - n := List.length_drop
  obtain ⟨fuel, length⟩ : ∃ fuel, b.length = fuel + 1 := ⟨b.length - 1, by omega⟩
  unfold whole
  rw [length, takeWhole, if_pos long, takeWhole_congr pos (b := b.drop n)
    (by omega) (Nat.le_refl _)]

theorem length_whole_lt (pos : 0 < n) (b : List α) : (whole n b).2.length < n := by
  induction length : b.length using Nat.strongRecOn generalizing b with
  | ind m ih =>
    by_cases long : n ≤ b.length
    · rw [whole_of_le pos long]
      have drop : (b.drop n).length = b.length - n := List.length_drop
      exact ih (b.drop n).length (by omega) (b.drop n) rfl
    · rw [whole_of_lt (by omega)]
      show b.length < n
      omega

theorem whole_append (pos : 0 < n) (b c : List α) :
    whole n (b ++ c) = ((whole n b).1 ++ (whole n ((whole n b).2 ++ c)).1, (whole n ((whole n b).2 ++ c)).2) := by
  induction length : b.length using Nat.strongRecOn generalizing b with
  | ind m ih =>
    by_cases long : n ≤ b.length
    · have drop : (b.drop n).length = b.length - n := List.length_drop
      have more : n ≤ (b ++ c).length := by
        rw [List.length_append]
        omega
      rw [whole_of_le pos more, whole_of_le pos long, List.take_append_of_le_length long,
        List.drop_append_of_le_length long, ih (b.drop n).length (by omega) (b.drop n) rfl]
      rfl
    · rw [whole_of_lt (b := b) (by omega)]
      rfl

/-! ## The blocks of a stream -/

theorem regroup_eq_chop (pos : 0 < n) {pending : List α} (short : pending.length < n) (chunks : List (List α)) :
    regroup n pending chunks = chop n (pending ++ chunks.flatten) := by
  induction chunks generalizing pending with
  | nil =>
    rw [List.flatten_nil, List.append_nil, chop, whole_of_lt short]
    rfl
  | cons chunk chunks ih =>
    rw [regroup, ih (length_whole_lt pos _), List.flatten_cons, ← List.append_assoc, chop, chop,
      whole_append pos (pending ++ chunk), List.append_assoc]

theorem flatten_tail (b : List α) : (tail b).flatten = b := by
  unfold tail
  split
  · rename_i none
    rw [none, List.flatten_nil]
  · simp

theorem flatten_whole (pos : 0 < n) (b : List α) : (whole n b).1.flatten ++ (whole n b).2 = b := by
  induction length : b.length using Nat.strongRecOn generalizing b with
  | ind m ih =>
    by_cases long : n ≤ b.length
    · have drop : (b.drop n).length = b.length - n := List.length_drop
      rw [whole_of_le pos long, List.flatten_cons, List.append_assoc, ih (b.drop n).length (by omega) (b.drop n) rfl,
        List.take_append_drop]
    · rw [whole_of_lt (by omega)]
      rfl

@[simp] theorem flatten_chop (pos : 0 < n) (b : List α) : (chop n b).flatten = b := by
  rw [chop, List.flatten_append, flatten_tail, flatten_whole pos]

theorem length_of_mem_whole (pos : 0 < n) (mem : c ∈ (whole n b).1) : c.length = n := by
  induction length : b.length using Nat.strongRecOn generalizing b with
  | ind m ih =>
    by_cases long : n ≤ b.length
    · have drop : (b.drop n).length = b.length - n := List.length_drop
      rw [whole_of_le pos long] at mem
      rcases List.mem_cons.1 mem with rfl | mem
      · exact List.length_take_of_le long
      · exact ih (b.drop n).length (by omega) mem rfl
    · rw [whole_of_lt (by omega)] at mem
      cases mem

theorem ne_nil_of_mem_tail (mem : c ∈ tail b) : c ≠ [] := by
  unfold tail at mem
  split at mem
  · cases mem
  · rename_i some
    rw [List.mem_singleton.1 mem]
    exact some

theorem ne_nil_of_mem_chop (pos : 0 < n) (mem : c ∈ chop n b) : c ≠ [] := by
  rcases List.mem_append.1 mem with mem | mem
  · rintro rfl
    have := length_of_mem_whole pos mem
    rw [List.length_nil] at this
    omega
  · exact ne_nil_of_mem_tail mem

theorem length_chop (pos : 0 < n) (b : List α) :
    (chop n b).length = b.length / n + if b.length % n = 0 then 0 else 1 := by
  induction length : b.length using Nat.strongRecOn generalizing b with
  | ind m ih =>
    by_cases long : n ≤ b.length
    · have drop : (b.drop n).length = m - n := by rw [List.length_drop, length]
      have step := ih (m - n) (by omega) (b.drop n) drop
      have quotient : m / n = (m - n) / n + 1 := by rw [Nat.div_eq_sub_div pos (by omega)]
      have remainder : m % n = (m - n) % n := Nat.mod_eq_sub_mod (by omega)
      have first : (chop n b).length = (chop n (b.drop n)).length + 1 := by
        rw [chop, whole_of_le pos long]
        rfl
      rw [first, step, quotient, remainder]
      omega
    · have short : b.length < n := by omega
      rw [chop, whole_of_lt short, List.nil_append, tail, ← length, Nat.div_eq_of_lt short, Nat.mod_eq_of_lt short]
      by_cases none : b = []
      · rw [none]
        rfl
      · rw [if_neg none, if_neg fun zero => none (List.eq_nil_of_length_eq_zero zero)]
        rfl

end Blocks

end SimplicioFast
