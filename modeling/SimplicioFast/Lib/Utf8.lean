import SimplicioFast.Lib.Text

/-!
# Cutting UTF-8

A text that was decoded from UTF-8 is a list of scalar values.  `bytes.decode("utf-8", errors="ignore")` of the first
`n` bytes of its encoding gives the longest prefix of the text whose encoding has at most `n` bytes (`fit`).
-/

namespace SimplicioFast

namespace PyStr

variable {c : Char} {l : List Char} {b : Bytes} {k m n : ℕ}

def utf8 (l : List Char) : Bytes := l.flatMap fun c => encodeCode c.toNat

/-- The number of UTF-8 bytes of a scalar value. -/
def utf8Width (c : Char) : ℕ := (encodeCode c.toNat).length

@[simp] theorem utf8_nil : utf8 [] = [] := rfl

@[simp] theorem utf8_cons : utf8 (c :: l) = encodeCode c.toNat ++ utf8 l := rfl

@[simp] theorem utf8_append (l l' : List Char) : utf8 (l ++ l') = utf8 l ++ utf8 l' := List.flatMap_append

@[simp] theorem decodeChars_utf8 (l : List Char) : decodeChars (utf8 l) = some l := by
  have step := decodeChars_flatMap l []
  rwa [List.append_nil, decodeChars, Option.map_some, List.append_nil] at step

theorem utf8Width_pos (c : Char) : 0 < utf8Width c := by
  unfold utf8Width encodeCode
  split_ifs <;> simp

theorem utf8Width_le (c : Char) : utf8Width c ≤ 4 := by
  unfold utf8Width encodeCode
  split_ifs <;> simp

/-! ## The prefix that fits -/

/-- The longest prefix whose encoding has at most `n` bytes. -/
def fit (n : ℕ) : List Char → List Char
  | [] => []
  | c :: l => if utf8Width c ≤ n then c :: fit (n - utf8Width c) l else []

theorem fit_prefix (n : ℕ) (l : List Char) : fit n l <+: l := by
  induction l generalizing n with
  | nil => exact List.nil_prefix
  | cons c l ih =>
    rw [fit]
    split_ifs
    · exact (List.prefix_cons_inj c).2 (ih _)
    · exact List.nil_prefix

theorem length_utf8_fit_le (n : ℕ) (l : List Char) : (utf8 (fit n l)).length ≤ n := by
  induction l generalizing n with
  | nil => exact Nat.zero_le n
  | cons c l ih =>
    rw [fit]
    split_ifs with fits
    · have rest := ih (n - utf8Width c)
      rw [utf8_cons, List.length_append]
      show utf8Width c + _ ≤ n
      omega
    · exact Nat.zero_le n

theorem fit_of_le (fits : (utf8 l).length ≤ n) : fit n l = l := by
  induction l generalizing n with
  | nil => rfl
  | cons c l ih =>
    rw [utf8_cons, List.length_append] at fits
    rw [fit, utf8Width, if_pos (by omega), ih (by omega)]

/-! ## Decoding with `errors="ignore"` -/

/-- The scalar value at the front of the bytes, with its number of bytes. -/
def headChar? (b : Bytes) : Option (Char × ℕ) :=
  [1, 2, 3, 4].findSome? fun k => match decodeChars (b.take k) with
    | some [c] => some (c, k)
    | _ => none

/-- The scan of `decodeIgnore`; `skip` counts the bytes of the current character that are left. -/
def decodeIgnoreFrom : ℕ → Bytes → List Char
  | _, [] => []
  | skip + 1, _ :: rest => decodeIgnoreFrom skip rest
  | 0, b :: rest => match headChar? (b :: rest) with
    | some (c, k) => c :: decodeIgnoreFrom (k - 1) rest
    | none => decodeIgnoreFrom 0 rest

/-- `bytes.decode("utf-8", errors="ignore")`: bytes that begin no character are left out. -/
def decodeIgnore (b : Bytes) : List Char := decodeIgnoreFrom 0 b

theorem decodeIgnoreFrom_eq (k : ℕ) (b : Bytes) : decodeIgnoreFrom k b = decodeIgnore (b.drop k) := by
  induction b generalizing k with
  | nil => rw [List.drop_nil, decodeIgnore, decodeIgnoreFrom, decodeIgnoreFrom]
  | cons x b ih =>
    cases k with
    | zero => rfl
    | succ k => rw [decodeIgnoreFrom, ih, List.drop_succ_cons]

theorem decodeChars_of_isTail {x : UInt8} (tail : isTail x = true) (b : Bytes) : decodeChars (x :: b) = none := by
  simp only [isTail, Bool.and_eq_true, decide_eq_true_eq] at tail
  have high : ¬ x.toNat < 0x80 := by omega
  have two : ¬ (0xC2 ≤ x.toNat ∧ x.toNat < 0xE0) := by omega
  have three : ¬ (0xE0 ≤ x.toNat ∧ x.toNat < 0xF0) := by omega
  have four : ¬ 0xF0 ≤ x.toNat := by omega
  rw [decodeChars.eq_def]
  simp only [high, two, three, four, if_false, false_and]
  split
  · rfl
  · split_ifs
    · rfl
    · split
      · rfl
      · split_ifs
        · rfl
        · split
          · rfl
          · split_ifs <;> rfl

theorem headChar?_of_isTail {x : UInt8} (tail : isTail x = true) (b : Bytes) : headChar? (x :: b) = none := by
  simp only [headChar?, List.findSome?, List.take_succ_cons, decodeChars_of_isTail tail]

theorem decodeIgnore_of_isTail (tails : ∀ x ∈ b, isTail x = true) : decodeIgnore b = [] := by
  induction b with
  | nil => rfl
  | cons x b ih =>
    obtain ⟨first, rest⟩ := List.forall_mem_cons.1 tails
    rw [decodeIgnore, decodeIgnoreFrom, headChar?_of_isTail first]
    exact ih rest

theorem isTail_of_mem_tail (c : Char) : ∀ x ∈ (encodeCode c.toNat).tail, isTail x = true := by
  unfold encodeCode
  split_ifs <;> simp only [List.tail_cons, List.forall_mem_cons, isTail_tail, List.not_mem_nil,
    false_implies, implies_true, and_self]

theorem decodeChars_take_encodeCode (c : Char) (pos : 0 < k) (short : k < utf8Width c) :
    decodeChars ((encodeCode c.toNat).take k) = none := by
  have valid := PyChar.toNat_scalar c
  unfold utf8Width encodeCode at short
  unfold encodeCode
  split_ifs at short ⊢ with one two three
  · simp only [List.length_singleton] at short
    omega
  · have lead := toNat_ofNat_of_lt (by omega : 0xC0 + c.toNat / 64 < 256)
    obtain rfl : k = 1 := by
      simp only [List.length_cons, List.length_nil] at short
      omega
    rw [List.take_succ_cons, List.take_zero, decodeChars.eq_def]
    simp only [lead]
    rw [if_neg (by omega)]
  · have lead := toNat_ofNat_of_lt (by omega : 0xE0 + c.toNat / 4096 < 256)
    simp only [List.length_cons, List.length_nil] at short
    obtain rfl | rfl : k = 1 ∨ k = 2 := by omega
    · rw [List.take_succ_cons, List.take_zero, decodeChars.eq_def]
      simp only [lead]
      rw [if_neg (by omega)]
    · rw [List.take_succ_cons, List.take_succ_cons, List.take_zero, decodeChars.eq_def]
      simp only [lead, isTail_tail, Bool.true_eq_false, if_false]
      rw [if_neg (by omega), if_neg (by omega)]
  · have lead := toNat_ofNat_of_lt (by omega : 0xF0 + c.toNat / 262144 < 256)
    simp only [List.length_cons, List.length_nil] at short
    obtain rfl | rfl | rfl : k = 1 ∨ k = 2 ∨ k = 3 := by omega
    · rw [List.take_succ_cons, List.take_zero, decodeChars.eq_def]
      simp only [lead]
      rw [if_neg (by omega)]
    · rw [List.take_succ_cons, List.take_succ_cons, List.take_zero, decodeChars.eq_def]
      simp only [lead, isTail_tail, Bool.true_eq_false, if_false]
      rw [if_neg (by omega), if_neg (by omega)]
    · rw [List.take_succ_cons, List.take_succ_cons, List.take_succ_cons, List.take_zero, decodeChars.eq_def]
      simp only [lead, isTail_tail, Bool.true_eq_false, if_false]
      rw [if_neg (by omega), if_neg (by omega), if_neg (by omega)]

theorem headChar?_encodeCode (c : Char) (rest : Bytes) :
    headChar? (encodeCode c.toNat ++ rest) = some (c, utf8Width c) := by
  have whole : decodeChars ((encodeCode c.toNat ++ rest).take (utf8Width c)) = some [c] := by
    rw [utf8Width, List.take_left, ← List.append_nil (encodeCode _), decodeChars_encodeCode]
    rfl
  have part {k : ℕ} (pos : 0 < k) (short : k < utf8Width c) :
      decodeChars ((encodeCode c.toNat ++ rest).take k) = none := by
    rw [List.take_append_of_le_length short.le, decodeChars_take_encodeCode c pos short]
  have pos := utf8Width_pos c
  have le := utf8Width_le c
  generalize utf8Width c = w at *
  unfold headChar?
  obtain rfl | rfl | rfl | rfl : w = 1 ∨ w = 2 ∨ w = 3 ∨ w = 4 := by omega
  · rw [List.findSome?, whole]
  · rw [List.findSome?, part (by omega) (by omega), List.findSome?, whole]
  · rw [List.findSome?, part (by omega) (by omega), List.findSome?, part (by omega) (by omega), List.findSome?, whole]
  · rw [List.findSome?, part (by omega) (by omega), List.findSome?, part (by omega) (by omega), List.findSome?,
      part (by omega) (by omega), List.findSome?, whole]

theorem decodeIgnore_encodeCode (c : Char) (rest : Bytes) :
    decodeIgnore (encodeCode c.toNat ++ rest) = c :: decodeIgnore rest := by
  obtain ⟨x, front, split⟩ : ∃ x front, encodeCode c.toNat = x :: front :=
    List.exists_cons_of_length_pos (utf8Width_pos c)
  have width : utf8Width c - 1 = front.length := by
    rw [utf8Width, split, List.length_cons, Nat.add_sub_cancel]
  have head := headChar?_encodeCode c rest
  rw [split, List.cons_append] at head ⊢
  rw [decodeIgnore, decodeIgnoreFrom, head]
  show c :: decodeIgnoreFrom (utf8Width c - 1) (front ++ rest) = _
  rw [decodeIgnoreFrom_eq, width, List.drop_left]

theorem decodeIgnore_take_encodeCode (c : Char) (short : n < utf8Width c) :
    decodeIgnore ((encodeCode c.toNat).take n) = [] := by
  cases n with
  | zero => rfl
  | succ n =>
    obtain ⟨x, front, split⟩ : ∃ x front, encodeCode c.toNat = x :: front :=
      List.exists_cons_of_length_pos (utf8Width_pos c)
    have head : headChar? (x :: front.take n) = none := by
      rw [← List.take_succ_cons, ← split, headChar?, List.findSome?_eq_none_iff]
      intro k mem
      have pos : 0 < k := by
        simp only [List.mem_cons, List.not_mem_nil, or_false] at mem
        omega
      rw [List.take_take, decodeChars_take_encodeCode c (by omega) (by omega)]
    have tails := isTail_of_mem_tail c
    rw [split, List.tail_cons] at tails
    rw [split, List.take_succ_cons, decodeIgnore, decodeIgnoreFrom, head]
    exact decodeIgnore_of_isTail fun x mem => tails x (List.mem_of_mem_take mem)

/-- Decoding the first `n` bytes of a text gives the prefix that fits into them. -/
theorem decodeIgnore_take_utf8 (n : ℕ) (l : List Char) : decodeIgnore ((utf8 l).take n) = fit n l := by
  induction l generalizing n with
  | nil =>
    rw [utf8_nil, List.take_nil]
    rfl
  | cons c l ih =>
    rw [utf8_cons, fit]
    split_ifs with fits
    · rw [List.take_append, List.take_of_length_le fits, decodeIgnore_encodeCode, ih]
      rfl
    · rw [List.take_append_of_le_length (not_le.1 fits).le, decodeIgnore_take_encodeCode c (not_le.1 fits)]

end PyStr

end SimplicioFast
