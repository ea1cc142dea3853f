import SimplicioFast.Lib.Utf8

/-!
# The order of UTF-8

Texts of scalar values are in the same order by their code points as by their UTF-8 bytes
(`utf8_lt_iff`).
-/

namespace SimplicioFast

namespace PyStr

variable {a b : List Char} {m n : ℕ}

theorem encodeCode_append_lt (less : m < n) (small : n < 0x110000) (r r' : Bytes) :
    encodeCode m ++ r < encodeCode n ++ r' := by
  have digits (k : ℕ) : k / 4096 = 64 * (k / 262144) + k / 4096 % 64 ∧
      k / 64 = 64 * (k / 4096) + k / 64 % 64 ∧ k = 64 * (k / 64) + k % 64 := by
    have fold : k / 4096 / 64 = k / 262144 ∧ k / 64 / 64 = k / 4096 := by
      rw [Nat.div_div_eq_div_mul, Nat.div_div_eq_div_mul]
      exact ⟨rfl, rfl⟩
    omega
  have first := digits m
  have second := digits n
  unfold encodeCode
  split_ifs <;>
    simp (disch := omega) only [List.cons_append, List.nil_append, List.cons_lt_cons_iff,
      UInt8.lt_iff_toNat_lt, ← UInt8.toNat_inj, UInt8.toNat_ofNat', Nat.mod_eq_of_lt] <;>
    omega

theorem utf8_lt_of_lt (less : a < b) : utf8 a < utf8 b := by
  induction a generalizing b with
  | nil =>
    cases b with
    | nil => exact absurd less (List.not_lt_nil _)
    | cons d b =>
      obtain ⟨x, rest, bytes⟩ : ∃ x rest, encodeCode d.toNat = x :: rest := by
        unfold encodeCode
        split_ifs <;> exact ⟨_, _, rfl⟩
      rw [utf8_cons, bytes]
      exact List.nil_lt_cons _ _
  | cons c a ih =>
    cases b with
    | nil => exact absurd less (List.not_lt_nil _)
    | cons d b =>
      rw [utf8_cons, utf8_cons]
      rcases List.cons_lt_cons_iff.1 less with first | ⟨rfl, rest⟩
      · have valid := PyChar.toNat_scalar d
        have small : d.toNat < 0x110000 := by omega
        exact encodeCode_append_lt (UInt32.lt_iff_toNat_lt.1 first) small _ _
      · exact List.append_left_lt (ih rest)

theorem utf8_lt_iff : utf8 a < utf8 b ↔ a < b := by
  refine ⟨fun less => ?_, utf8_lt_of_lt⟩
  rcases lt_trichotomy a b with h | rfl | h
  · exact h
  · exact absurd less (List.lt_irrefl _)
  · exact absurd (utf8_lt_of_lt h) (List.lt_asymm less)

theorem scalar_lt_iff {c d : Char} : PyChar.scalar c < PyChar.scalar d ↔ c < d := by
  show c.toNat < d.toNat ↔ c < d
  exact UInt32.lt_iff_toNat_lt.symm

theorem ofChars_lt_iff : ofChars a < ofChars b ↔ a < b := by
  unfold ofChars
  induction a generalizing b with
  | nil =>
    cases b with
    | nil => exact iff_of_false (List.not_lt_nil _) (List.not_lt_nil _)
    | cons d b => exact iff_of_true (List.nil_lt_cons _ _) (List.nil_lt_cons _ _)
  | cons c a ih =>
    cases b with
    | nil => exact iff_of_false (List.not_lt_nil _) (List.not_lt_nil _)
    | cons d b =>
      rw [List.map_cons, List.map_cons, List.cons_lt_cons_iff, List.cons_lt_cons_iff, ih,
        PyChar.scalar.injEq, scalar_lt_iff]

end PyStr

end SimplicioFast
