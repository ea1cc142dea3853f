import SimplicioFast.Lib.JsonParse

/-!
# Decimal numerals

`str(n)` tells the integers apart, and it consists of digits with a sign in front.
-/

namespace SimplicioFast

namespace Json

variable {n m : ℤ} {c : PyChar}

theorem writeInt_injective : Function.Injective writeInt := by
  intro n m same
  have alone (k : ℤ) : parseNumber (writeInt k ++ []) = some (.int k, []) := parseNumber_writeInt k trivial
  have read := alone n
  rw [same, alone m] at read
  exact (Json.int.inj (Prod.mk.inj (Option.some.inj read)).1).symm

theorem notMem_writeInt (sign : c ≠ .scalar '-') (digit : ∀ d : Char, d.isDigit = true → c ≠ .scalar d) (n : ℤ) :
    c ∉ writeInt n := by
  intro mem
  obtain ⟨d, inside, rfl⟩ := List.mem_map.1 mem
  rcases List.mem_append.1 inside with minus | digits
  · split at minus
    · cases List.mem_singleton.1 minus
      exact sign rfl
    · exact absurd minus List.not_mem_nil
  · exact digit d (isDigit_of_mem_toDigits d digits) rfl

theorem writeInt_pair_inj {a b a' b' : ℤ} (sign : c ≠ .scalar '-') (digit : ∀ d : Char, d.isDigit = true → c ≠ .scalar d)
    (same : writeInt a ++ c :: writeInt b = writeInt a' ++ c :: writeInt b') : a = a' ∧ b = b' := by
  have absent := notMem_writeInt sign digit
  obtain ⟨first, -, second⟩ := (List.append_cons_inj_of_notMem (absent a) (absent b)).1 same
  exact ⟨writeInt_injective first, writeInt_injective second⟩

end Json

end SimplicioFast
