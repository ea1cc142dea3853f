import Mathlib.Data.List.Basic

/-!
# ASCII literals

The kernel decodes the bytes of a string step by step, which takes long for the literals in an evaluation.  The
characters of an ASCII string are its bytes (`toList_eq_asciiChars`).
-/

namespace SimplicioFast

namespace Literals

def bytesOf (s : String) : List UInt8 := s.toByteArray.data.toList

/-- Whether all bytes of a string are ASCII codes. -/
def isAscii (s : String) : Bool := (bytesOf s).all fun b => b.toNat < 128

/-- The characters whose codes are the bytes of a string. -/
def asciiChars (s : String) : List Char := (bytesOf s).map fun b => Char.ofNat b.toNat

theorem bytesOf_ofList (l : List Char) : bytesOf (String.ofList l) = l.flatMap String.utf8EncodeChar := by
  unfold bytesOf
  rw [String.toByteArray_ofList, List.utf8Encode, List.data_toByteArray]

theorem utf8EncodeChar_cases (c : Char) :
    (∃ b : UInt8, String.utf8EncodeChar c = [b] ∧ Char.ofNat b.toNat = c) ∨
      ∃ b l, String.utf8EncodeChar c = b :: l ∧ 128 ≤ b.toNat := by
  have size : UInt8.size = 256 := rfl
  unfold String.utf8EncodeChar
  dsimp only
  split_ifs with one two three
  · refine .inl ⟨_, rfl, ?_⟩
    rw [UInt8.toNat_ofNat_of_lt' (by omega)]
    exact Char.ofNat_toNat c
  · refine .inr ⟨_, _, rfl, ?_⟩
    rw [UInt8.toNat_ofNat_of_lt' (by omega)]
    omega
  · refine .inr ⟨_, _, rfl, ?_⟩
    rw [UInt8.toNat_ofNat_of_lt' (by omega)]
    omega
  · refine .inr ⟨_, _, rfl, ?_⟩
    rw [UInt8.toNat_ofNat_of_lt' (by omega)]
    omega

theorem toList_eq_asciiChars {s : String} (ascii : isAscii s = true) : s.toList = asciiChars s := by
  obtain ⟨l, rfl⟩ : ∃ l, s = String.ofList l := ⟨s.toList, String.ofList_toList.symm⟩
  unfold isAscii at ascii
  unfold asciiChars
  rw [bytesOf_ofList] at ascii ⊢
  rw [String.toList_ofList]
  induction l with
  | nil => rfl
  | cons c l ih =>
    rw [List.flatMap_cons, List.all_append, Bool.and_eq_true] at ascii
    rw [List.flatMap_cons, List.map_append, ← ih ascii.2]
    rcases utf8EncodeChar_cases c with ⟨b, encoded, code⟩ | ⟨b, rest, encoded, large⟩
    · rw [encoded, List.map_singleton, code]
      rfl
    · rw [encoded, List.all_cons, Bool.and_eq_true, decide_eq_true_eq] at ascii
      omega

end Literals

end SimplicioFast
