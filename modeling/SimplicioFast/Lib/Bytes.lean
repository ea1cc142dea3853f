import Mathlib.Data.List.Basic
import Mathlib.Tactic.Ring

/-!
# Byte strings

Fixed-width integers in either byte order (`struct.pack` without alignment), Python slices, and the
hexadecimal text of a byte string.
-/

namespace SimplicioFast

/-- A byte string. -/
abbrev Bytes := List UInt8

namespace Bytes

/-! ## Fixed-width integers -/

/-- The `w` low-order bytes of `n`, least significant first. -/
def packLE : ℕ → ℕ → Bytes
  | 0, _ => []
  | w + 1, n => UInt8.ofNat n :: packLE w (n / 256)

/-- The number whose bytes are `b`, least significant first. -/
def unpackLE : Bytes → ℕ
  | [] => 0
  | x :: b => x.toNat + 256 * unpackLE b

@[simp] theorem length_packLE (w n : ℕ) : (packLE w n).length = w := by
  induction w generalizing n with
  | zero => rfl
  | succ w ih => simp [packLE, ih]

theorem unpackLE_packLE {w n : ℕ} (h : n < 256 ^ w) : unpackLE (packLE w n) = n := by
  induction w generalizing n with
  | zero =>
    rw [pow_zero, Nat.lt_one_iff] at h
    rw [h]
    rfl
  | succ w ih =>
    have hq : n / 256 < 256 ^ w := by
      rw [pow_succ] at h
      exact Nat.div_lt_of_lt_mul (by rwa [mul_comm])
    simp only [packLE, unpackLE, ih hq, UInt8.toNat_ofNat']
    omega

theorem unpackLE_lt (b : Bytes) : unpackLE b < 256 ^ b.length := by
  induction b with
  | nil => simp [unpackLE]
  | cons x b ih =>
    have hx := x.toNat_lt
    simp only [unpackLE, List.length_cons, pow_succ]
    omega

/-- The `w` low-order bytes of `n`, most significant first. -/
def packBE (w n : ℕ) : Bytes := (packLE w n).reverse

/-- The number whose bytes are `b`, most significant first. -/
def unpackBE (b : Bytes) : ℕ := unpackLE b.reverse

@[simp] theorem length_packBE (w n : ℕ) : (packBE w n).length = w := by simp [packBE]

theorem unpackBE_packBE {w n : ℕ} (h : n < 256 ^ w) : unpackBE (packBE w n) = n := by
  rw [unpackBE, packBE, List.reverse_reverse, unpackLE_packLE h]

theorem unpackBE_lt (b : Bytes) : unpackBE b < 256 ^ b.length := by
  rw [unpackBE, ← List.length_reverse]
  exact unpackLE_lt _

/-- The slice `b[i:j]` for `0 ≤ i` and `0 ≤ j`. -/
def slice (b : Bytes) (i j : ℕ) : Bytes := (b.drop i).take (j - i)

theorem slice_append_right (a b : Bytes) (i j : ℕ) :
    slice (a ++ b) (a.length + i) (a.length + j) = slice b i j := by
  simp only [slice, List.drop_append, Nat.add_sub_add_left]
  rw [List.drop_eq_nil_of_le (by omega), List.nil_append]
  congr 2
  omega

theorem slice_append_left {a b : Bytes} {i j : ℕ} (h : j ≤ a.length) :
    slice (a ++ b) i j = slice a i j := by
  simp only [slice]
  rcases le_total i j with hij | hij
  · rw [List.drop_append_of_le_length (by omega), List.take_append_of_le_length]
    rw [List.length_drop]
    omega
  · rw [Nat.sub_eq_zero_of_le hij, List.take_zero, List.take_zero]

@[simp] theorem slice_zero_length (b : Bytes) : slice b 0 b.length = b := by simp [slice]

theorem slice_append_self (a b : Bytes) (n : ℕ) (h : n = b.length) :
    slice (a ++ b) a.length (a.length + n) = b := by
  subst h
  simpa using slice_append_right a b 0 b.length

theorem slice_middle (a b c : Bytes) :
    slice (a ++ b ++ c) a.length (a.length + b.length) = b := by
  rw [slice_append_left (by simp)]
  exact slice_append_self a b _ rfl

theorem slice_skip {a b : Bytes} {n i j : ℕ} (h : a.length = n) (hi : n ≤ i) :
    slice (a ++ b) i j = slice b (i - n) (j - n) := by
  have width : j - i = j - n - (i - n) := by omega
  rw [slice, slice, List.drop_append, h, List.drop_eq_nil_of_le (by omega), List.nil_append, width]

theorem slice_head {a b : Bytes} {n : ℕ} (h : a.length = n) : slice (a ++ b) 0 n = a := by
  rw [slice, List.drop_zero, Nat.sub_zero, List.take_left' h]

theorem slice_slice {b : Bytes} {i j k l : ℕ} (h : i + l ≤ j) :
    slice (slice b i j) k l = slice b (i + k) (i + l) := by
  have inside : l - k ≤ j - i - k := by omega
  have width : i + l - (i + k) = l - k := by omega
  rw [slice, slice, slice, List.drop_take, List.drop_drop, List.take_take, min_eq_left inside,
    width]

/-! ## Hexadecimal text -/

/-- The digits of `bytes.hex`. -/
def hexDigit (n : ℕ) : Char := if n < 10 then Char.ofNat (48 + n) else Char.ofNat (87 + n)

/-- The value of a hexadecimal digit of either case. -/
def hexValue? (c : Char) : Option ℕ :=
  let n := c.toNat
  if 48 ≤ n ∧ n ≤ 57 then some (n - 48)
  else if 97 ≤ n ∧ n ≤ 102 then some (n - 87)
  else if 65 ≤ n ∧ n ≤ 70 then some (n - 55)
  else none

def hex (b : Bytes) : List Char :=
  b.flatMap fun x => [hexDigit (x.toNat / 16), hexDigit (x.toNat % 16)]

/-- The ASCII white space that `bytes.fromhex` skips between bytes. -/
def isHexSpace (c : Char) : Bool := c == ' ' || (9 ≤ c.toNat && c.toNat ≤ 13)

/-- `bytes.fromhex`: pairs of hexadecimal digits, with white space allowed between bytes. -/
def fromHex : List Char → Option Bytes
  | [] => some []
  | [c] => if isHexSpace c then some [] else none
  | c :: d :: rest =>
    if isHexSpace c then fromHex (d :: rest)
    else do
      let hi ← hexValue? c
      let lo ← hexValue? d
      let b ← fromHex rest
      return UInt8.ofNat (16 * hi + lo) :: b

theorem hexValue?_hexDigit : ∀ n < 16, hexValue? (hexDigit n) = some n := by decide

theorem isHexSpace_hexDigit : ∀ n < 16, isHexSpace (hexDigit n) = false := by decide

@[simp] theorem length_hex (b : Bytes) : (hex b).length = 2 * b.length := by
  induction b with
  | nil => rfl
  | cons x b ih =>
    simp only [hex, List.flatMap_cons, List.length_append, List.length_cons, List.length_nil] at ih ⊢
    omega

theorem fromHex_hex (b : Bytes) : fromHex (hex b) = some b := by
  induction b with
  | nil => rfl
  | cons x b ih =>
    have hx := x.toNat_lt
    have hi := hexValue?_hexDigit (x.toNat / 16) (by omega)
    have lo := hexValue?_hexDigit (x.toNat % 16) (by omega)
    have join : 16 * (x.toNat / 16) + x.toNat % 16 = x.toNat := by omega
    change fromHex (hexDigit _ :: hexDigit _ :: hex b) = _
    rw [fromHex, isHexSpace_hexDigit _ (by omega), hi, lo, ih]
    change some (UInt8.ofNat (16 * (x.toNat / 16) + x.toNat % 16) :: b) = _
    rw [join, UInt8.ofNat_toNat]

theorem hex_injective : Function.Injective hex := by
  intro a b h
  have := fromHex_hex a
  rw [h, fromHex_hex b] at this
  exact (Option.some.inj this).symm

end Bytes

end SimplicioFast
