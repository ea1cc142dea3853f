import SimplicioFast.Lib.Text

/-!
# Base64

The strict decoder of `base64.b64decode(…, validate=True)`: groups of four characters of the
alphabet, the last of which may be padded; and `base64.b64encode`, which it inverts.
-/

namespace SimplicioFast

namespace Base64

/-- The value of a character of the alphabet. -/
def value? (c : PyChar) : Option ℕ :=
  let n := c.code
  if 65 ≤ n ∧ n ≤ 90 then some (n - 65)
  else if 97 ≤ n ∧ n ≤ 122 then some (n - 71)
  else if 48 ≤ n ∧ n ≤ 57 then some (n + 4)
  else if n = 43 then some 62
  else if n = 47 then some 63
  else none

/-- The bytes that a base64 text stands for. -/
def decode : PyStr → Option Bytes
  | [] => some []
  | a :: b :: c :: d :: rest => do
    let v ← value? a
    let w ← value? b
    let first := UInt8.ofNat (v * 4 + w / 16)
    if c = .scalar '=' ∧ d = .scalar '=' then
      if rest = [] then some [first] else none
    else do
      let x ← value? c
      let second := UInt8.ofNat (w % 16 * 16 + x / 4)
      if d = .scalar '=' then
        if rest = [] then some [first, second] else none
      else do
        let y ← value? d
        let more ← decode rest
        return first :: second :: UInt8.ofNat (x % 4 * 64 + y) :: more
  | _ => none

example : decode "aGk=" = some [0x68, 0x69] := by decide +kernel

/-- The character of the alphabet with the given value. -/
def charOf (n : ℕ) : PyChar :=
  .scalar (Char.ofNat (if n < 26 then n + 65 else if n < 52 then n + 71 else if n < 62 then n - 4
    else if n = 62 then 43 else 47))

def encode : Bytes → PyStr
  | [] => []
  | [x] => [charOf (x.toNat / 4), charOf (x.toNat % 4 * 16), .scalar '=', .scalar '=']
  | [x, y] => [charOf (x.toNat / 4), charOf (x.toNat % 4 * 16 + y.toNat / 16), charOf (y.toNat % 16 * 4), .scalar '=']
  | x :: y :: z :: rest =>
    charOf (x.toNat / 4) :: charOf (x.toNat % 4 * 16 + y.toNat / 16) :: charOf (y.toNat % 16 * 4 + z.toNat / 64) ::
      charOf (z.toNat % 64) :: encode rest

theorem value?_charOf : ∀ n < 64, value? (charOf n) = some n := by decide

theorem charOf_ne_pad : ∀ n < 64, charOf n ≠ .scalar '=' := by decide

theorem ofNat_eq {n : ℕ} {x : UInt8} (h : n = x.toNat) : UInt8.ofNat n = x := by
  rw [h, UInt8.ofNat_toNat]

theorem decode_encode (b : Bytes) : decode (encode b) = some b := by
  fun_induction encode b with
  | case1 => rfl
  | case2 x =>
    have hx := x.toNat_lt
    have first := value?_charOf (x.toNat / 4) (by omega)
    have second := value?_charOf (x.toNat % 4 * 16) (by omega)
    simp only [decode, first, second, Option.bind_eq_bind, Option.bind_some, and_self, if_true]
    exact congrArg (fun a => some [a]) (ofNat_eq (by omega))
  | case3 x y =>
    have hx := x.toNat_lt
    have hy := y.toNat_lt
    have first := value?_charOf (x.toNat / 4) (by omega)
    have second := value?_charOf (x.toNat % 4 * 16 + y.toNat / 16) (by omega)
    have third := value?_charOf (y.toNat % 16 * 4) (by omega)
    have apart := charOf_ne_pad (y.toNat % 16 * 4) (by omega)
    simp only [decode, first, second, third, apart, false_and, if_false, Option.bind_eq_bind, Option.bind_some,
      if_true]
    exact congrArg₂ (fun a b => some [a, b]) (ofNat_eq (by omega)) (ofNat_eq (by omega))
  | case4 x y z rest ih =>
    have hx := x.toNat_lt
    have hy := y.toNat_lt
    have hz := z.toNat_lt
    have first := value?_charOf (x.toNat / 4) (by omega)
    have second := value?_charOf (x.toNat % 4 * 16 + y.toNat / 16) (by omega)
    have third := value?_charOf (y.toNat % 16 * 4 + z.toNat / 64) (by omega)
    have fourth := value?_charOf (z.toNat % 64) (by omega)
    have apart := charOf_ne_pad (y.toNat % 16 * 4 + z.toNat / 64) (by omega)
    have apart' := charOf_ne_pad (z.toNat % 64) (by omega)
    simp only [decode, first, second, third, fourth, apart, apart', false_and, if_false, Option.bind_eq_bind,
      Option.bind_some, ih]
    have a : UInt8.ofNat (x.toNat / 4 * 4 + (x.toNat % 4 * 16 + y.toNat / 16) / 16) = x := ofNat_eq (by omega)
    have b : UInt8.ofNat ((x.toNat % 4 * 16 + y.toNat / 16) % 16 * 16 + (y.toNat % 16 * 4 + z.toNat / 64) / 4) = y :=
      ofNat_eq (by omega)
    have c : UInt8.ofNat ((y.toNat % 16 * 4 + z.toNat / 64) % 4 * 64 + z.toNat % 64) = z := ofNat_eq (by omega)
    rw [a, b, c]
    rfl

end Base64

end SimplicioFast
