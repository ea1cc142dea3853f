import Mathlib.Data.List.Lex
import Mathlib.Data.List.Dedup
import Mathlib.Data.List.Sort
import Mathlib.Data.Char
import SimplicioFast.Lib.Bytes

/-!
# Python text

A Python `str` is a sequence of code points, and a code point is a Unicode scalar value or a lone
surrogate.  UTF-8 encodes exactly the strings without lone surrogates.
-/

namespace SimplicioFast

/-- One code point of a Python `str`. -/
inductive PyChar
  | scalar (c : Char)
  | surrogate (n : Fin 2048)
deriving DecidableEq, Repr

/-- A Python `str`. -/
abbrev PyStr := List PyChar

instance : LawfulBEq PyStr := inferInstance

namespace PyChar

def code : PyChar → ℕ
  | .scalar c => c.toNat
  | .surrogate n => 0xD800 + n

theorem toNat_scalar (c : Char) :
    c.toNat < 0xD800 ∨ (0xDFFF < c.toNat ∧ c.toNat < 0x110000) := c.valid

theorem code_injective : Function.Injective code := by
  intro a b h
  cases a with
  | scalar c =>
    cases b with
    | scalar d => exact congrArg scalar (Char.toNat_inj.1 h)
    | surrogate n =>
      have hc := toNat_scalar c
      simp only [code] at h
      omega
  | surrogate m =>
    cases b with
    | scalar d =>
      have hd := toNat_scalar d
      simp only [code] at h
      omega
    | surrogate n =>
      simp only [code, Nat.add_left_cancel_iff] at h
      exact congrArg surrogate (Fin.ext h)

instance : LinearOrder PyChar := LinearOrder.lift' code code_injective

/-- The code point is a high surrogate. -/
def IsHigh (c : PyChar) : Prop := 0xD800 ≤ c.code ∧ c.code < 0xDC00

def IsLow (c : PyChar) : Prop := 0xDC00 ≤ c.code ∧ c.code < 0xE000

instance (c : PyChar) : Decidable c.IsHigh := by
  unfold IsHigh
  infer_instance

instance (c : PyChar) : Decidable c.IsLow := by
  unfold IsLow
  infer_instance

theorem not_isHigh_scalar (c : Char) : ¬ (scalar c).IsHigh := by
  have valid := toNat_scalar c
  simp only [IsHigh, code]
  omega

end PyChar

namespace PyStr

/-- The Python string without lone surrogates that consists of the given scalar values. -/
def ofChars (l : List Char) : PyStr := l.map .scalar

instance : Coe String PyStr := ⟨fun s => ofChars s.toList⟩

/-- The scalar values of a string, when it holds no lone surrogate. -/
def chars? : PyStr → Option (List Char)
  | [] => some []
  | .scalar c :: s => (chars? s).map (c :: ·)
  | .surrogate _ :: _ => none

theorem ofChars_injective : Function.Injective ofChars :=
  List.map_injective_iff.2 fun _ _ e => PyChar.scalar.inj e

@[simp] theorem chars?_ofChars (l : List Char) : chars? (ofChars l) = some l := by
  induction l with
  | nil => rfl
  | cons c l ih =>
    change (chars? (ofChars l)).map (c :: ·) = _
    rw [ih]
    rfl

theorem chars?_eq_some_iff (s : PyStr) (l : List Char) : chars? s = some l ↔ s = ofChars l := by
  constructor
  · intro h
    induction s generalizing l with
    | nil =>
      cases h
      rfl
    | cons c s ih =>
      cases c with
      | scalar c =>
        obtain ⟨l', hl', rfl⟩ := Option.map_eq_some_iff.1 h
        rw [ih l' hl']
        rfl
      | surrogate n => cases h
  · rintro rfl
    exact chars?_ofChars l

/-- No high surrogate stands directly before a low one. -/
def Unpaired (s : PyStr) : Prop := s.IsChain fun c d => ¬ (c.IsHigh ∧ d.IsLow)

theorem Unpaired.of_cons {c : PyChar} {s : PyStr} (h : Unpaired (c :: s)) : Unpaired s := by
  cases s with
  | nil => exact .nil
  | cons d s => exact (List.isChain_cons_cons.1 h).2

theorem unpaired_ofChars (l : List Char) : (ofChars l).Unpaired := by
  induction l with
  | nil => exact .nil
  | cons c l ih =>
    cases l with
    | nil => exact .singleton _
    | cons d l => exact .cons_cons (fun h => PyChar.not_isHigh_scalar c h.1) ih

/-- Whether the text is a lower-case SHA-256 digest: 64 characters of `[0-9a-f]`. -/
def isSha256 (s : PyStr) : Bool :=
  s.length = 64 && s.all fun c => match c with
    | .scalar c => c.isDigit || ('a' ≤ c && c ≤ 'f')
    | .surrogate _ => false

/-! ## UTF-8 -/

/-- The UTF-8 bytes of the scalar value `n`. -/
def encodeCode (n : ℕ) : Bytes :=
  if n < 0x80 then [UInt8.ofNat n]
  else if n < 0x800 then [UInt8.ofNat (0xC0 + n / 64), UInt8.ofNat (0x80 + n % 64)]
  else if n < 0x10000 then
    [UInt8.ofNat (0xE0 + n / 4096), UInt8.ofNat (0x80 + n / 64 % 64), UInt8.ofNat (0x80 + n % 64)]
  else
    [UInt8.ofNat (0xF0 + n / 262144), UInt8.ofNat (0x80 + n / 4096 % 64),
      UInt8.ofNat (0x80 + n / 64 % 64), UInt8.ofNat (0x80 + n % 64)]

/-- `str.encode("utf-8")`, which raises on a lone surrogate. -/
def encode (s : PyStr) : Option Bytes :=
  (chars? s).map fun l => l.flatMap fun c => encodeCode c.toNat

/-- Whether the byte continues a multi-byte sequence. -/
def isTail (b : UInt8) : Bool := 0x80 ≤ b.toNat && b.toNat < 0xC0

/-- The scalar value of a three-byte sequence: neither overlong nor a surrogate. -/
def isThree (n : ℕ) : Bool := 0x800 ≤ n && (n < 0xD800 || 0xDFFF < n)

/-- The scalar value of a four-byte sequence: neither overlong nor past the last code point. -/
def isFour (n : ℕ) : Bool := 0x10000 ≤ n && n < 0x110000

/-- The scalar values of a strictly valid UTF-8 byte string. -/
def decodeChars : Bytes → Option (List Char)
  | [] => some []
  | b₀ :: rest =>
    if b₀.toNat < 0x80 then (decodeChars rest).map (Char.ofNat b₀.toNat :: ·)
    else match rest with
    | [] => none
    | b₁ :: rest =>
      if isTail b₁ = false then none
      else if 0xC2 ≤ b₀.toNat ∧ b₀.toNat < 0xE0 then
        (decodeChars rest).map (Char.ofNat ((b₀.toNat - 0xC0) * 64 + (b₁.toNat - 0x80)) :: ·)
      else match rest with
      | [] => none
      | b₂ :: rest =>
        if isTail b₂ = false then none
        else if 0xE0 ≤ b₀.toNat ∧ b₀.toNat < 0xF0 then
          let n := (b₀.toNat - 0xE0) * 4096 + (b₁.toNat - 0x80) * 64 + (b₂.toNat - 0x80)
          if isThree n then (decodeChars rest).map (Char.ofNat n :: ·) else none
        else match rest with
        | [] => none
        | b₃ :: rest =>
          let n := (b₀.toNat - 0xF0) * 262144 + (b₁.toNat - 0x80) * 4096 +
            (b₂.toNat - 0x80) * 64 + (b₃.toNat - 0x80)
          if isTail b₃ = false then none
          else if 0xF0 ≤ b₀.toNat ∧ isFour n then (decodeChars rest).map (Char.ofNat n :: ·)
          else none

/-- `bytes.decode("utf-8")`, strict. -/
def decode (b : Bytes) : Option PyStr := (decodeChars b).map ofChars

theorem toNat_ofNat_of_lt {n : ℕ} (h : n < 256) : (UInt8.ofNat n).toNat = n := by
  rw [UInt8.toNat_ofNat']
  omega

theorem toNat_tail (n : ℕ) : (UInt8.ofNat (0x80 + n % 64)).toNat = 0x80 + n % 64 :=
  toNat_ofNat_of_lt (by omega)

theorem isTail_tail (n : ℕ) : isTail (UInt8.ofNat (0x80 + n % 64)) = true := by
  simp only [isTail, toNat_tail, Bool.and_eq_true, decide_eq_true_eq]
  omega

theorem decodeChars_encodeCode (c : Char) (rest : Bytes) :
    decodeChars (encodeCode c.toNat ++ rest) = (decodeChars rest).map (c :: ·) := by
  have hc := PyChar.toNat_scalar c
  have roundTrip {n : ℕ} (h : n = c.toNat) : Char.ofNat n = c := by rw [h, Char.ofNat_toNat]
  unfold encodeCode
  split_ifs with h₁ h₂ h₃
  · rw [List.singleton_append, decodeChars.eq_def]
    simp only [toNat_ofNat_of_lt (by omega : c.toNat < 256), if_pos h₁, roundTrip rfl]
  · have lead := toNat_ofNat_of_lt (by omega : 0xC0 + c.toNat / 64 < 256)
    have value : (0xC0 + c.toNat / 64 - 0xC0) * 64 + (0x80 + c.toNat % 64 - 0x80) = c.toNat := by
      omega
    simp only [List.cons_append, List.nil_append]
    rw [decodeChars.eq_def]
    simp only [lead, isTail_tail, toNat_tail, Bool.true_eq_false, if_false, value, roundTrip]
    rw [if_neg (by omega), if_pos (by omega)]
  · have lead := toNat_ofNat_of_lt (by omega : 0xE0 + c.toNat / 4096 < 256)
    have value : (0xE0 + c.toNat / 4096 - 0xE0) * 4096 + (0x80 + c.toNat / 64 % 64 - 0x80) * 64 +
        (0x80 + c.toNat % 64 - 0x80) = c.toNat := by omega
    have three : isThree c.toNat = true := by
      simp only [isThree, Bool.and_eq_true, Bool.or_eq_true, decide_eq_true_eq]
      omega
    simp only [List.cons_append, List.nil_append]
    rw [decodeChars.eq_def]
    simp only [lead, isTail_tail, toNat_tail, Bool.true_eq_false, if_false, value, three, if_true,
      roundTrip]
    rw [if_neg (by omega), if_neg (by omega), if_pos (by omega)]
  · have lead := toNat_ofNat_of_lt (by omega : 0xF0 + c.toNat / 262144 < 256)
    have value : (0xF0 + c.toNat / 262144 - 0xF0) * 262144 +
        (0x80 + c.toNat / 4096 % 64 - 0x80) * 4096 + (0x80 + c.toNat / 64 % 64 - 0x80) * 64 +
        (0x80 + c.toNat % 64 - 0x80) = c.toNat := by omega
    have four : isFour c.toNat = true := by
      simp only [isFour, Bool.and_eq_true, decide_eq_true_eq]
      omega
    simp only [List.cons_append, List.nil_append]
    rw [decodeChars.eq_def]
    simp only [lead, isTail_tail, toNat_tail, Bool.true_eq_false, if_false, value, four, and_true,
      roundTrip]
    rw [if_neg (by omega), if_neg (by omega), if_neg (by omega), if_pos (by omega)]

theorem decodeChars_flatMap (l : List Char) (rest : Bytes) :
    decodeChars ((l.flatMap fun c => encodeCode c.toNat) ++ rest) =
      (decodeChars rest).map (l ++ ·) := by
  induction l with
  | nil => simp
  | cons c l ih =>
    rw [List.flatMap_cons, List.append_assoc, decodeChars_encodeCode, ih, Option.map_map]
    rfl

theorem decode_encode {s : PyStr} {b : Bytes} (h : encode s = some b) : decode b = some s := by
  obtain ⟨l, hl, rfl⟩ := Option.map_eq_some_iff.1 h
  have step := decodeChars_flatMap l []
  rw [List.append_nil] at step
  rw [decode, step, (chars?_eq_some_iff s l).1 hl]
  simp [decodeChars]

theorem encode_injective {s t : PyStr} {b : Bytes} (hs : encode s = some b)
    (ht : encode t = some b) : s = t :=
  Option.some.inj ((decode_encode hs).symm.trans (decode_encode ht))

theorem encode_isSome_iff (s : PyStr) : s.encode.isSome ↔ ∀ n, .surrogate n ∉ s := by
  rw [encode, Option.isSome_map]
  induction s with
  | nil => simp [chars?]
  | cons c s ih =>
    cases c with
    | scalar c => simpa [chars?] using ih
    | surrogate n => simpa [chars?] using ⟨n, fun h => absurd rfl h⟩

def asciiBytes (s : String) : Bytes := s.toList.map fun c => UInt8.ofNat c.toNat

/-- The bytes of a text whose characters are all ASCII, as `json.dumps` writes by default. -/
def encodeAscii (s : PyStr) : Bytes := s.map fun c => UInt8.ofNat c.code

theorem encode_ofChars (l : List Char) :
    encode (ofChars l) = some (l.flatMap fun c => encodeCode c.toNat) := by
  simp [encode]

/-! ## White space and case -/

/-- `str.isspace` of one character. -/
def isSpace (c : PyChar) : Bool :=
  (9 ≤ c.code && c.code ≤ 13) || (28 ≤ c.code && c.code ≤ 32) || c.code = 0x85 || c.code = 0xA0 ||
    c.code = 0x1680 || (0x2000 ≤ c.code && c.code ≤ 0x200A) || c.code = 0x2028 ||
    c.code = 0x2029 || c.code = 0x202F || c.code = 0x205F || c.code = 0x3000

/-- The text without the characters at either end that satisfy `p`. -/
def stripIf (p : PyChar → Bool) (s : PyStr) : PyStr :=
  ((s.dropWhile p).reverse.dropWhile p).reverse

def strip (s : PyStr) : PyStr := stripIf isSpace s

/-- `str.casefold` of ASCII text. -/
def asciiCasefold (s : PyStr) : PyStr := s.map fun
  | .scalar c => .scalar c.toLower
  | c => c

/-- `sorted` of the set of the given texts. -/
def sortedSet (l : List PyStr) : List PyStr := l.dedup.insertionSort (· ≤ ·)

@[simp] theorem mem_sortedSet {l : List PyStr} {s : PyStr} : s ∈ sortedSet l ↔ s ∈ l := by
  rw [sortedSet, List.mem_insertionSort, List.mem_dedup]

end PyStr

end SimplicioFast
