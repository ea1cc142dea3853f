import SimplicioFast.Lib.Json

/-!
# Parsing JSON

The parser of `json.loads`.  Parsing inverts writing (`loads_write`), so two values with the same
canonical text are equal up to the order of their keys (`sortKeys_eq_of_dumps_eq`).
-/

namespace SimplicioFast

namespace Json

/-! ## Parsing -/

def isSpace (c : PyChar) : Bool :=
  c = .scalar ' ' || c = .scalar '\t' || c = .scalar '\n' || c = .scalar '\r'

/-- The text after its leading white space. -/
def skipSpace : PyStr → PyStr
  | [] => []
  | c :: s => if isSpace c then skipSpace s else c :: s

/-- The longest run of decimal digits at the front, and the rest. -/
def spanDigits : PyStr → List Char × PyStr
  | .scalar c :: s => if c.isDigit then
      let (ds, r) := spanDigits s
      (c :: ds, r)
    else ([], .scalar c :: s)
  | s => ([], s)

/-- The fraction of a number literal: its digits, or none when no fraction follows. -/
def parseFraction : PyStr → Option (List Char) × PyStr
  | .scalar '.' :: s =>
    match spanDigits s with
    | ([], _) => (none, .scalar '.' :: s)
    | (ds, r) => (some ds, r)
  | s => (none, s)

/-- The exponent of a number literal, or none when no exponent follows. -/
def parseExponent (s : PyStr) : Option ℤ × PyStr :=
  match s with
  | .scalar e :: t =>
    if e = 'e' ∨ e = 'E' then
      let (sign, u) : ℤ × PyStr := match t with
        | .scalar '-' :: u => (-1, u)
        | .scalar '+' :: u => (1, u)
        | u => (1, u)
      match spanDigits u with
      | ([], _) => (none, s)
      | (ds, r) => (some (sign * Nat.ofDigitChars 10 ds 0), r)
    else (none, s)
  | _ => (none, s)

/-- The float with the given decimal digits and decimal exponent. -/
def decimalOf (neg : Bool) (whole fraction : List Char) (exponent : ℤ) : Decimal :=
  let digits := Nat.ofDigitChars 10 (whole ++ fraction) 0
  let scale : ℤ := fraction.length - exponent
  if 0 ≤ scale then .make neg digits scale.toNat else .make neg (digits * 10 ^ (-scale).toNat) 0

/-- A number literal after its sign: an integer, or a float when a fraction or exponent follows. -/
def parseUnsigned (neg : Bool) (s : PyStr) : Option (Json × PyStr) :=
  let (whole, r) : List Char × PyStr := match s with
    | .scalar '0' :: r => (['0'], r)
    | _ => spanDigits s
  if whole = [] then none
  else
    let (fraction, r) := parseFraction r
    let (exponent, r) := parseExponent r
    match fraction, exponent with
    | none, none =>
      let n : ℤ := Nat.ofDigitChars 10 whole 0
      some (.int (if neg then -n else n), r)
    | _, _ => some (.float (decimalOf neg whole (fraction.getD []) (exponent.getD 0)), r)

def parseHex4 : PyStr → Option (ℕ × PyStr)
  | .scalar a :: .scalar b :: .scalar c :: .scalar d :: s => do
    let a ← Bytes.hexValue? a
    let b ← Bytes.hexValue? b
    let c ← Bytes.hexValue? c
    let d ← Bytes.hexValue? d
    return (4096 * a + 256 * b + 16 * c + d, s)
  | _ => none

/-- The code point with the given number. -/
def charOfCode (n : ℕ) : PyChar :=
  if h : 0xD800 ≤ n ∧ n < 0xE000 then .surrogate ⟨n - 0xD800, by omega⟩
  else .scalar (Char.ofNat n)

def simpleEscape? : Char → Option Char
  | '"' => some '"'
  | '\\' => some '\\'
  | '/' => some '/'
  | 'b' => some '\x08'
  | 'f' => some '\x0c'
  | 'n' => some '\n'
  | 'r' => some '\r'
  | 't' => some '\t'
  | _ => none

/-- A `\u` escape after its first four digits: a high surrogate joins a low one that follows. -/
def joinSurrogates (n : ℕ) (s : PyStr) : PyChar × PyStr :=
  match s with
  | .scalar '\\' :: .scalar 'u' :: t =>
    match parseHex4 t with
    | some (m, r) =>
      if 0xD800 ≤ n ∧ n < 0xDC00 ∧ 0xDC00 ≤ m ∧ m < 0xE000 then
        (charOfCode (0x10000 + (n - 0xD800) * 1024 + (m - 0xDC00)), r)
      else (charOfCode n, s)
    | none => (charOfCode n, s)
  | _ => (charOfCode n, s)

/-- The body of a string literal up to its closing quote. -/
def parseStrBody : ℕ → PyStr → Option (PyStr × PyStr)
  | 0, _ => none
  | _ + 1, [] => none
  | n + 1, c :: s =>
    if c = .scalar '"' then some ([], s)
    else if c = .scalar '\\' then
      match s with
      | .scalar 'u' :: t => do
        let (code, r) ← parseHex4 t
        let (c, r) := joinSurrogates code r
        let (cs, r) ← parseStrBody n r
        return (c :: cs, r)
      | .scalar e :: t => do
        let e ← simpleEscape? e
        let (cs, r) ← parseStrBody n t
        return (.scalar e :: cs, r)
      | _ => none
    else if c.code < 32 then none
    else do
      let (cs, r) ← parseStrBody n s
      return (c :: cs, r)

/-- The fields of a parsed object: a repeated key keeps its place and takes the last value. -/
def dictFields (fs : List (PyStr × Json)) : List (PyStr × Json) :=
  fs.foldl (fun d f => Dict.setEntries f.1 f.2 d) []

/-- The literals that are not numbers, with their values. -/
def literals : List (PyStr × Json) :=
  [("null", .null), ("true", .bool true), ("false", .bool false), ("NaN", .nonFinite .nan),
    ("Infinity", .nonFinite .infinity), ("-Infinity", .nonFinite .negInfinity)]

/-- A literal at the front of the text, and the rest. -/
def parseLiteral (s : PyStr) : Option (Json × PyStr) :=
  literals.findSome? fun l => (l.1.isPrefixOf? s).map fun r => (l.2, r)

def parseNumber (s : PyStr) : Option (Json × PyStr) :=
  match s with
  | .scalar '-' :: r => parseUnsigned true r
  | _ => parseUnsigned false s

mutual

/-- One value; the fuel bounds the nesting and the length of strings. -/
def parseValue : ℕ → PyStr → Option (Json × PyStr)
  | 0, _ => none
  | _ + 1, [] => none
  | n + 1, c :: s =>
    if c = .scalar '"' then (parseStrBody n s).map fun p => (.str p.1, p.2)
    else if c = .scalar '[' then
      if (skipSpace s).head? = some (.scalar ']') then some (.arr [], (skipSpace s).tail)
      else (parseItems n (skipSpace s)).map fun p => (.arr p.1, p.2)
    else if c = .scalar '{' then
      if (skipSpace s).head? = some (.scalar '}') then some (.obj [], (skipSpace s).tail)
      else (parseFields n (skipSpace s)).map fun p => (.obj (dictFields p.1), p.2)
    else (parseLiteral (c :: s)).or (parseNumber (c :: s))

/-- The items of an array up to its closing bracket. -/
def parseItems : ℕ → PyStr → Option (List Json × PyStr)
  | 0, _ => none
  | n + 1, s => do
    let (v, r) ← parseValue n s
    match skipSpace r with
    | .scalar ']' :: r => some ([v], r)
    | .scalar ',' :: r => do
      let (vs, r) ← parseItems n (skipSpace r)
      return (v :: vs, r)
    | _ => none

/-- The fields of an object up to its closing brace. -/
def parseFields : ℕ → PyStr → Option (List (PyStr × Json) × PyStr)
  | 0, _ => none
  | n + 1, s =>
    match s with
    | .scalar '"' :: s => do
      let (k, r) ← parseStrBody n s
      match skipSpace r with
      | .scalar ':' :: r => do
        let (v, r) ← parseValue n (skipSpace r)
        match skipSpace r with
        | .scalar '}' :: r => some ([(k, v)], r)
        | .scalar ',' :: r => do
          let (fs, r) ← parseFields n (skipSpace r)
          return ((k, v) :: fs, r)
        | _ => none
      | _ => none
    | _ => none

end

/-- `json.loads` of a text. -/
def loads (s : PyStr) : Option Json :=
  match parseValue (s.length + 1) (skipSpace s) with
  | some (v, r) => if skipSpace r = [] then some v else none
  | none => none

/-! ## Parsing inverts writing -/

/-- What may follow a value inside a larger text. -/
def Stops : PyStr → Prop
  | [] => True
  | c :: _ => c = .scalar ',' ∨ c = .scalar ']' ∨ c = .scalar '}'

theorem stops_comma (t : PyStr) : Stops (.scalar ',' :: t) := .inl rfl

theorem stops_bracket (t : PyStr) : Stops (.scalar ']' :: t) := .inr (.inl rfl)

theorem stops_brace (t : PyStr) : Stops (.scalar '}' :: t) := .inr (.inr rfl)

theorem spanDigits_append {ds : List Char} (digits : ∀ c ∈ ds, c.isDigit = true) (rest : PyStr)
    (stop : ∀ c r, rest = .scalar c :: r → c.isDigit = false) :
    spanDigits (PyStr.ofChars ds ++ rest) = (ds, rest) := by
  induction ds with
  | nil =>
    match rest with
    | [] => rfl
    | .surrogate _ :: _ => rfl
    | .scalar c :: r => simp [PyStr.ofChars, spanDigits, stop c r rfl]
  | cons c ds ih =>
    have hc := digits c List.mem_cons_self
    have := ih fun d hd => digits d (List.mem_cons_of_mem _ hd)
    simp only [PyStr.ofChars, List.map_cons, List.cons_append] at this ⊢
    simp [spanDigits, hc, this]

theorem Stops.not_digit {rest : PyStr} (h : Stops rest) :
    ∀ c r, rest = .scalar c :: r → c.isDigit = false := by
  rintro c r rfl
  rcases h with h | h | h <;> cases h <;> decide

theorem Stops.parseFraction {rest : PyStr} (h : Stops rest) :
    parseFraction rest = (none, rest) := by
  match rest with
  | [] => rfl
  | c :: r => rcases h with rfl | rfl | rfl <;> rfl

theorem Stops.parseExponent {rest : PyStr} (h : Stops rest) :
    parseExponent rest = (none, rest) := by
  match rest with
  | [] => rfl
  | c :: r => rcases h with rfl | rfl | rfl <;> rfl

theorem toDigits_zero_head (n : ℕ) (ds : List Char) (h : Nat.toDigits 10 n = '0' :: ds) :
    ds = [] := by
  induction n using Nat.strong_induction_on generalizing ds with
  | h n ih =>
    rw [Nat.toDigits_eq_if (by decide)] at h
    split_ifs at h with hn
    · exact (List.cons.inj h).2.symm
    · exfalso
      obtain ⟨d, tail, e⟩ := List.exists_cons_of_ne_nil (Nat.toDigits_ne_nil (n := n / 10) (b := 10))
      rw [e, List.cons_append, List.cons.injEq] at h
      obtain ⟨rfl, -⟩ := h
      have nil := ih (n / 10) (by omega) tail e
      subst nil
      have value := Nat.ofDigitChars_ten_toDigits (n := n / 10)
      rw [e] at value
      change 0 = n / 10 at value
      omega

theorem isDigit_of_mem_toDigits {n : ℕ} : ∀ c ∈ Nat.toDigits 10 n, c.isDigit = true :=
  fun _ hc => Nat.isDigit_of_mem_toDigits (by decide) (by decide) hc

theorem parseUnsigned_whole (neg : Bool) (n : ℕ) (rest : PyStr)
    (stop : ∀ c r, rest = .scalar c :: r → c.isDigit = false) :
    parseUnsigned neg (PyStr.ofChars (Nat.toDigits 10 n) ++ rest) =
      match parseFraction rest with
      | (fraction, r) => match parseExponent r with
        | (exponent, r) => match fraction, exponent with
          | none, none => some (.int (if neg then -(n : ℤ) else n), r)
          | _, _ => some (.float (decimalOf neg (Nat.toDigits 10 n) (fraction.getD [])
              (exponent.getD 0)), r) := by
  obtain ⟨d, ds, e⟩ := List.exists_cons_of_ne_nil (Nat.toDigits_ne_nil (n := n) (b := 10))
  have span := spanDigits_append (isDigit_of_mem_toDigits (n := n)) rest stop
  have value := Nat.ofDigitChars_ten_toDigits (n := n)
  rw [e] at span value ⊢
  by_cases hd : d = '0'
  · subst hd
    have nil := toDigits_zero_head n ds e
    subst nil
    simp only [PyStr.ofChars, List.map_cons, List.map_nil, List.cons_append, List.nil_append,
      parseUnsigned, value]
    rfl
  · have head : (match PyStr.ofChars (d :: ds) ++ rest with
        | .scalar '0' :: r => (['0'], r)
        | _ => spanDigits (PyStr.ofChars (d :: ds) ++ rest)) =
        ((d :: ds, rest) : List Char × PyStr) := by
      rw [← span]
      split
      · next r h =>
        simp only [PyStr.ofChars, List.map_cons, List.cons_append, List.cons.injEq,
          PyChar.scalar.injEq] at h
        exact absurd h.1 hd
      · rfl
    unfold parseUnsigned
    rw [head]
    simp only [value]
    rfl

theorem ofChars_append (a b : List Char) :
    PyStr.ofChars (a ++ b) = PyStr.ofChars a ++ PyStr.ofChars b := List.map_append

theorem ofChars_cons (c : Char) (a : List Char) :
    PyStr.ofChars (c :: a) = .scalar c :: PyStr.ofChars a := rfl

theorem parseNumber_of_digits (n : ℕ) (t : PyStr) :
    parseNumber (PyStr.ofChars (Nat.toDigits 10 n) ++ t) =
      parseUnsigned false (PyStr.ofChars (Nat.toDigits 10 n) ++ t) := by
  obtain ⟨d, ds, e⟩ := List.exists_cons_of_ne_nil (Nat.toDigits_ne_nil (n := n) (b := 10))
  have digit := isDigit_of_mem_toDigits (n := n) d (by rw [e]; exact List.mem_cons_self)
  rw [e]
  unfold parseNumber
  split
  · next r h =>
    simp only [PyStr.ofChars, List.map_cons, List.cons_append, List.cons.injEq,
      PyChar.scalar.injEq] at h
    rw [h.1] at digit
    cases digit
  · rfl

theorem parseNumber_writeInt (n : ℤ) {rest : PyStr} (h : Stops rest) :
    parseNumber (writeInt n ++ rest) = some (.int n, rest) := by
  have whole (neg : Bool) := parseUnsigned_whole neg n.natAbs rest h.not_digit
  simp only [h.parseFraction, h.parseExponent] at whole
  unfold writeInt
  by_cases hn : n < 0
  · rw [if_pos hn]
    simp only [List.cons_append, List.nil_append, ofChars_cons, parseNumber, whole]
    simp only [if_true, Option.some.injEq, Prod.mk.injEq, Json.int.injEq, and_true]
    omega
  · rw [if_neg hn, List.nil_append, parseNumber_of_digits, whole]
    simp only [Bool.false_eq_true, if_false, Option.some.injEq, Prod.mk.injEq, Json.int.injEq,
      and_true]
    omega

theorem decimalOf_repr (d : Decimal) :
    decimalOf d.neg (Nat.toDigits 10 (d.digits / 10 ^ d.scale))
      (Decimal.lowDigits d.scale (d.digits % 10 ^ d.scale)) 0 = d := by
  have pos : 0 < 10 ^ d.scale := Nat.pow_pos (by decide)
  have value : Nat.ofDigitChars 10 (Nat.toDigits 10 (d.digits / 10 ^ d.scale) ++
      Decimal.lowDigits d.scale (d.digits % 10 ^ d.scale)) 0 = d.digits := by
    rw [Nat.ofDigitChars_append, Nat.ofDigitChars_ten_toDigits,
      Nat.ofDigitChars_eq_ofDigitChars_zero, Decimal.length_lowDigits,
      Decimal.ofDigitChars_lowDigits (Nat.mod_lt _ pos)]
    exact Nat.div_add_mod _ _
  simp only [decimalOf, value, Decimal.length_lowDigits, sub_zero]
  rw [if_pos (by omega), Int.toNat_natCast, Decimal.make_self]

theorem parseNumber_repr (d : Decimal) {rest : PyStr} (h : Stops rest) :
    parseNumber (PyStr.ofChars d.repr ++ rest) = some (.float d, rest) := by
  have fraction : parseFraction (.scalar '.' ::
      (PyStr.ofChars (Decimal.lowDigits d.scale (d.digits % 10 ^ d.scale)) ++ rest)) =
      (some (Decimal.lowDigits d.scale (d.digits % 10 ^ d.scale)), rest) := by
    have span := spanDigits_append
      (fun c hc => Decimal.isDigit_of_mem_lowDigits (k := d.scale)
        (n := d.digits % 10 ^ d.scale) hc) rest h.not_digit
    have len := Decimal.length_lowDigits d.scale (d.digits % 10 ^ d.scale)
    obtain ⟨c, cs, e⟩ : ∃ c cs, Decimal.lowDigits d.scale (d.digits % 10 ^ d.scale) = c :: cs := by
      refine List.exists_cons_of_ne_nil fun nil => ?_
      rw [nil] at len
      have := d.one_le_scale
      simp at len
      omega
    rw [e] at span ⊢
    simp only [parseFraction, span]
  have whole (neg : Bool) := parseUnsigned_whole neg (d.digits / 10 ^ d.scale)
    (.scalar '.' :: (PyStr.ofChars (Decimal.lowDigits d.scale (d.digits % 10 ^ d.scale)) ++ rest))
    (by
      intro c r e
      cases e
      decide)
  simp only [fraction, h.parseExponent, Option.getD_some, Option.getD_none] at whole
  have value := decimalOf_repr d
  unfold Decimal.repr
  by_cases hneg : d.neg = true
  · rw [hneg] at value
    simp only [hneg, if_true, List.cons_append, List.nil_append, ofChars_cons, ofChars_append,
      List.append_assoc, parseNumber, whole, value]
  · rw [Bool.not_eq_true] at hneg
    rw [hneg] at value
    simp only [hneg, Bool.false_eq_true, if_false, List.nil_append, ofChars_cons, ofChars_append,
      List.append_assoc, List.cons_append, parseNumber_of_digits, whole, value]

/-! ### Strings -/

variable {a : Bool}

theorem charOfCode_code (c : PyChar) : charOfCode c.code = c := by
  unfold charOfCode
  cases c with
  | scalar c =>
    have hc := PyChar.toNat_scalar c
    split
    · next h =>
      simp only [PyChar.code] at h
      omega
    · exact congrArg PyChar.scalar (Char.ofNat_toNat c)
  | surrogate n =>
    split
    · exact congrArg PyChar.surrogate (Fin.ext (Nat.add_sub_cancel_left ..))
    · next h =>
      simp only [PyChar.code] at h
      omega

/-- The text starts with the escape of a low surrogate. -/
def OpensLow (s : PyStr) : Prop :=
  ∃ t m r, s = .scalar '\\' :: .scalar 'u' :: t ∧ parseHex4 t = some (m, r) ∧ 0xDC00 ≤ m ∧ m < 0xE000

theorem joinSurrogates_of_not {n : ℕ} {s : PyStr} (h : 0xD800 ≤ n ∧ n < 0xDC00 → ¬ OpensLow s) :
    joinSurrogates n s = (charOfCode n, s) := by
  unfold joinSurrogates
  split
  · next t =>
    split
    · next m r e =>
      rw [if_neg]
      rintro ⟨high, high', low, low'⟩
      exact h ⟨high, high'⟩ ⟨t, m, r, rfl, e, low, low'⟩
    · rfl
  · rfl

theorem parseHex4_digits {n : ℕ} (h : n < 65536) (s : PyStr) :
    parseHex4 (.scalar (Bytes.hexDigit (n / 4096)) :: .scalar (Bytes.hexDigit (n / 256 % 16)) ::
      .scalar (Bytes.hexDigit (n / 16 % 16)) :: .scalar (Bytes.hexDigit (n % 16)) :: s) =
      some (n, s) := by
  rw [parseHex4, Bytes.hexValue?_hexDigit _ (by omega), Bytes.hexValue?_hexDigit _ (by omega),
    Bytes.hexValue?_hexDigit _ (by omega), Bytes.hexValue?_hexDigit _ (by omega)]
  simp only [Option.bind_eq_bind, Option.bind_some, Option.pure_def, Option.some.injEq,
    Prod.mk.injEq, and_true]
  omega

theorem eq_scalar_of_code {c : PyChar} {d : Char} (h : c.code = d.toNat) : c = .scalar d :=
  PyChar.code_injective h

theorem parseStrBody_simpleEscape (n : ℕ) {e d : Char} (t : PyStr) (he : e ≠ 'u')
    (h : simpleEscape? e = some d) :
    parseStrBody (n + 1) (.scalar '\\' :: .scalar e :: t) =
      (parseStrBody n t).map fun p => (.scalar d :: p.1, p.2) := by
  rw [parseStrBody, if_neg (by decide), if_pos rfl, h]
  · cases parseStrBody n t <;> rfl
  · exact he

theorem parseStrBody_plain (n : ℕ) {c : PyChar} (t : PyStr) (quote : c.code ≠ 34)
    (backslash : c.code ≠ 92) (printable : ¬ c.code < 32) :
    parseStrBody (n + 1) (c :: t) = (parseStrBody n t).map fun p => (c :: p.1, p.2) := by
  have quote' : c ≠ .scalar '"' := by
    rintro rfl
    exact quote rfl
  have backslash' : c ≠ .scalar '\\' := by
    rintro rfl
    exact backslash rfl
  rw [parseStrBody.eq_def]
  simp only [if_neg quote', if_neg backslash', if_neg printable]
  cases parseStrBody n t <;> rfl

theorem parseStrBody_unicodeEscape (n : ℕ) {c : PyChar} (t : PyStr) (small : c.code < 0x10000)
    (apart : c.IsHigh → ¬ OpensLow t) :
    parseStrBody (n + 1) (PyStr.ofChars (unicodeEscape c.code) ++ t) =
      (parseStrBody n t).map fun p => (c :: p.1, p.2) := by
  simp only [unicodeEscape, PyStr.ofChars, List.map_cons, List.map_nil, List.cons_append,
    List.nil_append]
  rw [parseStrBody, if_neg (by decide), if_pos rfl]
  simp only [parseHex4_digits (by omega : c.code < 65536), Option.bind_eq_bind, Option.bind_some,
    joinSurrogates_of_not apart, charOfCode_code]
  cases parseStrBody n t <;> rfl

theorem code_lt (c : PyChar) : c.code < 0x110000 := by
  cases c with
  | scalar c =>
    have valid := PyChar.toNat_scalar c
    simp only [PyChar.code]
    omega
  | surrogate n =>
    simp only [PyChar.code]
    omega

theorem parseStrBody_surrogatePair (n : ℕ) {c : PyChar} (t : PyStr) (large : ¬ c.code < 0x10000) :
    parseStrBody (n + 1) (PyStr.ofChars (unicodeEscape (0xD800 + (c.code - 0x10000) / 1024) ++
        unicodeEscape (0xDC00 + (c.code - 0x10000) % 1024)) ++ t) =
      (parseStrBody n t).map fun p => (c :: p.1, p.2) := by
  have bound := code_lt c
  have high : 0xD800 + (c.code - 0x10000) / 1024 < 0xDC00 := by omega
  have low : 0xDC00 + (c.code - 0x10000) % 1024 < 0xE000 := by omega
  have whole : 0x10000 + (0xD800 + (c.code - 0x10000) / 1024 - 0xD800) * 1024 +
      (0xDC00 + (c.code - 0x10000) % 1024 - 0xDC00) = c.code := by omega
  simp only [unicodeEscape, PyStr.ofChars, List.map_cons, List.map_nil, List.cons_append,
    List.nil_append]
  rw [parseStrBody, if_neg (by decide), if_pos rfl]
  simp only [parseHex4_digits (by omega : 0xD800 + (c.code - 0x10000) / 1024 < 65536),
    parseHex4_digits (by omega : 0xDC00 + (c.code - 0x10000) % 1024 < 65536), Option.bind_eq_bind,
    Option.bind_some, joinSurrogates]
  rw [if_pos (by omega), whole, charOfCode_code]
  cases parseStrBody n t <;> rfl

theorem parseStrBody_escapeChar (n : ℕ) (c : PyChar) (t : PyStr)
    (apart : a = false ∨ (c.IsHigh → ¬ OpensLow t)) :
    parseStrBody (n + 1) (escapeChar a c ++ t) =
      (parseStrBody n t).map fun p => (c :: p.1, p.2) := by
  unfold escapeChar
  split_ifs with h₁ h₂ h₃ h₄ h₅ h₆ h₇ h₈ h₉ h₁₀
  · rw [eq_scalar_of_code (d := '"') h₁]
    exact parseStrBody_simpleEscape n t (by decide) rfl
  · rw [eq_scalar_of_code (d := '\\') h₂]
    exact parseStrBody_simpleEscape n t (by decide) rfl
  · rw [eq_scalar_of_code (d := '\n') h₃]
    exact parseStrBody_simpleEscape n t (by decide) rfl
  · rw [eq_scalar_of_code (d := '\r') h₄]
    exact parseStrBody_simpleEscape n t (by decide) rfl
  · rw [eq_scalar_of_code (d := '\t') h₅]
    exact parseStrBody_simpleEscape n t (by decide) rfl
  · rw [eq_scalar_of_code (d := '\x0c') h₆]
    exact parseStrBody_simpleEscape n t (by decide) rfl
  · rw [eq_scalar_of_code (d := '\x08') h₇]
    exact parseStrBody_simpleEscape n t (by decide) rfl
  · refine parseStrBody_unicodeEscape n t (by omega) fun high => ?_
    have := high.1
    omega
  · exact parseStrBody_plain n t h₁ h₂ h₈
  · exact parseStrBody_unicodeEscape n t h₁₀ (apart.resolve_left fun e => h₉ (.inl e))
  · exact parseStrBody_surrogatePair n t h₁₀

theorem not_opensLow_of_head {c : PyChar} (t : PyStr) (h : c ≠ .scalar '\\') : ¬ OpensLow (c :: t) := by
  rintro ⟨_, _, _, e, -⟩
  exact h (List.cons.inj e).1

theorem not_opensLow_simpleEscape {e : PyChar} (t : PyStr) (h : e ≠ .scalar 'u') :
    ¬ OpensLow (.scalar '\\' :: e :: t) := by
  rintro ⟨_, _, _, same, -⟩
  exact h (List.cons.inj (List.cons.inj same).2).1

theorem not_opensLow_unicodeEscape {n : ℕ} (t : PyStr) (small : n < 65536)
    (h : ¬ (0xDC00 ≤ n ∧ n < 0xE000)) : ¬ OpensLow (PyStr.ofChars (unicodeEscape n) ++ t) := by
  rintro ⟨u, m, r, e, hex, low⟩
  simp only [unicodeEscape, PyStr.ofChars, List.map_cons, List.map_nil, List.cons_append,
    List.nil_append] at e
  obtain rfl := (List.cons.inj (List.cons.inj e).2).2
  rw [parseHex4_digits small] at hex
  cases hex
  exact h low

theorem not_opensLow_escapeChar {c : PyChar} (t : PyStr) (h : ¬ c.IsLow) :
    ¬ OpensLow (escapeChar true c ++ t) := by
  unfold escapeChar
  split_ifs with h₁ h₂ h₃ h₄ h₅ h₆ h₇ h₈ h₉ h₁₀
  · exact not_opensLow_simpleEscape t (by decide)
  · exact not_opensLow_simpleEscape t (by decide)
  · exact not_opensLow_simpleEscape t (by decide)
  · exact not_opensLow_simpleEscape t (by decide)
  · exact not_opensLow_simpleEscape t (by decide)
  · exact not_opensLow_simpleEscape t (by decide)
  · exact not_opensLow_simpleEscape t (by decide)
  · exact not_opensLow_unicodeEscape t (by omega) h
  · refine not_opensLow_of_head t ?_
    rintro rfl
    exact h₂ rfl
  · exact not_opensLow_unicodeEscape t h₁₀ h
  · rw [PyStr.ofChars, List.map_append, List.append_assoc]
    have bound := code_lt c
    exact not_opensLow_unicodeEscape _ (by omega) (by omega)

theorem not_opensLow_escape {s : PyStr} (t : PyStr) (h : ∀ d ∈ s.head?, ¬ d.IsLow) :
    ¬ OpensLow (s.flatMap (escapeChar true) ++ .scalar '"' :: t) := by
  cases s with
  | nil => exact not_opensLow_of_head t (by decide)
  | cons d s =>
    rw [List.flatMap_cons, List.append_assoc]
    exact not_opensLow_escapeChar _ (h d rfl)

theorem parseStrBody_escape (s : PyStr) (unpaired : a = false ∨ s.Unpaired) (n : ℕ) (rest : PyStr)
    (h : s.length < n) :
    parseStrBody n (s.flatMap (escapeChar a) ++ .scalar '"' :: rest) = some (s, rest) := by
  induction s generalizing n with
  | nil =>
    obtain ⟨n, rfl⟩ : ∃ m, n = m + 1 := ⟨n - 1, by simp at h; omega⟩
    simp [parseStrBody]
  | cons c s ih =>
    rw [List.length_cons] at h
    obtain ⟨n, rfl⟩ : ∃ m, n = m + 1 := ⟨n - 1, by omega⟩
    have apart : a = false ∨ (c.IsHigh → ¬ OpensLow (s.flatMap (escapeChar a) ++ .scalar '"' :: rest)) := by
      cases a with
      | false => exact .inl rfl
      | true =>
        refine .inr fun high => not_opensLow_escape rest fun d mem low => ?_
        cases s with
        | nil => cases mem
        | cons e s =>
          obtain rfl := Option.some.inj mem
          exact (List.isChain_cons_cons.1 (unpaired.resolve_left (by decide))).1 ⟨high, low⟩
    have rest_unpaired : a = false ∨ PyStr.Unpaired s := unpaired.imp_right PyStr.Unpaired.of_cons
    rw [List.flatMap_cons, List.append_assoc, parseStrBody_escapeChar n c _ apart,
      ih rest_unpaired n (by omega)]
    rfl

theorem writeStr_append_inj {s s' t t' : PyStr} (hs : a = false ∨ s.Unpaired)
    (hs' : a = false ∨ s'.Unpaired) (h : writeStr a s ++ t = writeStr a s' ++ t') : s = s' ∧ t = t' := by
  simp only [writeStr, List.cons_append, List.append_assoc, List.nil_append, List.cons.injEq,
    true_and] at h
  have read := parseStrBody_escape s hs (s.length + s'.length + 1) t (by omega)
  rw [h, parseStrBody_escape s' hs' _ t' (by omega), Option.some.injEq, Prod.mk.injEq] at read
  exact ⟨read.1.symm, read.2.symm⟩

theorem length_le_flatMap_escapeChar (s : PyStr) :
    s.length ≤ (s.flatMap (escapeChar a)).length := by
  induction s with
  | nil => exact le_rfl
  | cons c s ih =>
    have pos : 0 < (escapeChar a c).length := by
      refine List.length_pos_iff.2 fun nil => ?_
      unfold escapeChar at nil
      split_ifs at nil <;> cases nil
    rw [List.flatMap_cons, List.length_append, List.length_cons]
    omega

/-! ### Values -/

theorem foldl_setEntries (fs d : List (PyStr × Json)) (h : ((d ++ fs).map Prod.fst).Nodup) :
    fs.foldl (fun d f => Dict.setEntries f.1 f.2 d) d = d ++ fs := by
  induction fs generalizing d with
  | nil => simp
  | cons f fs ih =>
    obtain ⟨k, v⟩ := f
    have fresh : k ∉ d.map Prod.fst := by
      rw [List.map_append, List.nodup_append] at h
      intro hk
      exact h.2.2 k hk k (by simp) rfl
    have split : d ++ (k, v) :: fs = (d ++ [(k, v)]) ++ fs := by simp
    rw [List.foldl_cons, Dict.setEntries_of_notMem v fresh, split]
    rw [split] at h
    exact ih _ h

theorem dictFields_of_nodup {fs : List (PyStr × Json)} (h : (fs.map Prod.fst).Nodup) :
    dictFields fs = fs := foldl_setEntries fs [] h

theorem write_eq_cons (v : Json) :
    ∃ c t, write a v = c :: t ∧ isSpace c = false ∧ c ≠ .scalar ']' := by
  have digit {c : Char} (hc : c.isDigit = true) :
      isSpace (.scalar c) = false ∧ PyChar.scalar c ≠ .scalar ']' := by
    refine ⟨?_, ?_⟩
    · simp only [isSpace, Bool.or_eq_false_iff, decide_eq_false_iff_not]
      refine ⟨⟨⟨?_, ?_⟩, ?_⟩, ?_⟩ <;> rintro ⟨⟩ <;> cases hc
    · rintro ⟨⟩
      cases hc
  have digits (n : ℕ) (t : List Char) : ∃ c u, PyStr.ofChars (Nat.toDigits 10 n ++ t) = c :: u ∧
      isSpace c = false ∧ c ≠ .scalar ']' := by
    obtain ⟨d, ds, e⟩ := List.exists_cons_of_ne_nil (Nat.toDigits_ne_nil (n := n) (b := 10))
    rw [e]
    exact ⟨_, _, rfl, digit (isDigit_of_mem_toDigits (n := n) d (e ▸ List.mem_cons_self))⟩
  cases v with
  | null => exact ⟨_, _, rfl, by decide, by decide⟩
  | bool b => cases b <;> exact ⟨_, _, rfl, by decide, by decide⟩
  | int n =>
    simp only [write, writeInt]
    split_ifs
    · exact ⟨_, _, rfl, by decide, by decide⟩
    · simpa using digits n.natAbs []
  | float d =>
    simp only [write, Decimal.repr, List.append_assoc]
    split_ifs
    · exact ⟨_, _, rfl, by decide, by decide⟩
    · exact digits _ _
  | nonFinite k => cases k <;> exact ⟨_, _, rfl, by decide, by decide⟩
  | str s => exact ⟨_, _, rfl, by decide, by decide⟩
  | arr vs => cases vs <;> exact ⟨_, _, rfl, by decide, by decide⟩
  | obj fs => cases fs <;> exact ⟨_, _, rfl, by decide, by decide⟩

theorem skipSpace_write (v : Json) (t : PyStr) :
    skipSpace (write a v ++ t) = write a v ++ t := by
  obtain ⟨c, u, e, space, -⟩ := write_eq_cons (a := a) v
  rw [e, List.cons_append, skipSpace, if_neg (by rw [space]; exact Bool.false_ne_true)]

theorem Stops.skipSpace {rest : PyStr} (h : Stops rest) : skipSpace rest = rest := by
  match rest with
  | [] => rfl
  | c :: r => rcases h with rfl | rfl | rfl <;> rfl

theorem parseValue_of_number (n : ℕ) {c : Char} {s : PyStr} (h : c.isDigit = true ∨
    c = '-' ∧ ∃ d t, s = .scalar d :: t ∧ d.isDigit = true) :
    parseValue (n + 1) (.scalar c :: s) = parseNumber (.scalar c :: s) := by
  have structural : c ≠ '"' ∧ c ≠ '[' ∧ c ≠ '{' := by
    refine ⟨?_, ?_, ?_⟩ <;> rintro rfl <;> rcases h with h | ⟨h, -⟩ <;> cases h
  have quote : PyChar.scalar c ≠ .scalar '"' := fun e => structural.1 (PyChar.scalar.inj e)
  have bracket : PyChar.scalar c ≠ .scalar '[' := fun e => structural.2.1 (PyChar.scalar.inj e)
  have brace : PyChar.scalar c ≠ .scalar '{' := fun e => structural.2.2 (PyChar.scalar.inj e)
  have literal : parseLiteral (.scalar c :: s) = none := by
    rw [parseLiteral, List.findSome?_eq_none_iff]
    have head : c ≠ 'n' ∧ c ≠ 't' ∧ c ≠ 'f' ∧ c ≠ 'N' ∧ c ≠ 'I' := by
      refine ⟨?_, ?_, ?_, ?_, ?_⟩ <;> rintro rfl <;> rcases h with h | ⟨h, -⟩ <;> cases h
    have minus : c = '-' → ∀ t, s ≠ .scalar 'I' :: t := by
      rintro rfl t rfl
      rcases h with h | ⟨-, d, u, e, hd⟩
      · cases h
      · cases e
        cases hd
    have mismatch {a : Char} {l : List Char} (ha : c ≠ a) :
        (PyStr.ofChars (a :: l)).isPrefixOf? (.scalar c :: s) = none := by
      rw [ofChars_cons, List.isPrefixOf?, if_neg]
      simpa using fun e => ha e.symm
    simp only [literals, List.forall_mem_cons, List.not_mem_nil, false_implies, implies_true,
      and_true, Option.map_eq_none_iff]
    refine ⟨mismatch head.1, mismatch head.2.1, mismatch head.2.2.1, mismatch head.2.2.2.1,
      mismatch head.2.2.2.2, ?_⟩
    by_cases hc : c = '-'
    · subst hc
      match s with
      | [] => rfl
      | d :: t =>
        have hd : d ≠ .scalar 'I' := fun e => minus rfl t (by rw [e])
        change (PyStr.ofChars ['I', 'n', 'f', 'i', 'n', 'i', 't', 'y']).isPrefixOf? (d :: t) = none
        rw [ofChars_cons, List.isPrefixOf?, if_neg]
        simpa using fun e => hd e.symm
    · exact mismatch hc
  rw [parseValue, if_neg quote, if_neg bracket, if_neg brace, literal, Option.none_or]

/-- Reading the text of `v` gives `w`, whatever may follow it. -/
def ReadsAs (a : Bool) (v w : Json) : Prop :=
  ∀ n rest, Stops rest → (write a v).length ≤ n →
    parseValue n (write a v ++ rest) = some (w, rest)

/-- Reading the text of `v` gives `v` back. -/
abbrev ReadsBack (a : Bool) (v : Json) : Prop := ReadsAs a v v

/-- Reading the literal of `s` gives `t`. -/
def StrReadsAs (a : Bool) (s t : PyStr) : Prop :=
  ∀ n rest, s.length < n → parseStrBody n (s.flatMap (escapeChar a) ++ .scalar '"' :: rest) = some (t, rest)

theorem ReadsAs.intro {v w : Json} (h : ∀ n rest, Stops rest → (write a v).length ≤ n + 1 →
    parseValue (n + 1) (write a v ++ rest) = some (w, rest)) : ReadsAs a v w := by
  intro n rest stop fuel
  obtain ⟨m, rfl⟩ : ∃ m, n = m + 1 := by
    obtain ⟨c, t, e, -⟩ := write_eq_cons (a := a) v
    rw [e, List.length_cons] at fuel
    exact ⟨n - 1, by omega⟩
  exact h m rest stop fuel

theorem ReadsAs.number {v : Json} (number : ∃ c s, write a v = .scalar c :: s ∧
      (c.isDigit = true ∨ c = '-' ∧ ∃ d t, s = .scalar d :: t ∧ d.isDigit = true))
    (h : ∀ rest, Stops rest → parseNumber (write a v ++ rest) = some (v, rest)) :
    ReadsBack a v := by
  refine ReadsAs.intro fun n rest stop _ => ?_
  obtain ⟨c, s, e, start⟩ := number
  have start' : c.isDigit = true ∨
      c = '-' ∧ ∃ d t, s ++ rest = .scalar d :: t ∧ d.isDigit = true := by
    rcases start with digit | ⟨minus, d, t, rfl, digit⟩
    · exact .inl digit
    · exact .inr ⟨minus, d, t ++ rest, rfl, digit⟩
  rw [← h rest stop, e, List.cons_append, parseValue_of_number n start']

theorem toDigits_append_start (n : ℕ) (t : List Char) :
    ∃ d u, PyStr.ofChars (Nat.toDigits 10 n ++ t) = .scalar d :: u ∧ d.isDigit = true := by
  obtain ⟨d, ds, e⟩ := List.exists_cons_of_ne_nil (Nat.toDigits_ne_nil (n := n) (b := 10))
  rw [e]
  exact ⟨d, _, rfl, isDigit_of_mem_toDigits (n := n) d (e ▸ List.mem_cons_self)⟩

theorem readsBack_int (i : ℤ) : ReadsBack a (.int i) := by
  refine .number ?_ fun rest stop => parseNumber_writeInt i stop
  simp only [write, writeInt]
  obtain ⟨d, u, e, digit⟩ := toDigits_append_start i.natAbs []
  rw [List.append_nil] at e
  split_ifs
  · exact ⟨'-', _, rfl, .inr ⟨rfl, d, u, e, digit⟩⟩
  · exact ⟨d, u, e, .inl digit⟩

theorem readsBack_float (d : Decimal) : ReadsBack a (.float d) := by
  refine .number ?_ fun rest stop => parseNumber_repr d stop
  simp only [write, Decimal.repr, List.append_assoc]
  obtain ⟨c, u, e, digit⟩ := toDigits_append_start (d.digits / 10 ^ d.scale)
    ('.' :: Decimal.lowDigits d.scale (d.digits % 10 ^ d.scale))
  split_ifs
  · exact ⟨'-', _, rfl, .inr ⟨rfl, c, u, e, digit⟩⟩
  · exact ⟨c, u, e, .inl digit⟩

theorem readsAs_str {s t : PyStr} (read : StrReadsAs a s t) : ReadsAs a (.str s) (.str t) := by
  refine .intro fun n rest _ fuel => ?_
  have long := length_le_flatMap_escapeChar (a := a) s
  simp only [write, writeStr, List.length_cons, List.length_append] at fuel
  simp only [write, writeStr, List.cons_append, List.append_assoc, List.nil_append]
  rw [parseValue, if_pos rfl, read n rest (by omega)]
  rfl

theorem parseItems_last {v w : Json} (hv : ReadsAs a v w) (n : ℕ) (rest : PyStr)
    (fuel : (write a v).length < n) :
    parseItems n (write a v ++ .scalar ']' :: rest) = some ([w], rest) := by
  obtain ⟨n, rfl⟩ : ∃ m, n = m + 1 := ⟨n - 1, by omega⟩
  rw [parseItems, hv n _ (stops_bracket _) (by omega)]
  rfl

theorem parseItems_more {v v' w : Json} {ws : List Json} (hv : ReadsAs a v v') (n : ℕ)
    (t rest : PyStr) (fuel : (write a v).length ≤ n)
    (more : parseItems n (write a w ++ t) = some (ws, rest)) :
    parseItems (n + 1) (write a v ++ .scalar ',' :: (write a w ++ t)) =
      some (v' :: ws, rest) := by
  have comma : skipSpace (.scalar ',' :: (write a w ++ t)) =
      .scalar ',' :: (write a w ++ t) := rfl
  rw [parseItems, hv n _ (stops_comma _) fuel]
  simp only [Option.bind_eq_bind, Option.bind_some, comma, skipSpace_write, more]
  rfl

theorem parseFields_step {k k' : PyStr} {v v' : Json} (key : StrReadsAs a k k')
    (hv : ReadsAs a v v') (n : ℕ) (t : PyStr)
    (fuel : (writeField a (k, v)).length ≤ n + 1) :
    Stops t → parseFields (n + 1) (writeField a (k, v) ++ t) =
      match t with
      | .scalar '}' :: r => some ([(k', v')], r)
      | .scalar ',' :: r => do
        let (fs, r) ← parseFields n (skipSpace r)
        return ((k', v') :: fs, r)
      | _ => none := by
  intro stop
  have long := length_le_flatMap_escapeChar (a := a) k
  simp only [writeField, writeStr, List.length_cons, List.length_append] at fuel
  have colon : skipSpace (.scalar ':' :: (write a v ++ t)) =
    .scalar ':' :: (write a v ++ t) := rfl
  simp only [writeField, writeStr, List.cons_append, List.append_assoc, List.nil_append]
  rw [parseFields, key n _ (by omega)]
  simp only [Option.bind_eq_bind, Option.bind_some, colon, skipSpace_write,
    hv n t stop (by omega), stop.skipSpace]

mutual

theorem readsBack : (v : Json) → DistinctKeys v → a = false ∨ Unpaired v → ReadsBack a v
  | .null, _, _ => .intro fun _ _ _ _ => rfl
  | .bool true, _, _ => .intro fun _ _ _ _ => rfl
  | .bool false, _, _ => .intro fun _ _ _ _ => rfl
  | .int i, _, _ => readsBack_int i
  | .float d, _, _ => readsBack_float d
  | .nonFinite .nan, _, _ => .intro fun _ _ _ _ => rfl
  | .nonFinite .infinity, _, _ => .intro fun _ _ _ _ => rfl
  | .nonFinite .negInfinity, _, _ => .intro fun _ _ _ _ => rfl
  | .str s, _, unpaired => readsAs_str (parseStrBody_escape s unpaired)
  | .arr [], _, _ => .intro fun _ _ _ _ => rfl
  | .arr (v :: vs), distinct, unpaired => by
    refine .intro fun n rest _ fuel => ?_
    have first := readsBack v distinct.1 (unpaired.imp_right And.left)
    have items := readsBack_items v vs first distinct.2 (unpaired.imp_right And.right) n rest
    simp only [write, List.length_cons, List.length_append] at fuel
    obtain ⟨c, t, e, -, close⟩ := write_eq_cons (a := a) v
    simp only [write, List.cons_append, List.append_assoc]
    rw [parseValue, if_neg (by decide), if_pos rfl, skipSpace_write, if_neg, items (by omega)]
    · rfl
    · rw [e, List.cons_append, List.head?_cons]
      exact fun h => close (Option.some.inj h)
  | .obj [], _, _ => .intro fun _ _ _ _ => rfl
  | .obj ((k, v) :: fs), distinct, unpaired => by
    refine .intro fun n rest _ fuel => ?_
    have first := readsBack v distinct.2.1 (unpaired.imp_right fun h => h.1.2)
    have fields := readsBack_fields k v fs (unpaired.imp_right fun h => h.1.1) first distinct.2.2
      (unpaired.imp_right And.right) n rest
    simp only [write, List.length_cons, List.length_append] at fuel
    have open_ : skipSpace (writeField a (k, v) ++ (writeFields a fs ++ rest)) =
      writeField a (k, v) ++ (writeFields a fs ++ rest) := rfl
    simp only [write, List.cons_append, List.append_assoc]
    rw [parseValue, if_neg (by decide), if_neg (by decide), if_pos rfl, open_, if_neg,
      fields (by omega), Option.map_some, dictFields_of_nodup distinct.1]
    exact fun h => absurd (Option.some.inj h) (by decide)

theorem readsBack_items (v : Json) : (vs : List Json) → ReadsBack a v → DistinctItems vs →
    a = false ∨ ItemsUnpaired vs →
    ∀ n rest, (write a v).length + (writeItems a vs).length ≤ n →
      parseItems n (write a v ++ (writeItems a vs ++ rest)) = some (v :: vs, rest)
  | [], hv, _, _, n, rest, fuel => parseItems_last hv n rest (Nat.lt_of_succ_le fuel)
  | w :: ws, hv, distinct, unpaired, n, rest, fuel => by
    have next := readsBack w distinct.1 (unpaired.imp_right And.left)
    have more := readsBack_items w ws next distinct.2 (unpaired.imp_right And.right) (n - 1) rest
    simp only [writeItems, List.length_cons, List.length_append] at fuel
    obtain ⟨m, rfl⟩ : ∃ m, n = m + 1 := ⟨n - 1, by omega⟩
    simp only [writeItems, List.cons_append, List.append_assoc]
    exact parseItems_more hv m _ rest (by omega) (more (by omega))

theorem readsBack_fields (k : PyStr) (v : Json) : (fs : List (PyStr × Json)) →
    a = false ∨ k.Unpaired → ReadsBack a v → DistinctFields fs → a = false ∨ FieldsUnpaired fs →
    ∀ n rest, (writeField a (k, v)).length + (writeFields a fs).length ≤ n →
      parseFields n (writeField a (k, v) ++ (writeFields a fs ++ rest)) =
        some ((k, v) :: fs, rest)
  | [], key, hv, _, _, n, rest, fuel => by
    simp only [writeFields, List.length_cons, List.length_nil] at fuel
    obtain ⟨m, rfl⟩ : ∃ m, n = m + 1 := ⟨n - 1, by omega⟩
    exact parseFields_step (parseStrBody_escape k key) hv m _ (by omega) (stops_brace rest)
  | (l, w) :: fs, key, hv, distinct, unpaired, n, rest, fuel => by
    have next := readsBack w distinct.1 (unpaired.imp_right fun h => h.1.2)
    have more := readsBack_fields l w fs (unpaired.imp_right fun h => h.1.1) next distinct.2
      (unpaired.imp_right And.right) (n - 1) rest
    simp only [writeFields, List.length_cons, List.length_append] at fuel
    obtain ⟨m, rfl⟩ : ∃ m, n = m + 1 := ⟨n - 1, by omega⟩
    rw [Nat.add_sub_cancel] at more
    have head : skipSpace (writeField a (l, w) ++ (writeFields a fs ++ rest)) =
      writeField a (l, w) ++ (writeFields a fs ++ rest) := rfl
    simp only [writeFields, List.cons_append, List.append_assoc]
    rw [parseFields_step (parseStrBody_escape k key) hv m _ (by omega) (stops_comma _)]
    simp only [head, more (by omega)]
    rfl

end

theorem loads_write (v : Json) (distinct : DistinctKeys v) (unpaired : a = false ∨ Unpaired v) :
    loads (write a v) = some v := by
  have value := readsBack v distinct unpaired ((write a v).length + 1) [] trivial (Nat.le_succ _)
  have start := skipSpace_write (a := a) v []
  rw [List.append_nil] at value start
  rw [loads, start, value]
  rfl

theorem loads_dumps (v : Json) (distinct : DistinctKeys v) :
    loads (dumps false v) = some (sortKeys v) :=
  loads_write _ (distinctKeys_sortKeys v distinct) (.inl rfl)

theorem loads_dumps_ascii (v : Json) (distinct : DistinctKeys v) (unpaired : Unpaired v) :
    loads (dumps true v) = some (sortKeys v) :=
  loads_write _ (distinctKeys_sortKeys v distinct) (.inr (unpaired_sortKeys v unpaired))

theorem sortKeys_eq_of_dumps_eq {v w : Json} (hv : DistinctKeys v) (hw : DistinctKeys w)
    (h : dumps false v = dumps false w) : sortKeys v = sortKeys w := by
  have read := loads_dumps v hv
  rw [h, loads_dumps w hw] at read
  exact (Option.some.inj read).symm

end Json

end SimplicioFast
