import SimplicioFast.Lib.Dict
import SimplicioFast.Lib.Text

/-!
# JSON values

The values that `json.dumps` accepts, Python's equality on them, and the text that `dumps` writes
with `sort_keys=True` and `separators=(",", ":")`.  The text encodes to UTF-8 exactly when no string
inside the value holds a lone surrogate (`encode_dumps_isSome_iff`).
-/

namespace SimplicioFast


/-- A finite float, by the decimal that `repr` writes: `digits / 10 ^ scale`, with at least one
fractional digit and no trailing zero after the first. -/
structure Decimal where
  neg : Bool
  digits : ℕ
  scale : ℕ
  one_le_scale : 1 ≤ scale
  normal : 1 < scale → digits % 10 ≠ 0
deriving DecidableEq

/-- The floats that are not finite. -/
inductive NonFinite
  | nan
  | infinity
  | negInfinity
deriving DecidableEq

/-- A JSON value as Python holds it; the fields of an object are in insertion order. -/
inductive Json
  | null
  | bool (b : Bool)
  | int (n : ℤ)
  | float (d : Decimal)
  | nonFinite (k : NonFinite)
  | str (s : PyStr)
  | arr (items : List Json)
  | obj (fields : List (PyStr × Json))

namespace Decimal

/-- The float `digits / 10 ^ scale`. -/
def make (neg : Bool) : ℕ → ℕ → Decimal
  | d, 0 => ⟨neg, d * 10, 1, le_rfl, by omega⟩
  | d, 1 => ⟨neg, d, 1, le_rfl, by omega⟩
  | d, s + 2 => if h : d % 10 = 0 then make neg (d / 10) (s + 1)
      else ⟨neg, d, s + 2, by omega, fun _ => h⟩

theorem make_self (d : Decimal) : make d.neg d.digits d.scale = d := by
  obtain ⟨neg, digits, scale, one_le, normal⟩ := d
  match scale with
  | 0 => omega
  | 1 => rfl
  | s + 2 => simp only [make, dif_neg (normal (by omega))]

/-- The `k` low-order decimal digits of `n`, most significant first. -/
def lowDigits : ℕ → ℕ → List Char
  | 0, _ => []
  | k + 1, n => lowDigits k (n / 10) ++ [Nat.digitChar (n % 10)]

/-- `float.__repr__` in positional notation. -/
def repr (d : Decimal) : List Char :=
  (if d.neg then ['-'] else []) ++ Nat.toDigits 10 (d.digits / 10 ^ d.scale) ++
    '.' :: lowDigits d.scale (d.digits % 10 ^ d.scale)

theorem length_lowDigits (k n : ℕ) : (lowDigits k n).length = k := by
  induction k generalizing n with
  | zero => rfl
  | succ k ih => simp [lowDigits, ih]

theorem isDigit_digitChar : ∀ n < 10, (Nat.digitChar n).isDigit = true := by decide

theorem isDigit_of_mem_lowDigits {k n : ℕ} {c : Char} (h : c ∈ lowDigits k n) :
    c.isDigit = true := by
  induction k generalizing n with
  | zero => cases h
  | succ k ih =>
    rcases List.mem_append.1 h with h | h
    · exact ih h
    · rw [List.mem_singleton.1 h]
      exact isDigit_digitChar _ (by omega)

theorem ofDigitChars_lowDigits {k n : ℕ} (h : n < 10 ^ k) :
    Nat.ofDigitChars 10 (lowDigits k n) 0 = n := by
  induction k generalizing n with
  | zero =>
    rw [pow_zero, Nat.lt_one_iff] at h
    rw [h]
    rfl
  | succ k ih =>
    have hq : n / 10 < 10 ^ k := Nat.div_lt_of_lt_mul (by rwa [mul_comm, ← pow_succ])
    rw [lowDigits, Nat.ofDigitChars_append, ih hq,
      Nat.ofDigitChars_cons_digitChar_of_lt_ten (by omega), Nat.ofDigitChars_nil]
    omega

end Decimal

namespace Json

/-! ## Equality -/

/-- The number as a decimal fraction `p / 10 ^ q`; `True` and `False` are the numbers 1 and 0. -/
def number? : Json → Option (ℤ × ℕ)
  | .bool b => some (if b then 1 else 0, 0)
  | .int n => some (n, 0)
  | .float d => some (if d.neg then -(d.digits : ℤ) else d.digits, d.scale)
  | _ => none

/-- Numbers are equal by value, whatever their types. -/
def eqNumber (v w : Json) : Bool :=
  match number? v, number? w with
  | some (p, q), some (r, s) => p * 10 ^ s = r * 10 ^ q
  | _, _ => false

mutual

/-- Python's `==`; two NaN objects are never equal. -/
def pyEq : Json → Json → Bool
  | .null, w => match w with
    | .null => true
    | _ => false
  | .bool b, w => eqNumber (.bool b) w
  | .int n, w => eqNumber (.int n) w
  | .float d, w => eqNumber (.float d) w
  | .nonFinite j, w => match w with
    | .nonFinite k => j = k && j ≠ .nan
    | _ => false
  | .str s, w => match w with
    | .str t => s = t
    | _ => false
  | .arr vs, w => match w with
    | .arr ws => pyEqItems vs ws
    | _ => false
  | .obj fs, w => match w with
    | .obj gs => fs.length = gs.length && pyEqFields fs gs
    | _ => false
termination_by structural v => v

/-- `pyEq` item by item. -/
def pyEqItems : List Json → List Json → Bool
  | [], ws => ws.isEmpty
  | v :: vs, ws => match ws with
    | [] => false
    | w :: ws => pyEq v w && pyEqItems vs ws
termination_by structural vs => vs

/-- `pyEq` of the value of a field with the value of the other object under the same key. -/
def pyEqField : PyStr × Json → List (PyStr × Json) → Bool
  | (k, v), gs => match Dict.find gs k with
    | some w => pyEq v w
    | none => false
termination_by structural f => f

/-- `pyEqField` for every field. -/
def pyEqFields : List (PyStr × Json) → List (PyStr × Json) → Bool
  | [], _ => true
  | f :: fs, gs => pyEqField f gs && pyEqFields fs gs
termination_by structural fs => fs

end

/-! ## Writing -/

/-- The digits of a `\u` escape. -/
def unicodeEscape (n : ℕ) : List Char :=
  ['\\', 'u', Bytes.hexDigit (n / 4096), Bytes.hexDigit (n / 256 % 16),
    Bytes.hexDigit (n / 16 % 16), Bytes.hexDigit (n % 16)]

/-- The escapes that `json.dumps` uses with and without `ensure_ascii`. -/
def escapeChar (ensureAscii : Bool) (c : PyChar) : PyStr :=
  if c.code = 34 then "\\\""
  else if c.code = 92 then "\\\\"
  else if c.code = 10 then "\\n"
  else if c.code = 13 then "\\r"
  else if c.code = 9 then "\\t"
  else if c.code = 12 then "\\f"
  else if c.code = 8 then "\\b"
  else if c.code < 32 then PyStr.ofChars (unicodeEscape c.code)
  else if ensureAscii = false ∨ c.code < 127 then [c]
  else if c.code < 0x10000 then PyStr.ofChars (unicodeEscape c.code)
  else
    PyStr.ofChars (unicodeEscape (0xD800 + (c.code - 0x10000) / 1024) ++
      unicodeEscape (0xDC00 + (c.code - 0x10000) % 1024))

def writeStr (ensureAscii : Bool) (s : PyStr) : PyStr :=
  .scalar '"' :: (s.flatMap (escapeChar ensureAscii) ++ [.scalar '"'])

def writeInt (n : ℤ) : PyStr :=
  PyStr.ofChars ((if n < 0 then ['-'] else []) ++ Nat.toDigits 10 n.natAbs)

/-- The literals of the floats that are not finite. -/
def writeNonFinite : NonFinite → PyStr
  | .nan => "NaN"
  | .infinity => "Infinity"
  | .negInfinity => "-Infinity"

mutual

/-- The compact text of a value, keys in the order in which the value holds them. -/
def write (ensureAscii : Bool) : Json → PyStr
  | .null => "null"
  | .bool b => if b then "true" else "false"
  | .int n => writeInt n
  | .float d => PyStr.ofChars d.repr
  | .nonFinite k => writeNonFinite k
  | .str s => writeStr ensureAscii s
  | .arr [] => "[]"
  | .arr (v :: vs) => .scalar '[' :: (write ensureAscii v ++ writeItems ensureAscii vs)
  | .obj [] => "\x7b\x7d"
  | .obj (f :: fs) => .scalar '{' :: (writeField ensureAscii f ++ writeFields ensureAscii fs)

/-- The items after the first one, and the closing bracket. -/
def writeItems (ensureAscii : Bool) : List Json → PyStr
  | [] => [.scalar ']']
  | v :: vs => .scalar ',' :: (write ensureAscii v ++ writeItems ensureAscii vs)

def writeField (ensureAscii : Bool) : PyStr × Json → PyStr
  | (k, v) => writeStr ensureAscii k ++ .scalar ':' :: write ensureAscii v

/-- The fields after the first one, and the closing brace. -/
def writeFields (ensureAscii : Bool) : List (PyStr × Json) → PyStr
  | [] => [.scalar '}']
  | f :: fs => .scalar ',' :: (writeField ensureAscii f ++ writeFields ensureAscii fs)

end

mutual

/-- The value with the keys of every object sorted. -/
def sortKeys : Json → Json
  | .arr vs => .arr (sortItems vs)
  | .obj fs => .obj ((sortFields fs).insertionSort fun f g => f.1 ≤ g.1)
  | .null => .null
  | .bool b => .bool b
  | .int n => .int n
  | .float d => .float d
  | .nonFinite k => .nonFinite k
  | .str s => .str s

/-- `sortKeys` in every item. -/
def sortItems : List Json → List Json
  | [] => []
  | v :: vs => sortKeys v :: sortItems vs

/-- `sortKeys` in the value of a field. -/
def sortField : PyStr × Json → PyStr × Json
  | (k, v) => (k, sortKeys v)

/-- `sortKeys` in the value of every field. -/
def sortFields : List (PyStr × Json) → List (PyStr × Json)
  | [] => []
  | f :: fs => sortField f :: sortFields fs

end

/-- `json.dumps(value, sort_keys=True, separators=(",", ":"), ensure_ascii=…)`. -/
def dumps (ensureAscii : Bool) (v : Json) : PyStr := write ensureAscii (sortKeys v)

/-! ### The place of a field -/

theorem orderedInsert_around (e : PyStr × Json) (k : PyStr) (before behind : List (PyStr × Json)) :
    ∃ before' behind', ∀ v, (before ++ (k, v) :: behind).orderedInsert (fun f g => f.1 ≤ g.1) e =
      before' ++ (k, v) :: behind' := by
  induction before with
  | nil =>
    by_cases le : e.1 ≤ k
    · refine ⟨[e], behind, fun v => ?_⟩
      rw [List.nil_append, List.orderedInsert_cons, if_pos le]
      rfl
    · refine ⟨[], behind.orderedInsert (fun f g => f.1 ≤ g.1) e, fun v => ?_⟩
      rw [List.nil_append, List.orderedInsert_cons, if_neg le]
      rfl
  | cons f before ih =>
    by_cases le : e.1 ≤ f.1
    · refine ⟨e :: f :: before, behind, fun v => ?_⟩
      rw [List.cons_append, List.orderedInsert_cons, if_pos le]
      rfl
    · obtain ⟨before', behind', inserted⟩ := ih
      refine ⟨f :: before', behind', fun v => ?_⟩
      rw [List.cons_append, List.orderedInsert_cons, if_neg le, inserted]
      rfl

theorem insertionSort_around (k : PyStr) (before behind : List (PyStr × Json)) :
    ∃ before' behind', ∀ v, (before ++ (k, v) :: behind).insertionSort (fun f g => f.1 ≤ g.1) =
      before' ++ (k, v) :: behind' := by
  induction before with
  | nil =>
    refine ⟨(behind.insertionSort fun f g => f.1 ≤ g.1).takeWhile fun g => ¬ k ≤ g.1,
      (behind.insertionSort fun f g => f.1 ≤ g.1).dropWhile fun g => ¬ k ≤ g.1, fun v => ?_⟩
    rw [List.nil_append, List.insertionSort_cons, List.orderedInsert_eq_take_drop]
  | cons e before ih =>
    obtain ⟨before', behind', sorted⟩ := ih
    obtain ⟨before'', behind'', inserted⟩ := orderedInsert_around e k before' behind'
    refine ⟨before'', behind'', fun v => ?_⟩
    rw [List.cons_append, List.insertionSort_cons, sorted, inserted]

theorem sortFields_append (fs gs : List (PyStr × Json)) :
    sortFields (fs ++ gs) = sortFields fs ++ sortFields gs := by
  induction fs with
  | nil => rfl
  | cons f fs ih => rw [List.cons_append, sortFields, sortFields, ih, List.cons_append]

theorem writeFields_append (a : Bool) (fs : List (PyStr × Json)) :
    ∃ text, ∀ gs, writeFields a (fs ++ gs) = text ++ writeFields a gs := by
  induction fs with
  | nil => exact ⟨[], fun _ => rfl⟩
  | cons f fs ih =>
    obtain ⟨text, e⟩ := ih
    refine ⟨.scalar ',' :: (writeField a f ++ text), fun gs => ?_⟩
    rw [List.cons_append, writeFields, e, List.cons_append, List.append_assoc]

theorem dumps_around (a : Bool) (k : PyStr) (before behind : List (PyStr × Json)) :
    ∃ text text', ∀ v, dumps a (.obj (before ++ (k, v) :: behind)) = text ++ (write a (sortKeys v) ++ text') := by
  obtain ⟨before', behind', sorted⟩ := insertionSort_around k (sortFields before) (sortFields behind)
  have keys (v : Json) : sortKeys (.obj (before ++ (k, v) :: behind)) =
      .obj (before' ++ (k, sortKeys v) :: behind') := by
    rw [sortKeys, sortFields_append, ← sorted]
    rfl
  cases before' with
  | nil =>
    refine ⟨.scalar '{' :: (writeStr a k ++ [.scalar ':']), writeFields a behind', fun v => ?_⟩
    simp only [dumps, keys, List.nil_append, write, writeField, List.cons_append, List.append_assoc]
  | cons f before' =>
    obtain ⟨text, written⟩ := writeFields_append a before'
    refine ⟨.scalar '{' :: (writeField a f ++ (text ++ .scalar ',' :: (writeStr a k ++ [.scalar ':']))),
      writeFields a behind', fun v => ?_⟩
    simp only [dumps, keys, List.cons_append, write, written, writeFields, writeField, List.append_assoc,
      List.nil_append]

mutual

/-- Whether `json.dumps(…, allow_nan=False)` accepts the value. -/
def isFinite : Json → Bool
  | .nonFinite _ => false
  | .arr vs => itemsFinite vs
  | .obj fs => fieldsFinite fs
  | _ => true

/-- `isFinite` of every item. -/
def itemsFinite : List Json → Bool
  | [] => true
  | v :: vs => isFinite v && itemsFinite vs

/-- `isFinite` of the value of a field. -/
def fieldFinite : PyStr × Json → Bool
  | (_, v) => isFinite v

/-- `isFinite` of the value of every field. -/
def fieldsFinite : List (PyStr × Json) → Bool
  | [] => true
  | f :: fs => fieldFinite f && fieldsFinite fs

end

/-! ## Distinct keys -/

mutual

/-- No object inside the value holds a key twice; every Python `dict` has distinct keys. -/
def DistinctKeys : Json → Prop
  | .arr vs => DistinctItems vs
  | .obj fs => (fs.map Prod.fst).Nodup ∧ DistinctFields fs
  | _ => True

/-- `DistinctKeys` of every item. -/
def DistinctItems : List Json → Prop
  | [] => True
  | v :: vs => DistinctKeys v ∧ DistinctItems vs

/-- `DistinctKeys` of the value of a field. -/
def DistinctField : PyStr × Json → Prop
  | (_, v) => DistinctKeys v

/-- `DistinctKeys` of the value of every field. -/
def DistinctFields : List (PyStr × Json) → Prop
  | [] => True
  | f :: fs => DistinctField f ∧ DistinctFields fs

end

mutual

instance decidableDistinctKeys : (v : Json) → Decidable (DistinctKeys v)
  | .arr vs => decidableDistinctItems vs
  | .obj fs => @instDecidableAnd _ _ inferInstance (decidableDistinctFields fs)
  | .null | .bool _ | .int _ | .float _ | .nonFinite _ | .str _ => .isTrue trivial

instance decidableDistinctItems : (vs : List Json) → Decidable (DistinctItems vs)
  | [] => .isTrue trivial
  | v :: vs => @instDecidableAnd _ _ (decidableDistinctKeys v) (decidableDistinctItems vs)

instance decidableDistinctField : (f : PyStr × Json) → Decidable (DistinctField f)
  | (_, v) => decidableDistinctKeys v

instance decidableDistinctFields : (fs : List (PyStr × Json)) → Decidable (DistinctFields fs)
  | [] => .isTrue trivial
  | f :: fs => @instDecidableAnd _ _ (decidableDistinctField f) (decidableDistinctFields fs)

end

theorem distinctFields_iff {fs : List (PyStr × Json)} :
    DistinctFields fs ↔ ∀ f ∈ fs, DistinctKeys f.2 := by
  induction fs with
  | nil => simp [DistinctFields]
  | cons f fs ih =>
    obtain ⟨k, v⟩ := f
    rw [DistinctFields, ih, List.forall_mem_cons]
    rfl

@[simp] theorem length_sortFields (fs : List (PyStr × Json)) :
    (sortFields fs).length = fs.length := by
  induction fs with
  | nil => rfl
  | cons f fs ih => rw [sortFields, List.length_cons, List.length_cons, ih]

theorem map_fst_sortFields (fs : List (PyStr × Json)) :
    (sortFields fs).map Prod.fst = fs.map Prod.fst := by
  induction fs with
  | nil => rfl
  | cons f fs ih =>
    obtain ⟨k, v⟩ := f
    rw [sortFields, List.map_cons, List.map_cons, ih]
    rfl

mutual

theorem distinctKeys_sortKeys : (v : Json) → DistinctKeys v → DistinctKeys (sortKeys v)
  | .null, _ => trivial
  | .bool _, _ => trivial
  | .int _, _ => trivial
  | .float _, _ => trivial
  | .nonFinite _, _ => trivial
  | .str _, _ => trivial
  | .arr vs, distinct => distinctItems_sortItems vs distinct
  | .obj fs, distinct => by
    have perm := List.perm_insertionSort (fun f g => f.1 ≤ g.1) (sortFields fs)
    refine ⟨?_, ?_⟩
    · rw [(perm.map Prod.fst).nodup_iff, map_fst_sortFields]
      exact distinct.1
    · rw [distinctFields_iff]
      intro f hf
      exact (distinctFields_iff.1 (distinctFields_sortFields fs distinct.2)) f (perm.mem_iff.1 hf)

theorem distinctItems_sortItems : (vs : List Json) → DistinctItems vs →
    DistinctItems (sortItems vs)
  | [], _ => trivial
  | v :: vs, distinct =>
    ⟨distinctKeys_sortKeys v distinct.1, distinctItems_sortItems vs distinct.2⟩

theorem distinctFields_sortFields : (fs : List (PyStr × Json)) → DistinctFields fs →
    DistinctFields (sortFields fs)
  | [], _ => trivial
  | (_, v) :: fs, distinct =>
    ⟨distinctKeys_sortKeys v distinct.1, distinctFields_sortFields fs distinct.2⟩

end

theorem find_eq_of_sortKeys_eq {fs gs : List (PyStr × Json)} (hf : (fs.map Prod.fst).Nodup)
    (hg : (gs.map Prod.fst).Nodup) (h : sortKeys (.obj fs) = sortKeys (.obj gs)) (k : PyStr) :
    (Dict.find fs k).map sortKeys = (Dict.find gs k).map sortKeys := by
  have sorted (es : List (PyStr × Json)) : (Dict.find es k).map sortKeys =
      Dict.find (sortFields es) k := by
    induction es with
    | nil => rfl
    | cons e es ih =>
      obtain ⟨l, v⟩ := e
      rw [sortFields, sortField, Dict.find_cons, Dict.find_cons, ← ih]
      split_ifs <;> rfl
  have insertion {es : List (PyStr × Json)} (he : (es.map Prod.fst).Nodup) :
      Dict.find ((sortFields es).insertionSort fun f g => f.1 ≤ g.1) k =
        Dict.find (sortFields es) k :=
    Dict.lookup_perm (by rwa [map_fst_sortFields]) (List.perm_insertionSort _ _).symm k
  rw [sortKeys, sortKeys, Json.obj.injEq] at h
  rw [sorted, sorted, ← insertion hf, ← insertion hg, h]

end Json

/-- A JSON object with distinct keys: the value of a Python `dict`. -/
@[ext]
structure JsonObject where
  fields : List (PyStr × Json)
  distinct : (Json.obj fields).DistinctKeys

namespace JsonObject

def empty : JsonObject := ⟨[], List.nodup_nil, trivial⟩

def single (k : PyStr) (v : Json) (h : v.DistinctKeys) : JsonObject :=
  ⟨[(k, v)], List.nodup_singleton k, h, trivial⟩

def toJson (m : JsonObject) : Json := .obj m.fields

/-- The dictionary that a JSON value is. -/
def ofJson? : Json → Option JsonObject
  | .obj fs => if h : (Json.obj fs).DistinctKeys then some ⟨fs, h⟩ else none
  | _ => none

theorem ofJson?_toJson (m : JsonObject) : ofJson? m.toJson = some m := dif_pos m.distinct

end JsonObject

namespace Json

/-- `json.dumps` of a string or `None`. -/
def optStr : Option PyStr → Json
  | none => .null
  | some s => .str s

/-- The value of an object under a key. -/
def get? (v : Json) (key : PyStr) : Option Json :=
  match v with
  | .obj fields => Dict.find fields key
  | _ => none

/-- `json.dumps` of an integer or `None`. -/
def optInt : Option ℤ → Json
  | none => .null
  | some n => .int n

/-! ## Lone surrogates -/

mutual

/-- Whether the lone surrogate `n` occurs in a key or a string inside the value. -/
def HasSurrogate (n : Fin 2048) : Json → Prop
  | .str s => .surrogate n ∈ s
  | .arr vs => ItemsHaveSurrogate n vs
  | .obj fs => FieldsHaveSurrogate n fs
  | _ => False

/-- `HasSurrogate` of some item. -/
def ItemsHaveSurrogate (n : Fin 2048) : List Json → Prop
  | [] => False
  | v :: vs => HasSurrogate n v ∨ ItemsHaveSurrogate n vs

/-- `HasSurrogate` of the key or the value of a field. -/
def FieldHasSurrogate (n : Fin 2048) : PyStr × Json → Prop
  | (k, v) => .surrogate n ∈ k ∨ HasSurrogate n v

/-- `FieldHasSurrogate` of some field. -/
def FieldsHaveSurrogate (n : Fin 2048) : List (PyStr × Json) → Prop
  | [] => False
  | f :: fs => FieldHasSurrogate n f ∨ FieldsHaveSurrogate n fs

end

theorem surrogate_notMem_ofChars (n : Fin 2048) (l : List Char) :
    PyChar.surrogate n ∉ PyStr.ofChars l := by
  simp [PyStr.ofChars]

theorem surrogate_mem_escapeChar_iff (n : Fin 2048) (c : PyChar) :
    .surrogate n ∈ escapeChar false c ↔ c = .surrogate n := by
  constructor
  · intro h
    unfold escapeChar at h
    split_ifs at h
    all_goals first
      | exact absurd h (surrogate_notMem_ofChars n _)
      | exact (List.mem_singleton.1 h).symm
  · rintro rfl
    have low : ∀ k, k < 0xD800 → PyChar.code (.surrogate n) ≠ k := by
      intro k hk e
      simp only [PyChar.code] at e
      omega
    unfold escapeChar
    rw [if_neg (low _ (by decide)), if_neg (low _ (by decide)), if_neg (low _ (by decide)),
      if_neg (low _ (by decide)), if_neg (low _ (by decide)), if_neg (low _ (by decide)),
      if_neg (low _ (by decide)), if_neg, if_pos (.inl rfl)]
    · exact List.mem_singleton_self _
    · simp only [PyChar.code]
      omega

theorem surrogate_mem_writeStr_iff (n : Fin 2048) (s : PyStr) :
    .surrogate n ∈ writeStr false s ↔ .surrogate n ∈ s := by
  simp only [writeStr, List.mem_cons, List.mem_append, List.mem_flatMap,
    surrogate_mem_escapeChar_iff, List.not_mem_nil, or_false, reduceCtorEq, false_or]
  exact ⟨fun ⟨_, h, e⟩ => e ▸ h, fun h => ⟨_, h, rfl⟩⟩

mutual

theorem surrogate_mem_write_iff (n : Fin 2048) :
    (v : Json) → (.surrogate n ∈ write false v ↔ HasSurrogate n v)
  | .null => by simp [write, HasSurrogate, surrogate_notMem_ofChars]
  | .bool b => by cases b <;> simp [write, HasSurrogate, surrogate_notMem_ofChars]
  | .int i => by simp [write, HasSurrogate, writeInt, surrogate_notMem_ofChars]
  | .float d => by simp [write, HasSurrogate, surrogate_notMem_ofChars]
  | .nonFinite k => by
    cases k <;> simp [write, HasSurrogate, writeNonFinite, surrogate_notMem_ofChars]
  | .str s => by rw [write, HasSurrogate, surrogate_mem_writeStr_iff]
  | .arr [] => by simp [write, HasSurrogate, ItemsHaveSurrogate, surrogate_notMem_ofChars]
  | .arr (v :: vs) => by
    simp [write, HasSurrogate, ItemsHaveSurrogate, surrogate_mem_write_iff n v,
      surrogate_mem_writeItems_iff n vs]
  | .obj [] => by simp [write, HasSurrogate, FieldsHaveSurrogate, surrogate_notMem_ofChars]
  | .obj ((k, v) :: fs) => by
    simp [write, HasSurrogate, FieldsHaveSurrogate, writeField, FieldHasSurrogate,
      surrogate_mem_writeStr_iff, surrogate_mem_write_iff n v, surrogate_mem_writeFields_iff n fs,
      or_assoc]

theorem surrogate_mem_writeItems_iff (n : Fin 2048) :
    (vs : List Json) → (.surrogate n ∈ writeItems false vs ↔ ItemsHaveSurrogate n vs)
  | [] => by simp [writeItems, ItemsHaveSurrogate]
  | v :: vs => by
    simp [writeItems, ItemsHaveSurrogate, surrogate_mem_write_iff n v,
      surrogate_mem_writeItems_iff n vs]

theorem surrogate_mem_writeFields_iff (n : Fin 2048) :
    (fs : List (PyStr × Json)) → (.surrogate n ∈ writeFields false fs ↔ FieldsHaveSurrogate n fs)
  | [] => by simp [writeFields, FieldsHaveSurrogate]
  | (k, v) :: fs => by
    simp [writeFields, FieldsHaveSurrogate, writeField, FieldHasSurrogate,
      surrogate_mem_writeStr_iff, surrogate_mem_write_iff n v, surrogate_mem_writeFields_iff n fs,
      or_assoc]

end

theorem fieldsHaveSurrogate_iff {n : Fin 2048} {fs : List (PyStr × Json)} :
    FieldsHaveSurrogate n fs ↔ ∃ f ∈ fs, FieldHasSurrogate n f := by
  induction fs with
  | nil => simp [FieldsHaveSurrogate]
  | cons f fs ih => rw [FieldsHaveSurrogate, ih, List.exists_mem_cons_iff]

mutual

theorem hasSurrogate_sortKeys_iff (n : Fin 2048) :
    (v : Json) → (HasSurrogate n (sortKeys v) ↔ HasSurrogate n v)
  | .null => .rfl
  | .bool _ => .rfl
  | .int _ => .rfl
  | .float _ => .rfl
  | .nonFinite _ => .rfl
  | .str _ => .rfl
  | .arr vs => itemsHaveSurrogate_sortItems_iff n vs
  | .obj fs => by
    have perm := List.perm_insertionSort (fun f g => f.1 ≤ g.1) (sortFields fs)
    rw [HasSurrogate, ← fieldsHaveSurrogate_sortFields_iff n fs, sortKeys, HasSurrogate,
      fieldsHaveSurrogate_iff, fieldsHaveSurrogate_iff]
    simp only [perm.mem_iff]

theorem itemsHaveSurrogate_sortItems_iff (n : Fin 2048) :
    (vs : List Json) → (ItemsHaveSurrogate n (sortItems vs) ↔ ItemsHaveSurrogate n vs)
  | [] => .rfl
  | v :: vs => or_congr (hasSurrogate_sortKeys_iff n v) (itemsHaveSurrogate_sortItems_iff n vs)

theorem fieldsHaveSurrogate_sortFields_iff (n : Fin 2048) :
    (fs : List (PyStr × Json)) → (FieldsHaveSurrogate n (sortFields fs) ↔ FieldsHaveSurrogate n fs)
  | [] => .rfl
  | (_, v) :: fs => or_congr (or_congr .rfl (hasSurrogate_sortKeys_iff n v))
    (fieldsHaveSurrogate_sortFields_iff n fs)

end

theorem encode_dumps_isSome_iff (v : Json) :
    (dumps false v).encode.isSome ↔ ∀ n, ¬ HasSurrogate n v := by
  simp only [PyStr.encode_isSome_iff, dumps, surrogate_mem_write_iff, hasSurrogate_sortKeys_iff]

/-! ## Surrogate pairs -/

mutual

/-- No key and no string inside the value has a high surrogate directly before a low one. -/
def Unpaired : Json → Prop
  | .str s => s.Unpaired
  | .arr vs => ItemsUnpaired vs
  | .obj fs => FieldsUnpaired fs
  | _ => True

/-- `Unpaired` of every item. -/
def ItemsUnpaired : List Json → Prop
  | [] => True
  | v :: vs => Unpaired v ∧ ItemsUnpaired vs

/-- `Unpaired` of the key and the value of a field. -/
def FieldUnpaired : PyStr × Json → Prop
  | (k, v) => k.Unpaired ∧ Unpaired v

/-- `FieldUnpaired` of every field. -/
def FieldsUnpaired : List (PyStr × Json) → Prop
  | [] => True
  | f :: fs => FieldUnpaired f ∧ FieldsUnpaired fs

end

theorem fieldsUnpaired_iff {fs : List (PyStr × Json)} :
    FieldsUnpaired fs ↔ ∀ f ∈ fs, FieldUnpaired f := by
  induction fs with
  | nil => simp [FieldsUnpaired]
  | cons f fs ih => rw [FieldsUnpaired, ih, List.forall_mem_cons]

mutual

theorem unpaired_sortKeys : (v : Json) → Unpaired v → Unpaired (sortKeys v)
  | .null, _ => trivial
  | .bool _, _ => trivial
  | .int _, _ => trivial
  | .float _, _ => trivial
  | .nonFinite _, _ => trivial
  | .str _, h => h
  | .arr vs, h => itemsUnpaired_sortItems vs h
  | .obj fs, h => by
    have perm := List.perm_insertionSort (fun f g => f.1 ≤ g.1) (sortFields fs)
    have sorted := fieldsUnpaired_iff.1 (fieldsUnpaired_sortFields fs h)
    exact fieldsUnpaired_iff.2 fun f mem => sorted f (perm.mem_iff.1 mem)

theorem itemsUnpaired_sortItems : (vs : List Json) → ItemsUnpaired vs → ItemsUnpaired (sortItems vs)
  | [], _ => trivial
  | v :: vs, h => ⟨unpaired_sortKeys v h.1, itemsUnpaired_sortItems vs h.2⟩

theorem fieldsUnpaired_sortFields : (fs : List (PyStr × Json)) → FieldsUnpaired fs →
    FieldsUnpaired (sortFields fs)
  | [], _ => trivial
  | (_, v) :: fs, h => ⟨⟨h.1.1, unpaired_sortKeys v h.1.2⟩, fieldsUnpaired_sortFields fs h.2⟩

end

end Json

end SimplicioFast
