import SimplicioFast.Lib.JsonParse

/-!
# Canonical texts of JSON values

What the canonical text of a value says about the values inside it.  Sorting the keys twice is
sorting them once (`sortKeys_sortKeys`), a part of a value has a text no longer than the value
(`length_dumps_le_of_mem`), and the text that `dumps` writes by default is ASCII, so its bytes
decode to it (`decode_encodeAscii_dumps`).  Whatever the parser accepts has distinct keys
(`distinctKeys_of_loads`).
-/

namespace SimplicioFast

namespace Json

variable {v w : Json} {vs : List Json} {fs : List (PyStr × Json)} {k : PyStr}

/-! ## Sorted keys -/

theorem sortItems_eq_map (vs : List Json) : sortItems vs = vs.map sortKeys := by
  induction vs with
  | nil => rfl
  | cons v vs ih => rw [sortItems, ih, List.map_cons]

theorem sortFields_eq_map (fs : List (PyStr × Json)) : sortFields fs = fs.map sortField := by
  induction fs with
  | nil => rfl
  | cons f fs ih => rw [sortFields, ih, List.map_cons]

/-- The fields of an object, their values sorted, in the order of their keys. -/
def sortedFields (fs : List (PyStr × Json)) : List (PyStr × Json) :=
  (sortFields fs).insertionSort fun f g => f.1 ≤ g.1

theorem sortKeys_obj (fs : List (PyStr × Json)) : sortKeys (.obj fs) = .obj (sortedFields fs) := rfl

theorem sortedFields_perm (fs : List (PyStr × Json)) : (sortedFields fs).Perm (sortFields fs) :=
  List.perm_insertionSort _ _

theorem mem_sortedFields {f : PyStr × Json} :
    f ∈ sortedFields fs ↔ ∃ g ∈ fs, sortField g = f := by
  rw [(sortedFields_perm fs).mem_iff, sortFields_eq_map, List.mem_map]

theorem pairwise_sortedFields (fs : List (PyStr × Json)) :
    (sortedFields fs).Pairwise fun f g => f.1 ≤ g.1 := by
  have : Std.Total (fun f g : PyStr × Json => f.1 ≤ g.1) := ⟨fun f g => le_total f.1 g.1⟩
  have : IsTrans (PyStr × Json) (fun f g => f.1 ≤ g.1) := ⟨fun _ _ _ => le_trans⟩
  exact List.pairwise_insertionSort _ _

theorem sortedFields_eq_self (order : fs.Pairwise fun f g => f.1 ≤ g.1)
    (sorted : ∀ f ∈ fs, sortField f = f) : sortedFields fs = fs := by
  have same : sortFields fs = fs := by
    rw [sortFields_eq_map]
    exact (List.map_congr_left sorted).trans (List.map_id fs)
  rw [sortedFields, same]
  exact order.insertionSort_eq

mutual

theorem sortKeys_sortKeys : (v : Json) → sortKeys (sortKeys v) = sortKeys v
  | .null => rfl
  | .bool _ => rfl
  | .int _ => rfl
  | .float _ => rfl
  | .nonFinite _ => rfl
  | .str _ => rfl
  | .arr vs => congrArg Json.arr (sortItems_sortItems vs)
  | .obj fs => by
    have sorted := sortField_of_mem_sortFields fs
    have same : ∀ f ∈ sortedFields fs, sortField f = f :=
      fun f mem => sorted f ((sortedFields_perm fs).mem_iff.1 mem)
    rw [sortKeys_obj, sortKeys_obj, sortedFields_eq_self (pairwise_sortedFields fs) same]

theorem sortItems_sortItems : (vs : List Json) → sortItems (sortItems vs) = sortItems vs
  | [] => rfl
  | v :: vs => by
    simp only [sortItems]
    rw [sortKeys_sortKeys v, sortItems_sortItems vs]

theorem sortField_of_mem_sortFields : (fs : List (PyStr × Json)) →
    ∀ f ∈ sortFields fs, sortField f = f
  | [], _, mem => by cases mem
  | (k, v) :: fs, f, mem => by
    rcases List.mem_cons.1 mem with rfl | mem
    · simp only [sortField]
      rw [sortKeys_sortKeys v]
    · exact sortField_of_mem_sortFields fs f mem

end

@[simp] theorem dumps_sortKeys (a : Bool) (v : Json) : dumps a (sortKeys v) = dumps a v := by
  rw [dumps, sortKeys_sortKeys, dumps]

theorem find_sortFields (fs : List (PyStr × Json)) (k : PyStr) :
    Dict.find (sortFields fs) k = (Dict.find fs k).map sortKeys := by
  induction fs with
  | nil => rfl
  | cons f fs ih =>
    obtain ⟨l, v⟩ := f
    rw [sortFields, sortField, Dict.find_cons, Dict.find_cons, ih]
    split_ifs <;> rfl

theorem get?_sortKeys (distinct : v.DistinctKeys) (k : PyStr) :
    (sortKeys v).get? k = (v.get? k).map sortKeys := by
  cases v with
  | obj fs =>
    show Dict.find (sortedFields fs) k = (Dict.find fs k).map sortKeys
    rw [← find_sortFields]
    refine (Dict.lookup_perm ?_ (sortedFields_perm fs) k).symm
    rw [((sortedFields_perm fs).map Prod.fst).nodup_iff, map_fst_sortFields]
    exact distinct.1
  | _ => rfl

/-! ## Parts of a value -/

theorem distinctItems_iff : DistinctItems vs ↔ ∀ v ∈ vs, v.DistinctKeys := by
  induction vs with
  | nil => simp [DistinctItems]
  | cons v vs ih => rw [DistinctItems, ih, List.forall_mem_cons]

theorem itemsUnpaired_iff : ItemsUnpaired vs ↔ ∀ v ∈ vs, v.Unpaired := by
  induction vs with
  | nil => simp [ItemsUnpaired]
  | cons v vs ih => rw [ItemsUnpaired, ih, List.forall_mem_cons]

theorem itemsFinite_iff : itemsFinite vs = true ↔ ∀ v ∈ vs, v.isFinite = true := by
  induction vs with
  | nil => simp [itemsFinite]
  | cons v vs ih => rw [itemsFinite, Bool.and_eq_true, ih, List.forall_mem_cons]

theorem fieldsFinite_iff : fieldsFinite fs = true ↔ ∀ f ∈ fs, f.2.isFinite = true := by
  induction fs with
  | nil => simp [fieldsFinite]
  | cons f fs ih =>
    obtain ⟨k, v⟩ := f
    rw [fieldsFinite, Bool.and_eq_true, ih, List.forall_mem_cons, fieldFinite]

theorem length_write_le_of_mem (a : Bool) (mem : v ∈ vs) :
    (write a v).length ≤ (writeItems a vs).length := by
  induction vs with
  | nil => cases mem
  | cons w vs ih =>
    rw [writeItems, List.length_cons, List.length_append]
    rcases List.mem_cons.1 mem with rfl | mem
    · omega
    · have := ih mem
      omega

theorem length_dumps_le_of_mem (a : Bool) (mem : v ∈ vs) :
    (dumps a v).length ≤ (dumps a (.arr vs)).length := by
  rw [dumps, dumps, sortKeys, sortItems_eq_map]
  cases vs with
  | nil => cases mem
  | cons w vs =>
    rw [List.map_cons, write, List.length_cons, List.length_append]
    rcases List.mem_cons.1 mem with rfl | mem
    · omega
    · have := length_write_le_of_mem a (List.mem_map_of_mem (f := sortKeys) mem)
      omega

theorem length_dumps_le_of_mem_fields (a : Bool) (mem : (k, v) ∈ fs) :
    (dumps a v).length ≤ (dumps a (.obj fs)).length := by
  obtain ⟨before, behind, rfl⟩ := List.append_of_mem mem
  obtain ⟨text, text', around⟩ := dumps_around a k before behind
  rw [around v, List.length_append, List.length_append, dumps]
  omega

/-! ### Bounds on the length of a text -/

theorem length_escapeChar_le (a : Bool) (c : PyChar) : (escapeChar a c).length ≤ 12 := by
  unfold escapeChar
  split_ifs
  iterate 7 decide
  · exact Nat.le_of_ble_eq_true rfl
  · exact Nat.le_add_left 1 11
  · exact Nat.le_of_ble_eq_true rfl
  · exact Nat.le_of_ble_eq_true rfl

theorem length_writeStr_le (a : Bool) (s : PyStr) : (writeStr a s).length ≤ 2 + 12 * s.length := by
  have body : (s.flatMap (escapeChar a)).length ≤ 12 * s.length := by
    induction s with
    | nil => exact Nat.zero_le _
    | cons c s ih =>
      have := length_escapeChar_le a c
      rw [List.flatMap_cons, List.length_append, List.length_cons]
      omega
  rw [writeStr, List.length_cons, List.length_append, List.length_singleton]
  omega

theorem length_writeFields (a : Bool) (fs : List (PyStr × Json)) :
    (writeFields a fs).length = 1 +
    (fs.map fun f => (writeStr a f.1).length + 2 + (write a f.2).length).sum := by
  induction fs with
  | nil => rfl
  | cons f fs ih =>
    obtain ⟨k, v⟩ := f
    rw [writeFields, writeField, List.length_cons, List.length_append, List.length_append,
      List.length_cons, ih,
      List.map_cons, List.sum_cons]
    dsimp only
    omega

theorem length_dumps_obj (a : Bool) (filled : fs ≠ []) : (dumps a (.obj fs)).length =
    1 + (fs.map fun f => (writeStr a f.1).length + 2 + (dumps a f.2).length).sum := by
  have entries :
      ((sortedFields fs).map fun f => (writeStr a f.1).length + 2 + (write a f.2).length).sum =
      (fs.map fun f => (writeStr a f.1).length + 2 + (dumps a f.2).length).sum := by
    rw [((sortedFields_perm fs).map _).sum_nat, sortFields_eq_map, List.map_map]
    exact congrArg List.sum (List.map_congr_left fun ⟨_, _⟩ _ => rfl)
  rw [← entries]
  show (write a (.obj (sortedFields fs))).length = _
  cases sorted : sortedFields fs with
  | nil =>
    have lengths := (sortedFields_perm fs).length_eq
    rw [sorted, length_sortFields] at lengths
    exact absurd (List.length_eq_zero_iff.1 lengths.symm) filled
  | cons f rest =>
    have more := length_writeFields a (f :: rest)
    rw [writeFields, List.length_cons] at more
    rw [write, List.length_cons]
    omega

theorem length_dumps_obj_le (a : Bool) (filled : fs ≠ []) {n k : ℕ} (count : fs.length = k)
    (fields : ∀ f ∈ fs, (writeStr a f.1).length ≤ n ∧ (dumps a f.2).length ≤ n) :
    (dumps a (.obj fs)).length ≤ 1 + k * (2 * n + 2) := by
  rw [length_dumps_obj a filled, ← count]
  clear filled count
  induction fs with
  | nil => simp
  | cons f fs ih =>
    obtain ⟨key, value⟩ := fields f List.mem_cons_self
    have rest := ih fun f mem => fields f (List.mem_cons_of_mem _ mem)
    rw [List.map_cons, List.sum_cons, List.length_cons, Nat.succ_mul]
    omega

mutual

@[simp] theorem isFinite_sortKeys : (v : Json) → (sortKeys v).isFinite = v.isFinite
  | .null => rfl
  | .bool _ => rfl
  | .int _ => rfl
  | .float _ => rfl
  | .nonFinite _ => rfl
  | .str _ => rfl
  | .arr vs => itemsFinite_sortItems vs
  | .obj fs => by
    rw [sortKeys_obj, isFinite, isFinite, ← fieldsFinite_sortFields fs, Bool.eq_iff_iff,
      fieldsFinite_iff,
      fieldsFinite_iff]
    exact forall_congr' fun f => by rw [(sortedFields_perm fs).mem_iff]

theorem itemsFinite_sortItems : (vs : List Json) → itemsFinite (sortItems vs) = itemsFinite vs
  | [] => rfl
  | v :: vs =>
      by rw [sortItems, itemsFinite, itemsFinite, isFinite_sortKeys v, itemsFinite_sortItems vs]

theorem fieldsFinite_sortFields : (fs : List (PyStr × Json)) →
    fieldsFinite (sortFields fs) = fieldsFinite fs
  | [] => rfl
  | (k, v) :: fs => by
    simp only [sortFields, sortField, fieldsFinite, fieldFinite]
    rw [isFinite_sortKeys v, fieldsFinite_sortFields fs]

end

/-! ## Ints that can be written

`int.__repr__`, with which `json.dumps` writes an int, raises `ValueError` for more than 4300
digits. -/

/-- `sys.int_info.default_max_str_digits`. -/
def maxDigits : ℕ := 4300

mutual

/-- Whether every int of the value can be written. -/
def shortInts : Json → Bool
  | .int n => n.natAbs < 10 ^ maxDigits
  | .arr vs => itemsShort vs
  | .obj fs => fieldsShort fs
  | _ => true

/-- `shortInts` of every item. -/
def itemsShort : List Json → Bool
  | [] => true
  | v :: vs => shortInts v && itemsShort vs

/-- `shortInts` of the value of a field. -/
def fieldShort : PyStr × Json → Bool
  | (_, v) => shortInts v

/-- `shortInts` of the value of every field. -/
def fieldsShort : List (PyStr × Json) → Bool
  | [] => true
  | f :: fs => fieldShort f && fieldsShort fs

end

theorem itemsShort_iff : itemsShort vs = true ↔ ∀ v ∈ vs, v.shortInts = true := by
  induction vs with
  | nil => simp [itemsShort]
  | cons v vs ih => rw [itemsShort, Bool.and_eq_true, ih, List.forall_mem_cons]

theorem fieldsShort_iff : fieldsShort fs = true ↔ ∀ f ∈ fs, f.2.shortInts = true := by
  induction fs with
  | nil => simp [fieldsShort]
  | cons f fs ih =>
    obtain ⟨k, v⟩ := f
    rw [fieldsShort, Bool.and_eq_true, ih, List.forall_mem_cons, fieldShort]

mutual

@[simp] theorem shortInts_sortKeys : (v : Json) → (sortKeys v).shortInts = v.shortInts
  | .null => rfl
  | .bool _ => rfl
  | .int _ => rfl
  | .float _ => rfl
  | .nonFinite _ => rfl
  | .str _ => rfl
  | .arr vs => itemsShort_sortItems vs
  | .obj fs => by
    rw [sortKeys_obj, shortInts, shortInts, ← fieldsShort_sortFields fs, Bool.eq_iff_iff,
      fieldsShort_iff, fieldsShort_iff]
    exact forall_congr' fun f => by rw [(sortedFields_perm fs).mem_iff]

theorem itemsShort_sortItems : (vs : List Json) → itemsShort (sortItems vs) = itemsShort vs
  | [] => rfl
  | v :: vs => by
    rw [sortItems, itemsShort, itemsShort, shortInts_sortKeys v, itemsShort_sortItems vs]

theorem fieldsShort_sortFields : (fs : List (PyStr × Json)) →
    fieldsShort (sortFields fs) = fieldsShort fs
  | [] => rfl
  | (k, v) :: fs => by
    simp only [sortFields, sortField, fieldsShort, fieldShort]
    rw [shortInts_sortKeys v, fieldsShort_sortFields fs]

end

/-! ## ASCII

The text that is written by default has printable ASCII characters only. -/

theorem printable_ofChars {l : List Char} (h : ∀ c ∈ l, 32 ≤ c.toNat ∧ c.toNat < 128) :
    ∀ c ∈ PyStr.ofChars l, 32 ≤ c.code ∧ c.code < 128 := by
  intro c mem
  obtain ⟨d, inside, rfl⟩ := List.mem_map.1 mem
  apply h d inside

theorem printable_literal {l : List Char}
    (h : (l.all fun c => decide (32 ≤ c.toNat ∧ c.toNat < 128)) = true) :
    ∀ c ∈ PyStr.ofChars l, 32 ≤ c.code ∧ c.code < 128 :=
  printable_ofChars fun c mem => of_decide_eq_true (List.all_eq_true.1 h c mem)

theorem printable_hexDigit : ∀ n < 16, 32 ≤ (Bytes.hexDigit n).toNat ∧ (Bytes.hexDigit n).toNat < 128 := by
  decide

theorem printable_unicodeEscape {n : ℕ} (h : n < 0x10000) : ∀ c ∈ unicodeEscape n, 32 ≤ c.toNat ∧
    c.toNat < 128 := by
  have first := printable_hexDigit (n / 4096) (by omega)
  have second := printable_hexDigit (n / 256 % 16) (by omega)
  have third := printable_hexDigit (n / 16 % 16) (by omega)
  have fourth := printable_hexDigit (n % 16) (by omega)
  simp only [unicodeEscape, List.forall_mem_cons, List.not_mem_nil, false_implies, implies_true,
    and_true]
  exact ⟨by decide, by decide, first, second, third, fourth⟩

theorem printable_escapeChar (c : PyChar) : ∀ d ∈ escapeChar true c, 32 ≤ d.code ∧
    d.code < 128 := by
  have bound := code_lt c
  unfold escapeChar
  split_ifs with h₁ h₂ h₃ h₄ h₅ h₆ h₇ h₈ h₉ h₁₀
  iterate 7 exact printable_literal (by decide)
  · exact printable_ofChars (printable_unicodeEscape (by omega))
  · rw [List.forall_mem_singleton]
    rcases h₉ with h | h
    · cases h
    · omega
  · exact printable_ofChars (printable_unicodeEscape (by omega))
  · refine printable_ofChars
      (List.forall_mem_append.2 ⟨printable_unicodeEscape ?_, printable_unicodeEscape ?_⟩)
    · omega
    · omega

theorem printable_writeStr (s : PyStr) : ∀ c ∈ writeStr true s, 32 ≤ c.code ∧ c.code < 128 := by
  rw [writeStr, List.forall_mem_cons, List.forall_mem_append, List.forall_mem_singleton]
  refine ⟨by decide, fun c mem => ?_, by decide⟩
  obtain ⟨d, -, inside⟩ := List.mem_flatMap.1 mem
  exact printable_escapeChar d c inside

theorem printable_of_isDigit {c : Char} (h : c.isDigit = true) : 32 ≤ c.toNat ∧ c.toNat < 128 := by
  rw [Char.isDigit, Bool.and_eq_true, decide_eq_true_eq, decide_eq_true_eq] at h
  have low : 48 ≤ c.toNat := h.1
  have high : c.toNat ≤ 57 := h.2
  omega

theorem printable_digits (n : ℕ) : ∀ c ∈ Nat.toDigits 10 n, 32 ≤ c.toNat ∧ c.toNat < 128 :=
  fun c mem => printable_of_isDigit (isDigit_of_mem_toDigits c mem)

theorem printable_minus : ∀ c ∈ ['-'], 32 ≤ c.toNat ∧ c.toNat < 128 :=
  List.forall_mem_singleton.2 (by decide)

theorem printable_sign (b : Bool) : ∀ c ∈ if b then ['-'] else [], 32 ≤ c.toNat ∧
    c.toNat < 128 := by
  cases b with
  | false => exact List.forall_mem_nil _
  | true => exact printable_minus

mutual

theorem printable_write : (v : Json) → ∀ c ∈ write true v, 32 ≤ c.code ∧ c.code < 128
  | .null => printable_literal (by decide)
  | .bool true => printable_literal (by decide)
  | .bool false => printable_literal (by decide)
  | .int n => by
    refine printable_ofChars (List.forall_mem_append.2 ⟨?_, printable_digits _⟩)
    by_cases neg : n < 0
    · rw [if_pos neg]
      exact printable_minus
    · rw [if_neg neg]
      exact List.forall_mem_nil _
  | .float d => by
    rw [write, Decimal.repr]
    refine printable_ofChars (List.forall_mem_append.2 ⟨List.forall_mem_append.2
      ⟨printable_sign d.neg, printable_digits _⟩,
        List.forall_mem_cons.2 ⟨by decide, fun c mem => ?_⟩⟩)
    exact printable_of_isDigit (Decimal.isDigit_of_mem_lowDigits mem)
  | .nonFinite .nan => printable_literal (by decide)
  | .nonFinite .infinity => printable_literal (by decide)
  | .nonFinite .negInfinity => printable_literal (by decide)
  | .str s => printable_writeStr s
  | .arr [] => printable_literal (by decide)
  | .arr (v :: vs) =>
    List.forall_mem_cons.2
      ⟨by decide, List.forall_mem_append.2 ⟨printable_write v, printable_writeItems vs⟩⟩
  | .obj [] => printable_literal (by decide)
  | .obj ((k, v) :: fs) =>
    List.forall_mem_cons.2 ⟨by decide, List.forall_mem_append.2 ⟨List.forall_mem_append.2
      ⟨printable_writeStr k,
        List.forall_mem_cons.2 ⟨by decide, printable_write v⟩⟩, printable_writeFields fs⟩⟩

theorem printable_writeItems : (vs : List Json) → ∀ c ∈ writeItems true vs, 32 ≤ c.code ∧
    c.code < 128
  | [] => List.forall_mem_cons.2 ⟨by decide, fun _ mem => by cases mem⟩
  | v :: vs =>
    List.forall_mem_cons.2
      ⟨by decide, List.forall_mem_append.2 ⟨printable_write v, printable_writeItems vs⟩⟩

theorem printable_writeFields : (fs : List (PyStr × Json)) → ∀ c ∈ writeFields true fs,
    32 ≤ c.code ∧ c.code < 128
  | [] => List.forall_mem_cons.2 ⟨by decide, fun _ mem => by cases mem⟩
  | (k, v) :: fs =>
    List.forall_mem_cons.2 ⟨by decide, List.forall_mem_append.2 ⟨List.forall_mem_append.2
      ⟨printable_writeStr k,
        List.forall_mem_cons.2 ⟨by decide, printable_write v⟩⟩, printable_writeFields fs⟩⟩

end

theorem ascii_write (v : Json) : ∀ c ∈ write true v, c.code < 128 := fun c mem =>
    (printable_write v c mem).2

theorem encode_of_ascii {s : PyStr} (h : ∀ c ∈ s, c.code < 128) :
    s.encode = some s.encodeAscii := by
  induction s with
  | nil => rfl
  | cons c s ih =>
    obtain ⟨small, rest⟩ := List.forall_mem_cons.1 h
    cases c with
    | surrogate n =>
      have : (PyChar.surrogate n).code = 0xD800 + n := rfl
      omega
    | scalar d =>
      have head : PyStr.encodeCode d.toNat = [UInt8.ofNat d.toNat] := if_pos small
      have step :
          PyStr.encode (.scalar d :: s) = (PyStr.encode s).map (PyStr.encodeCode d.toNat ++ ·) := by
        simp only [PyStr.encode, PyStr.chars?, Option.map_map]
        rfl
      rw [step, ih rest, head]
      rfl

theorem decode_encodeAscii_dumps (v : Json) (rest : PyStr) (h : ∀ c ∈ rest, c.code < 128) :
    PyStr.decode (PyStr.encodeAscii (dumps true v ++ rest)) = some (dumps true v ++ rest) :=
  PyStr.decode_encode (encode_of_ascii (List.forall_mem_append.2 ⟨ascii_write _, h⟩))

theorem plain_encodeAscii_dumps (v : Json) : ∀ b ∈ PyStr.encodeAscii (dumps true v), b ≠ 10 ∧
    b ≠ 13 := by
  intro b mem
  obtain ⟨c, inside, rfl⟩ := List.mem_map.1 mem
  have printable := printable_write _ c inside
  have code := PyStr.toNat_ofNat_of_lt (show c.code < 256 by omega)
  constructor
  · intro e
    rw [e] at code
    have : (10 : UInt8).toNat = 10 := rfl
    omega
  · intro e
    rw [e] at code
    have : (13 : UInt8).toNat = 13 := rfl
    omega

/-! ## What the parser reads -/

variable {a : Bool}

theorem parseValue_obj (distinct : DistinctKeys (.obj fs))
    (unpaired : a = false ∨ Unpaired (.obj fs)) (n : ℕ)
    (rest : PyStr) (fuel : (write a (.obj fs)).length ≤ n) :
    parseValue n (write a (.obj fs) ++ rest) = some (.obj fs, rest) := by
  obtain ⟨m, rfl⟩ : ∃ m, n = m + 1 := by
    obtain ⟨c, t, e, -⟩ := write_eq_cons (a := a) (.obj fs)
    rw [e, List.length_cons] at fuel
    exact ⟨n - 1, by omega⟩
  match fs, distinct, unpaired with
  | [], _, _ => rfl
  | (k, v) :: fs, distinct, unpaired =>
    have first := readsBack v distinct.2.1 (unpaired.imp_right fun h => h.1.2)
    have fields := readsBack_fields k v fs (unpaired.imp_right fun h => h.1.1) first distinct.2.2
      (unpaired.imp_right And.right) m rest
    simp only [write, List.length_cons, List.length_append] at fuel
    have start : skipSpace (writeField a (k, v) ++ (writeFields a fs ++ rest)) =
      writeField a (k, v) ++ (writeFields a fs ++ rest) := rfl
    simp only [write, List.cons_append, List.append_assoc]
    rw [parseValue, if_neg (by decide), if_neg (by decide), if_pos rfl, start, if_neg,
      fields (by omega), Option.map_some, dictFields_of_nodup distinct.1]
    exact fun h => absurd (Option.some.inj h) (by decide)

theorem skipSpace_eq_nil {rest : PyStr} (spaces : ∀ c ∈ rest, isSpace c = true) :
    skipSpace rest = [] := by
  induction rest with
  | nil => rfl
  | cons c rest ih =>
    obtain ⟨space, spaces⟩ := List.forall_mem_cons.1 spaces
    rw [skipSpace, if_pos space, ih spaces]

theorem loads_dumps_obj (distinct : DistinctKeys (.obj fs))
    (unpaired : a = false ∨ Unpaired (.obj fs))
    {rest : PyStr} (spaces : ∀ c ∈ rest, isSpace c = true) :
    loads (dumps a (.obj fs) ++ rest) = some (sortKeys (.obj fs)) := by
  have start := skipSpace_write (a := a) (.obj (sortedFields fs)) rest
  have value : parseValue ((write a (.obj (sortedFields fs)) ++ rest).length + 1)
      (write a (.obj (sortedFields fs)) ++ rest) = some (.obj (sortedFields fs), rest) := by
    refine parseValue_obj (distinctKeys_sortKeys (.obj fs) distinct)
      (unpaired.imp_right fun h => unpaired_sortKeys (.obj fs) h) _ rest ?_
    show (write a (.obj (sortedFields fs))).length ≤ _
    rw [List.length_append]
    omega
  rw [dumps, sortKeys_obj, loads, start, value]
  show (if skipSpace rest = [] then _ else _) = _
  rw [if_pos (skipSpace_eq_nil spaces)]

theorem distinct_setEntries (v : Json) (hv : v.DistinctKeys) (h : ∀ f ∈ fs, f.2.DistinctKeys) :
    ∀ f ∈ Dict.setEntries k v fs, f.2.DistinctKeys := by
  induction fs with
  | nil => exact List.forall_mem_singleton.2 hv
  | cons g fs ih =>
    obtain ⟨hg, h⟩ := List.forall_mem_cons.1 h
    rw [Dict.setEntries]
    split_ifs
    · exact List.forall_mem_cons.2 ⟨hv, h⟩
    · exact List.forall_mem_cons.2 ⟨hg, ih h⟩

theorem distinctKeys_dictFields (h : DistinctFields fs) : DistinctKeys (.obj (dictFields fs)) := by
  have kept (d : List (PyStr × Json)) (nodup : (d.map Prod.fst).Nodup)
      (values : ∀ f ∈ d, f.2.DistinctKeys) :
      DistinctKeys (.obj (fs.foldl (fun d f => Dict.setEntries f.1 f.2 d) d)) := by
    induction fs generalizing d with
    | nil => exact ⟨nodup, distinctFields_iff.2 values⟩
    | cons f fs ih =>
      obtain ⟨k, v⟩ := f
      exact ih h.2 _ (Dict.set ⟨d, nodup⟩ k v).nodup (distinct_setEntries v h.1 values)
  exact kept [] List.nodup_nil fun _ mem => by cases mem

theorem distinctKeys_of_parseNumber {s r : PyStr} (h : parseNumber s = some (v, r)) :
    v.DistinctKeys := by
  have unsigned (neg : Bool) (t : PyStr) (h : parseUnsigned neg t = some (v, r)) :
      v.DistinctKeys := by
    unfold parseUnsigned at h
    dsimp only at h
    repeat' split at h
    all_goals
      cases h
      try trivial
  unfold parseNumber at h
  split at h
  · exact unsigned _ _ h
  · exact unsigned _ _ h

theorem distinctKeys_of_parseLiteral {s r : PyStr} (h : parseLiteral s = some (v, r)) :
    v.DistinctKeys := by
  obtain ⟨l, mem, h⟩ := List.exists_of_findSome?_eq_some h
  obtain ⟨_, -, e⟩ := Option.map_eq_some_iff.1 h
  cases e
  simp only [literals, List.mem_cons, List.not_mem_nil, or_false] at mem
  rcases mem with rfl | rfl | rfl | rfl | rfl | rfl <;> trivial

theorem distinctKeys_of_parse (n : ℕ) :
    (∀ s v r, parseValue n s = some (v, r) → v.DistinctKeys) ∧
    (∀ s vs r, parseItems n s = some (vs, r) → DistinctItems vs) ∧
    ∀ s fs r, parseFields n s = some (fs, r) → DistinctFields fs := by
  induction n with
  | zero =>
    exact ⟨fun _ _ _ h => (by cases h), fun _ _ _ h => (by cases h), fun _ _ _ h => (by cases h)⟩
  | succ n ih =>
    obtain ⟨value, items, fields⟩ := ih
    refine ⟨fun s v r h => ?_, fun s vs r h => ?_, fun s fs r h => ?_⟩
    · cases s with
      | nil => cases h
      | cons c s =>
        rw [parseValue] at h
        split_ifs at h
        · obtain ⟨p, -, e⟩ := Option.map_eq_some_iff.1 h
          cases e
          trivial
        · cases h
          trivial
        · obtain ⟨p, read, e⟩ := Option.map_eq_some_iff.1 h
          cases e
          exact items _ _ _ read
        · cases h
          exact ⟨List.nodup_nil, trivial⟩
        · obtain ⟨p, read, e⟩ := Option.map_eq_some_iff.1 h
          cases e
          exact distinctKeys_dictFields (fields _ _ _ read)
        · rcases Option.or_eq_some_iff.1 h with h | ⟨-, h⟩
          · exact distinctKeys_of_parseLiteral h
          · exact distinctKeys_of_parseNumber h
    · rw [parseItems] at h
      obtain ⟨⟨v, t⟩, first, h⟩ := Option.bind_eq_some_iff.1 h
      dsimp only at h
      split at h
      · cases h
        exact ⟨value _ _ _ first, trivial⟩
      · obtain ⟨⟨ws, t⟩, more, h⟩ := Option.bind_eq_some_iff.1 h
        cases h
        exact ⟨value _ _ _ first, items _ _ _ more⟩
      · cases h
    · unfold parseFields at h
      split at h
      · obtain ⟨⟨k, t⟩, -, h⟩ := Option.bind_eq_some_iff.1 h
        dsimp only at h
        split at h
        · obtain ⟨⟨v, u⟩, first, h⟩ := Option.bind_eq_some_iff.1 h
          dsimp only at h
          split at h
          · cases h
            exact ⟨value _ _ _ first, trivial⟩
          · obtain ⟨⟨gs, u⟩, more, h⟩ := Option.bind_eq_some_iff.1 h
            cases h
            exact ⟨value _ _ _ first, fields _ _ _ more⟩
          · cases h
        · cases h
      · cases h

theorem distinctKeys_of_loads {s : PyStr} (h : loads s = some v) : v.DistinctKeys := by
  unfold loads at h
  split at h
  · rename_i w r read
    split_ifs at h
    cases h
    exact (distinctKeys_of_parse _).1 _ _ _ read
  · cases h

end Json

namespace JsonObject

def get? (m : JsonObject) (k : PyStr) : Option Json := Dict.find m.fields k

theorem distinct_of_get? {m : JsonObject} {k : PyStr} {v : Json} (h : m.get? k = some v) :
    v.DistinctKeys :=
  Json.distinctFields_iff.1 m.distinct.2 _ (Dict.mem_of_lookup h)

/-- The value under a key, when it is an object. -/
def object? (m : JsonObject) (k : PyStr) : Option JsonObject :=
  match h : m.get? k with
  | some (.obj fs) => some ⟨fs, distinct_of_get? h⟩
  | _ => none

theorem object?_eq_some {m n : JsonObject} {k : PyStr} (h : m.get? k = some n.toJson) :
    m.object? k = some n := by
  unfold object?
  split
  · rename_i fs e
    rw [h] at e
    exact congrArg some (JsonObject.ext (Json.obj.inj (Option.some.inj e)).symm)
  · rename_i other
    exact absurd h (other n.fields)

def sorted (m : JsonObject) : JsonObject :=
    ⟨Json.sortedFields m.fields, Json.distinctKeys_sortKeys _ m.distinct⟩

theorem toJson_sorted (m : JsonObject) : m.sorted.toJson = m.toJson.sortKeys := rfl

theorem get?_sorted (m : JsonObject) (k : PyStr) : m.sorted.get? k = (m.get? k).map Json.sortKeys :=
  Json.get?_sortKeys (v := m.toJson) m.distinct k

/-- `json.loads` of a text, when it is an object. -/
def loads? (s : PyStr) : Option JsonObject :=
  match h : Json.loads s with
  | some (.obj fs) => some ⟨fs, Json.distinctKeys_of_loads h⟩
  | _ => none

theorem loads?_eq_some {s : PyStr} {m : JsonObject} (h : Json.loads s = some m.toJson) :
    loads? s = some m := by
  unfold loads?
  split
  · rename_i fs e
    rw [h] at e
    exact congrArg some (JsonObject.ext (Json.obj.inj (Option.some.inj e)).symm)
  · rename_i other
    exact absurd h (other m.fields)

end JsonObject

end SimplicioFast
