import SimplicioFast.Lib.JsonCanonical

/-!
# Surrogate pairs

The default text of a string is the same for a surrogate pair and for the character that the pair stands for, and the
parser reads the character.  So what `loads` reads of a canonical text is the value with the pairs joined in its
strings (`loads_dumps_join`).  The pairs in keys are left alone here: joining them may make two keys equal.
-/

namespace SimplicioFast

namespace PyChar

/-- The character that a surrogate pair stands for. -/
def joined (c d : PyChar) : PyChar := .scalar (Char.ofNat (0x10000 + (c.code - 0xD800) * 1024 + (d.code - 0xDC00)))

example : joined (.surrogate 0x3D) (.surrogate 0x600) = .scalar (Char.ofNat 0x1F600) := by decide +kernel

theorem code_joined {c d : PyChar} (high : c.IsHigh) (low : d.IsLow) :
    (joined c d).code = 0x10000 + (c.code - 0xD800) * 1024 + (d.code - 0xDC00) := by
  obtain ⟨h₁, h₂⟩ := high
  obtain ⟨h₃, h₄⟩ := low
  have valid : (0x10000 + (c.code - 0xD800) * 1024 + (d.code - 0xDC00)).isValidChar := .inr ⟨by omega, by omega⟩
  rw [joined, code, Char.ofNat, dif_pos valid]
  rfl

theorem not_isLow_scalar (c : Char) : ¬ (scalar c).IsLow := by
  intro h
  have valid := toNat_scalar c
  obtain ⟨h₁, h₂⟩ := h
  rw [code] at h₁ h₂
  omega

end PyChar

namespace PyStr

/-- The text with every surrogate pair joined. -/
def joinPairs : PyStr → PyStr
  | [] => []
  | [c] => [c]
  | c :: d :: s => if c.IsHigh ∧ d.IsLow then PyChar.joined c d :: joinPairs s else c :: joinPairs (d :: s)

theorem not_isLow_head?_joinPairs {s : PyStr} (h : ∀ c ∈ s.head?, ¬ c.IsLow) : ∀ c ∈ (joinPairs s).head?, ¬ c.IsLow := by
  unfold joinPairs
  split
  · exact h
  · exact h
  · split_ifs
    · intro c mem
      rw [← Option.some.inj mem]
      exact PyChar.not_isLow_scalar _
    · exact h

theorem unpaired_cons {c : PyChar} {s : PyStr} (first : ∀ d ∈ s.head?, ¬ (c.IsHigh ∧ d.IsLow)) (rest : s.Unpaired) :
    Unpaired (c :: s) := by
  cases s with
  | nil => exact .singleton c
  | cons d s => exact .cons_cons (first d rfl) rest

theorem unpaired_joinPairs (s : PyStr) : (joinPairs s).Unpaired := by
  fun_induction joinPairs s with
  | case1 => exact .nil
  | case2 c => exact .singleton c
  | case3 c d s pair ih =>
    exact unpaired_cons (fun e _ both => PyChar.not_isHigh_scalar _ both.1) ih
  | case4 c d s apart ih =>
    refine unpaired_cons (fun e mem both => ?_) ih
    have low : ¬ d.IsLow := fun low => apart ⟨both.1, low⟩
    refine not_isLow_head?_joinPairs (fun b head => ?_) e mem both.2
    rw [← Option.some.inj head]
    exact low

theorem joinPairs_of_unpaired {s : PyStr} (h : s.Unpaired) : joinPairs s = s := by
  fun_induction joinPairs s with
  | case1 => rfl
  | case2 c => rfl
  | case3 c d s pair ih => exact absurd pair (List.isChain_cons_cons.1 h).1
  | case4 c d s apart ih => rw [ih h.of_cons]

theorem length_joinPairs_le (s : PyStr) : (joinPairs s).length ≤ s.length := by
  fun_induction joinPairs s with
  | case1 => exact le_rfl
  | case2 c => exact le_rfl
  | case3 c d s pair ih =>
    rw [List.length_cons, List.length_cons, List.length_cons]
    omega
  | case4 c d s apart ih =>
    rw [List.length_cons, List.length_cons]
    exact Nat.succ_le_succ ih

theorem joinPairs_eq_self_iff {s : PyStr} : joinPairs s = s ↔ s.Unpaired :=
  ⟨fun h => h ▸ unpaired_joinPairs s, joinPairs_of_unpaired⟩

end PyStr

namespace Json

theorem escapeChar_joined {c d : PyChar} (high : c.IsHigh) (low : d.IsLow) :
    escapeChar true (PyChar.joined c d) = escapeChar true c ++ escapeChar true d := by
  have code := PyChar.code_joined high low
  obtain ⟨h₁, h₂⟩ := high
  obtain ⟨h₃, h₄⟩ := low
  have surrogate {e : PyChar} (lo : 0xD800 ≤ e.code) (hi : e.code < 0xE000) :
      escapeChar true e = PyStr.ofChars (unicodeEscape e.code) := by
    unfold escapeChar
    rw [if_neg (by omega), if_neg (by omega), if_neg (by omega), if_neg (by omega), if_neg (by omega),
      if_neg (by omega), if_neg (by omega), if_neg (by omega), if_neg (by simp; omega), if_pos (by omega)]
  rw [surrogate h₁ (by omega), surrogate (by omega) h₄]
  unfold escapeChar
  rw [if_neg (by omega), if_neg (by omega), if_neg (by omega), if_neg (by omega), if_neg (by omega),
    if_neg (by omega), if_neg (by omega), if_neg (by omega), if_neg (by simp; omega), if_neg (by omega), code]
  have first : 0xD800 + (0x10000 + (c.code - 0xD800) * 1024 + (d.code - 0xDC00) - 0x10000) / 1024 = c.code := by
    omega
  have second : 0xDC00 + (0x10000 + (c.code - 0xD800) * 1024 + (d.code - 0xDC00) - 0x10000) % 1024 = d.code := by
    omega
  rw [first, second, ofChars_append]

theorem flatMap_escapeChar_joinPairs (s : PyStr) :
    s.joinPairs.flatMap (escapeChar true) = s.flatMap (escapeChar true) := by
  fun_induction PyStr.joinPairs s with
  | case1 => rfl
  | case2 c => rfl
  | case3 c d s pair ih =>
    rw [List.flatMap_cons, List.flatMap_cons, List.flatMap_cons, ih, escapeChar_joined pair.1 pair.2,
      List.append_assoc]
  | case4 c d s apart ih => rw [List.flatMap_cons, ih, ← List.flatMap_cons]

theorem writeStr_joinPairs (s : PyStr) : writeStr true s.joinPairs = writeStr true s := by
  rw [writeStr, flatMap_escapeChar_joinPairs, writeStr]

mutual

/-- The value with the surrogate pairs joined in its strings, keys left out. -/
def joinValues : Json → Json
  | .str s => .str s.joinPairs
  | .arr vs => .arr (joinItems vs)
  | .obj fs => .obj (joinFields fs)
  | .null => .null
  | .bool b => .bool b
  | .int n => .int n
  | .float d => .float d
  | .nonFinite k => .nonFinite k

/-- `joinValues` of every item. -/
def joinItems : List Json → List Json
  | [] => []
  | v :: vs => joinValues v :: joinItems vs

/-- `joinValues` of the value of a field. -/
def joinField : PyStr × Json → PyStr × Json
  | (k, v) => (k, joinValues v)

/-- `joinValues` of the value of every field. -/
def joinFields : List (PyStr × Json) → List (PyStr × Json)
  | [] => []
  | f :: fs => joinField f :: joinFields fs

end

example (k : PyStr) : joinFields [(k, .arr [.null])] = [(k, .arr [.null])] := by
  simp [joinFields, joinField, joinValues, joinItems]

theorem fst_joinField (f : PyStr × Json) : (joinField f).1 = f.1 := by
  obtain ⟨k, v⟩ := f
  rfl

theorem joinFields_eq_map (fs : List (PyStr × Json)) : joinFields fs = fs.map joinField := by
  induction fs with
  | nil => rfl
  | cons f fs ih => rw [joinFields, ih, List.map_cons]

theorem map_fst_joinFields (fs : List (PyStr × Json)) : (joinFields fs).map Prod.fst = fs.map Prod.fst := by
  rw [joinFields_eq_map, List.map_map]
  exact List.map_congr_left fun f _ => fst_joinField f

mutual

theorem write_joinValues : (v : Json) → write true (joinValues v) = write true v
  | .null => rfl
  | .bool _ => rfl
  | .int _ => rfl
  | .float _ => rfl
  | .nonFinite _ => rfl
  | .str s => writeStr_joinPairs s
  | .arr [] => rfl
  | .arr (v :: vs) => by
    simp only [joinValues, joinItems, write]
    rw [write_joinValues v, writeItems_joinItems vs]
  | .obj [] => rfl
  | .obj ((k, v) :: fs) => by
    simp only [joinValues, joinFields, joinField, write, writeField]
    rw [write_joinValues v, writeFields_joinFields fs]

theorem writeItems_joinItems : (vs : List Json) → writeItems true (joinItems vs) = writeItems true vs
  | [] => rfl
  | v :: vs => by
    simp only [joinItems, writeItems]
    rw [write_joinValues v, writeItems_joinItems vs]

theorem writeFields_joinFields : (fs : List (PyStr × Json)) → writeFields true (joinFields fs) = writeFields true fs
  | [] => rfl
  | (k, v) :: fs => by
    simp only [joinFields, joinField, writeFields, writeField]
    rw [write_joinValues v, writeFields_joinFields fs]

end

mutual

theorem sortKeys_joinValues : (v : Json) → sortKeys (joinValues v) = joinValues (sortKeys v)
  | .null => rfl
  | .bool _ => rfl
  | .int _ => rfl
  | .float _ => rfl
  | .nonFinite _ => rfl
  | .str _ => rfl
  | .arr vs => congrArg Json.arr (sortItems_joinItems vs)
  | .obj fs => by
    rw [joinValues, sortKeys_obj, sortedFields, sortFields_joinFields fs, joinFields_eq_map, sortKeys_obj, joinValues,
      joinFields_eq_map, sortedFields]
    exact congrArg Json.obj (List.map_insertionSort (fun f g : PyStr × Json => f.1 ≤ g.1)
      (fun f g : PyStr × Json => f.1 ≤ g.1) joinField (sortFields fs) fun f _ g _ => by
        rw [fst_joinField, fst_joinField]).symm

theorem sortItems_joinItems : (vs : List Json) → sortItems (joinItems vs) = joinItems (sortItems vs)
  | [] => rfl
  | v :: vs => by
    simp only [joinItems, sortItems]
    rw [sortKeys_joinValues v, sortItems_joinItems vs]

theorem sortFields_joinFields : (fs : List (PyStr × Json)) → sortFields (joinFields fs) = joinFields (sortFields fs)
  | [] => rfl
  | (k, v) :: fs => by
    simp only [joinFields, joinField, sortFields, sortField]
    rw [sortKeys_joinValues v, sortFields_joinFields fs]

end

@[simp] theorem dumps_joinValues (v : Json) : dumps true (joinValues v) = dumps true v := by
  rw [dumps, sortKeys_joinValues, write_joinValues, dumps]

mutual

theorem distinctKeys_joinValues : (v : Json) → DistinctKeys v → DistinctKeys (joinValues v)
  | .null, _ => trivial
  | .bool _, _ => trivial
  | .int _, _ => trivial
  | .float _, _ => trivial
  | .nonFinite _, _ => trivial
  | .str _, _ => trivial
  | .arr vs, h => distinctItems_joinItems vs h
  | .obj fs, h => ⟨by rw [map_fst_joinFields]; exact h.1, distinctFields_joinFields fs h.2⟩

theorem distinctItems_joinItems : (vs : List Json) → DistinctItems vs → DistinctItems (joinItems vs)
  | [], _ => trivial
  | v :: vs, h => ⟨distinctKeys_joinValues v h.1, distinctItems_joinItems vs h.2⟩

theorem distinctFields_joinFields : (fs : List (PyStr × Json)) → DistinctFields fs →
    DistinctFields (joinFields fs)
  | [], _ => trivial
  | (_, v) :: fs, h => ⟨distinctKeys_joinValues v h.1, distinctFields_joinFields fs h.2⟩

end

theorem loads_dumps_join {fs : List (PyStr × Json)} (distinct : DistinctKeys (.obj fs))
    (unpaired : Unpaired (joinValues (.obj fs))) {rest : PyStr} (spaces : ∀ c ∈ rest, isSpace c = true) :
    loads (dumps true (.obj fs) ++ rest) = some (sortKeys (joinValues (.obj fs))) := by
  rw [← dumps_joinValues, joinValues]
  exact loads_dumps_obj (distinctKeys_joinValues _ distinct) (.inr unpaired) spaces

mutual

theorem joinValues_of_unpaired : (v : Json) → Unpaired v → joinValues v = v
  | .null, _ => rfl
  | .bool _, _ => rfl
  | .int _, _ => rfl
  | .float _, _ => rfl
  | .nonFinite _, _ => rfl
  | .str _, h => congrArg Json.str (PyStr.joinPairs_of_unpaired h)
  | .arr vs, h => congrArg Json.arr (joinItems_of_unpaired vs h)
  | .obj fs, h => congrArg Json.obj (joinFields_of_unpaired fs h)

theorem joinItems_of_unpaired : (vs : List Json) → ItemsUnpaired vs → joinItems vs = vs
  | [], _ => rfl
  | v :: vs, h => by rw [joinItems, joinValues_of_unpaired v h.1, joinItems_of_unpaired vs h.2]

theorem joinFields_of_unpaired : (fs : List (PyStr × Json)) → FieldsUnpaired fs → joinFields fs = fs
  | [], _ => rfl
  | (k, v) :: fs, h => by rw [joinFields, joinField, joinValues_of_unpaired v h.1.2, joinFields_of_unpaired fs h.2]

end

/-! ## Flat values -/

/-- Whether a value is neither an array nor an object. -/
def IsFlat : Json → Prop
  | .arr _ => False
  | .obj _ => False
  | _ => True

variable {v : Json} {fs : List (PyStr × Json)}

theorem sortKeys_of_isFlat (flat : v.IsFlat) : sortKeys v = v := by
  cases v with
  | arr _ => cases flat
  | obj _ => cases flat
  | _ => rfl

theorem distinctKeys_of_isFlat (flat : v.IsFlat) : v.DistinctKeys := by
  cases v with
  | arr _ => cases flat
  | obj _ => cases flat
  | _ => trivial

theorem isFlat_joinValues (flat : v.IsFlat) : (joinValues v).IsFlat := by
  cases v with
  | arr _ => cases flat
  | obj _ => cases flat
  | _ => trivial

theorem unpaired_joinValues_of_isFlat (flat : v.IsFlat) : (joinValues v).Unpaired := by
  cases v with
  | arr _ => cases flat
  | obj _ => cases flat
  | str s => exact PyStr.unpaired_joinPairs s
  | _ => trivial

theorem isFlat_optStr (s : Option PyStr) : (optStr s).IsFlat := by
  cases s <;> trivial

theorem loads_dumps_flat (flat : ∀ f ∈ fs, f.2.IsFlat) (nodup : (fs.map Prod.fst).Nodup)
    (keys : ∀ k ∈ fs.map Prod.fst, k.Unpaired) {rest : PyStr} (spaces : ∀ c ∈ rest, isSpace c = true) :
    loads (dumps true (.obj fs) ++ rest) = some (sortKeys (.obj (joinFields fs))) := by
  refine loads_dumps_join ⟨nodup, distinctFields_iff.2 fun f mem => distinctKeys_of_isFlat (flat f mem)⟩ ?_ spaces
  show FieldsUnpaired (joinFields fs)
  rw [joinFields_eq_map, fieldsUnpaired_iff]
  intro f mem
  obtain ⟨g, inside, rfl⟩ := List.mem_map.1 mem
  have key := keys _ (List.mem_map_of_mem inside)
  obtain ⟨k, v⟩ := g
  exact ⟨key, unpaired_joinValues_of_isFlat (flat _ inside)⟩

theorem find_sortedFields_of_isFlat (flat : ∀ f ∈ fs, f.2.IsFlat) (nodup : (fs.map Prod.fst).Nodup) {k : PyStr}
    (h : Dict.find fs k = some v) : Dict.find (sortedFields fs) k = some v := by
  have distinct : DistinctKeys (.obj fs) :=
    ⟨nodup, distinctFields_iff.2 fun f mem => distinctKeys_of_isFlat (flat f mem)⟩
  have sorted := get?_sortKeys distinct k
  show (sortKeys (.obj fs)).get? k = _
  have found : (Json.obj fs).get? k = some v := h
  rw [sorted, found, Option.map_some, sortKeys_of_isFlat (flat _ (Dict.mem_of_lookup h))]

end Json

end SimplicioFast
