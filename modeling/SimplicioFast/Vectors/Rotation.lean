import SimplicioFast.Vectors.Fwht
import Mathlib.Tactic.FieldSimp
import Mathlib.Tactic.NormNum

/-!
# Seeded rotations

`rotate` is a signed permutation: the permutation is shuffled and the signs are drawn from a seed
(`rotationPlan`).  Since a shuffle only swaps entries, it is a permutation of the positions for
every seed, and the inverse puts every entry back (`rotate_rotate`).  The rotation of the FWHT layer
is a transform of the entries with drawn signs.
-/

namespace SimplicioFast

namespace Vectors

variable {K : Type} [Field K]

def mask64 : ℕ := 2 ^ 64 - 1

def validateSeed (seed : ℤ) : ℕ := (seed % 2 ^ 64).toNat

def splitmix64 (value : ℕ) : ℕ :=
  let value := (value + 0x9E3779B97F4A7C15) &&& mask64
  let value := ((value ^^^ (value >>> 30)) * 0xBF58476D1CE4E5B9) &&& mask64
  let value := ((value ^^^ (value >>> 27)) * 0x94D049BB133111EB) &&& mask64
  (value ^^^ (value >>> 31)) &&& mask64

/-- `permutation[index], permutation[other] = permutation[other], permutation[index]`. -/
def swap (permutation : List ℕ) (index other : ℕ) : List ℕ :=
  (permutation.set index (permutation.getD other 0)).set other (permutation.getD index 0)

/-- The loop of `_rotation_plan` over `range(index, 0, -1)`, with the state that it leaves. -/
def shuffle : ℕ → ℕ → List ℕ → List ℕ × ℕ
  | 0, state, permutation => (permutation, state)
  | index + 1, state, permutation =>
    let state := splitmix64 state
    shuffle index state (swap permutation (index + 1) (state % (index + 2)))

def drawSigns : ℕ → ℕ → List ℤ
  | 0, _ => []
  | n + 1, state =>
    let state := splitmix64 state
    (if state &&& 1 ≠ 0 then -1 else 1) :: drawSigns n state

/-- `_rotation_plan`, of a dimension that is positive. -/
def rotationPlan (dimension : ℕ) (seed : ℤ) : List ℕ × List ℤ :=
  let shuffled := shuffle (dimension - 1) (validateSeed seed) (List.range dimension)
  (shuffled.1, drawSigns dimension shuffled.2)

/-- The entry at an output index of a rotation: its sign times an entry of the vector. -/
def signed (signs : List ℤ) (vector : List K) (index source : ℕ) : K :=
  (signs.getD index 0 : ℤ) * vector.getD source 0

def rotate (values : List K) (seed : ℤ) (inverse : Bool) : Except PyStr (List K) :=
  if values = [] then .error "values must be a finite non-empty iterable of numbers"
  else
    let (permutation, signs) := rotationPlan values.length seed
    if inverse then
      .ok (permutation.zipIdx.foldl (fun result place =>
        result.set place.1 (signed signs values place.2 place.2)) (List.replicate values.length 0))
    else .ok (permutation.zipIdx.map fun place => signed signs values place.2 place.1)

def rademacherSigns (dimension : ℕ) (seed : ℤ) : List ℤ := drawSigns dimension (validateSeed seed)

/-- `value * sign for value, sign in zip(values, signs)`. -/
def withSigns (values : List K) (signs : List ℤ) : List K := 
  List.zipWith (fun value (sign : ℤ) => value * (sign : K)) values signs

/-- What `quantize_fwht` makes of a padded vector before it is quantized. -/
def rotateFwht (sqrt : ℕ → K) (padded : List K) (seed : ℤ) : Except PyStr (List K) :=
  fwht sqrt .orthonormal (withSigns padded (rademacherSigns padded.length seed))

/-- What `dequantize_fwht` makes of the codes of a padded vector. -/
def unrotateFwht (sqrt : ℕ → K) (transformed : List K) (seed : ℤ) : Except PyStr (List K) := do
  let signed ← fwht sqrt .orthonormal transformed
  return withSigns signed (rademacherSigns transformed.length seed)

variable {values : List K} {permutation : List ℕ} {signs : List ℤ} {seed : ℤ} {n i j state : ℕ}
    {sqrt : ℕ → K} {k : ℕ}

/-! ## The plan -/

theorem swap_perm (hi : i < permutation.length) (hj : j < permutation.length) :
    (swap permutation i j).Perm permutation := by
  unfold swap
  rw [List.getD_eq_getElem _ _ hi, List.getD_eq_getElem _ _ hj]
  exact List.set_set_perm hi hj

theorem shuffle_perm (h : i < permutation.length) :
    (shuffle i state permutation).1.Perm permutation := by
  induction i generalizing state permutation with
  | zero => exact .refl _
  | succ i ih =>
    have below : splitmix64 state % (i + 2) < i + 2 := Nat.mod_lt _ (by omega)
    have swapped : (swap permutation (i + 1) (splitmix64 state % (i + 2))).Perm permutation :=
        swap_perm h (by omega)
    exact (ih (by rw [swapped.length_eq]; omega)).trans swapped

@[simp] theorem length_drawSigns : (drawSigns n state).length = n := by
  induction n generalizing state with
  | zero => rfl
  | succ n ih => simp [drawSigns, ih]

theorem eq_of_mem_drawSigns {sign : ℤ} (mem : sign ∈ drawSigns n state) : sign = 1 ∨ sign = -1 := by
  induction n generalizing state with
  | zero => cases mem
  | succ n ih =>
    rcases List.mem_cons.1 mem with rfl | mem
    · split
      · exact .inr rfl
      · exact .inl rfl
    · exact ih mem

theorem sign_mul_sign (drawn : ∀ sign ∈ signs, sign = 1 ∨ sign = -1) (lt : i < signs.length) :
    ((signs.getD i 0 : ℤ) : K) * (signs.getD i 0 : ℤ) = 1 := by
  rw [List.getD_eq_getElem _ _ lt]
  rcases drawn _ (List.getElem_mem lt) with one | one
  · rw [one]
    simp
  · rw [one]
    simp

theorem signed_signed (drawn : ∀ sign ∈ signs, sign = 1 ∨ sign = -1) (lt : i < signs.length)
    (a : K) :
    ((signs.getD i 0 : ℤ) : K) * ((signs.getD i 0 : ℤ) * a) = a := by
  rw [← mul_assoc, sign_mul_sign drawn lt, one_mul]

/-! ## Signed permutations -/

@[simp] theorem length_foldl_set {α : Type} {g : ℕ → α} {places : List (ℕ × ℕ)} {result : List α} :
    (places.foldl (fun result place => result.set place.1 (g place.2)) result).length =
    result.length := by
  induction places generalizing result with
  | nil => rfl
  | cons place places ih => rw [List.foldl_cons, ih, List.length_set]

theorem getD_foldl_set {g : ℕ → K} {places : List (ℕ × ℕ)} {result : List K}
    (nodup : (places.map Prod.fst).Nodup)
    (inside : ∀ place ∈ places, place.1 < result.length) :
    (∀ place ∈ places,
    (places.foldl (fun result place => result.set place.1 (g place.2)) result).getD place.1 0 =
      g place.2) ∧ ∀ p ∉ places.map Prod.fst,
        (places.foldl (fun result place => result.set place.1 (g place.2)) result).getD p 0 =
        result.getD p 0 := by
  induction places generalizing result with
  | nil => exact ⟨fun _ => nofun, fun _ _ => rfl⟩
  | cons first places ih =>
    obtain ⟨fresh, nodup'⟩ := List.nodup_cons.1 nodup
    obtain ⟨here, inside⟩ := List.forall_mem_cons.1 inside
    have within : ∀ place ∈ places, place.1 < (result.set first.1 (g first.2)).length := by simpa using inside
    obtain ⟨set, kept⟩ := ih nodup' within
    constructor
    · intro place mem
      rw [List.foldl_cons]
      rcases List.mem_cons.1 mem with rfl | mem
      · rw [kept _ fresh, getD_set here, if_pos rfl]
      · exact set place mem
    · intro p notMem
      obtain ⟨other, notMem⟩ := not_or.1 (List.mem_cons.not.1 notMem)
      rw [List.foldl_cons, kept p notMem, getD_set here, if_neg other]

variable {values' : List K}

theorem inverse_of_forward (perm : permutation.Perm (List.range values.length))
    (size : signs.length = values.length)
    (drawn : ∀ sign ∈ signs, sign = 1 ∨ sign = -1)
    (taken : ∀ place ∈ permutation.zipIdx, values'.getD place.2 0 =
    signed signs values place.2 place.1) :
    permutation.zipIdx.foldl
      (fun result place => result.set place.1 (signed signs values' place.2 place.2))
      (List.replicate values.length 0) = values := by
  have count : permutation.length = values.length := by rw [perm.length_eq, List.length_range]
  have nodup : (permutation.zipIdx.map Prod.fst).Nodup := by
    rw [List.zipIdx_map_fst]
    exact perm.nodup_iff.2 List.nodup_range
  have inside (place : ℕ × ℕ) (mem : place ∈ permutation.zipIdx) :
      place.1 < (List.replicate values.length (0 : K)).length := by
    rw [List.length_replicate]
    have listed : place.1 ∈ permutation := List.fst_mem_of_mem_zipIdx mem
    exact List.mem_range.1 (perm.mem_iff.1 listed)
  obtain ⟨set, -⟩ := getD_foldl_set (g := fun index => signed signs values' index index)
      nodup inside
  refine List.ext_getElem ?_ fun p left right => ?_
  · rw [length_foldl_set (g := fun index => signed signs values' index index),
      List.length_replicate]
  obtain ⟨o, ho, at_o⟩ := List.mem_iff_getElem.1 (perm.mem_iff.2 (List.mem_range.2 right))
  have place : (p, o) ∈ permutation.zipIdx :=
      List.mem_zipIdx_iff_getElem?.2 (by rw [List.getElem?_eq_getElem ho, at_o])
  have entry := set _ place
  rw [List.getD_eq_getElem _ _ left] at entry
  rw [entry]
  unfold signed
  rw [taken _ place]
  unfold signed
  rw [signed_signed drawn (by omega), List.getD_eq_getElem _ _ right]

theorem forward_of_inverse (perm : permutation.Perm (List.range values.length))
    (size : signs.length = values.length)
    (drawn : ∀ sign ∈ signs, sign = 1 ∨ sign = -1)
    (put : ∀ place ∈ permutation.zipIdx, values'.getD place.1 0 =
    signed signs values place.2 place.2) :
    permutation.zipIdx.map (fun place => signed signs values' place.2 place.1) = values := by
  have count : permutation.length = values.length := by rw [perm.length_eq, List.length_range]
  refine List.ext_getElem (by simp [count]) fun o left right => ?_
  have ho : o < permutation.length := by omega
  have place : (permutation[o], o) ∈ permutation.zipIdx :=
      List.mem_zipIdx_iff_getElem?.2 (List.getElem?_eq_getElem ho)
  rw [List.getElem_map, List.getElem_zipIdx, Nat.zero_add]
  unfold signed
  rw [put _ place]
  unfold signed
  rw [signed_signed drawn (by omega), List.getD_eq_getElem _ _ right]

theorem rotationPlan_perm (pos : 0 < n) : (rotationPlan n seed).1.Perm (List.range n) :=
  shuffle_perm (by rw [List.length_range]; omega)

theorem rotate_false (nonempty : values ≠ []) (seed : ℤ) :
    rotate values seed false = .ok ((rotationPlan values.length seed).1.zipIdx.map fun place =>
      signed (rotationPlan values.length seed).2 values place.2 place.1) := by
  rw [rotate, if_neg nonempty]
  rfl

theorem rotate_true (nonempty : values ≠ []) (seed : ℤ) :
    rotate values seed true =
      .ok ((rotationPlan values.length seed).1.zipIdx.foldl (fun result place =>
      result.set place.1 (signed (rotationPlan values.length seed).2 values place.2 place.2))
        (List.replicate values.length 0)) := by
  rw [rotate, if_neg nonempty]
  rfl

/-- `rotate` and its inverse take each other back, for every seed. -/
theorem rotate_rotate (nonempty : values ≠ []) (seed : ℤ) (inverse : Bool) :
    (rotate values seed inverse >>= fun rotated => rotate rotated seed !inverse) = .ok values := by
  have pos := List.length_pos_of_ne_nil nonempty
  have perm : (rotationPlan values.length seed).1.Perm (List.range values.length) :=
      rotationPlan_perm pos
  have size : (rotationPlan values.length seed).2.length = values.length := length_drawSigns
  have drawn : ∀ sign ∈ (rotationPlan values.length seed).2, sign = 1 ∨ sign = -1 := fun _ mem =>
      eq_of_mem_drawSigns mem
  have count : (rotationPlan values.length seed).1.length = values.length := by
    rw [perm.length_eq, List.length_range]
  cases inverse with
  | false =>
    rw [rotate_false nonempty]
    have len : ((rotationPlan values.length seed).1.zipIdx.map fun place =>
        signed (rotationPlan values.length seed).2 values place.2 place.1).length =
          values.length := by simp [count]
    show rotate _ seed true = _
    rw [rotate_true (List.ne_nil_of_length_pos (by omega)), len]
    refine congrArg Except.ok (inverse_of_forward perm size drawn fun place mem => ?_)
    obtain ⟨lt, at_o⟩ := List.getElem?_eq_some_iff.1 (List.mem_zipIdx_iff_getElem?.1 mem)
    rw [List.getD_eq_getElem _ _
      (by rw [List.length_map, List.length_zipIdx]; exact lt), List.getElem_map,
      List.getElem_zipIdx, Nat.zero_add, at_o]
  | true =>
    rw [rotate_true nonempty]
    have len : ((rotationPlan values.length seed).1.zipIdx.foldl (fun result place =>
        result.set place.1 (signed (rotationPlan values.length seed).2 values place.2 place.2))
          (List.replicate values.length 0)).length = values.length := by
      rw [length_foldl_set
        (g := fun index => signed (rotationPlan values.length seed).2 values index index),
        List.length_replicate]
    show rotate _ seed false = _
    rw [rotate_false (List.ne_nil_of_length_pos (by omega)), len]
    refine congrArg Except.ok (forward_of_inverse perm size drawn ?_)
    refine (getD_foldl_set
      (g := fun index => signed (rotationPlan values.length seed).2 values index index) ?_ fun place
      mem => ?_).1
    · rw [List.zipIdx_map_fst]
      exact perm.nodup_iff.2 List.nodup_range
    · rw [List.length_replicate]
      exact List.mem_range.1 (perm.mem_iff.1 (List.fst_mem_of_mem_zipIdx mem))

/-! ## Signs and the transform -/

@[simp] theorem length_withSigns (size : signs.length = values.length) :
    (withSigns values signs).length = values.length := by
  simp [withSigns, size]

theorem getElem_withSigns (whole : i < (withSigns values signs).length) (first : i < values.length)
    (second : i < signs.length) : (withSigns values signs)[i] = values[i] * (signs[i] : ℤ) :=
  List.getElem_zipWith

theorem withSigns_withSigns (size : signs.length = values.length)
    (drawn : ∀ sign ∈ signs, sign = 1 ∨ sign = -1) :
    withSigns (withSigns values signs) signs = values := by
  refine List.ext_getElem (by simp [withSigns, size]) fun i left right => ?_
  have twice := sign_mul_sign (K := K) drawn (by omega : i < signs.length)
  rw [List.getD_eq_getElem _ _ (by omega)] at twice
  have one : i < (withSigns values signs).length := by
    rw [length_withSigns size]
    exact right
  rw [getElem_withSigns left one
    (by omega), getElem_withSigns one right (by omega), mul_assoc, twice, mul_one]

theorem map_hadamard (len : values.length = 2 ^ k) (c : K) :
    hadamard k (values.map (c * ·)) = (hadamard k values).map (c * ·) := by
  refine List.ext_getElem (by simp) fun i left right => ?_
  simp only [hadamard, List.getElem_map, List.getElem_range]
  rw [← Hadamard.transform_mul]
  refine Hadamard.transform_congr fun j hj => ?_
  rw [List.getD_eq_getElem _ _ (by simpa [len] using hj), List.getElem_map, List.getD_eq_getElem]

theorem fwht_fwht_orthonormal (len : values.length = 2 ^ k)
    (root : sqrt (2 ^ k) * sqrt (2 ^ k) = 2 ^ k) (two : (2 : K) ≠ 0) :
    (fwht sqrt .orthonormal values >>= fwht sqrt .orthonormal) = .ok values := by
  have nonzero : sqrt (2 ^ k) ≠ 0 := fun zero => by
    rw [zero, mul_zero] at root
    exact pow_ne_zero k two root.symm
  have scaled : (hadamard k values).map (· / sqrt (2 ^ k)) = (hadamard k values).map
      ((sqrt (2 ^ k))⁻¹ * ·) :=
    List.map_congr_left fun a _ => by rw [div_eq_inv_mul]
  rw [fwht_orthonormal len, scaled]
  show fwht sqrt .orthonormal _ = _
  rw [fwht_orthonormal (k := k)
    (by simp), map_hadamard (k := k) (by simp), hadamard_hadamard len, List.map_map, List.map_map]
  refine congrArg Except.ok ?_
  conv_rhs => rw [← List.map_id values]
  refine List.map_congr_left fun a _ => ?_
  show (sqrt (2 ^ k))⁻¹ * (2 ^ k * a) / sqrt (2 ^ k) = a
  rw [← root]
  field_simp

theorem rademacherSigns_spec (n : ℕ) (seed : ℤ) : (rademacherSigns n seed).length = n ∧
    ∀ sign ∈ rademacherSigns n seed, sign = 1 ∨ sign = -1 :=
  ⟨length_drawSigns, fun _ mem => eq_of_mem_drawSigns mem⟩

theorem unrotateFwht_rotateFwht (len : values.length = 2 ^ k)
    (root : sqrt (2 ^ k) * sqrt (2 ^ k) = 2 ^ k)
    (two : (2 : K) ≠ 0) (seed : ℤ) :
    (rotateFwht sqrt values seed >>= fun rotated => unrotateFwht sqrt rotated seed) = .ok values ∧
      (unrotateFwht sqrt values seed >>= fun signed => rotateFwht sqrt signed seed) =
      .ok values := by
  obtain ⟨size, drawn⟩ := rademacherSigns_spec values.length seed
  have signedLen {x : List K} (same : x.length = values.length) :
      (withSigns x (rademacherSigns values.length seed)).length = 2 ^ k := by
    rw [length_withSigns (by rw [size, same]), same, len]
  constructor
  · have there := fwht_fwht_orthonormal (signedLen (x := values) rfl) root two
    have first : fwht sqrt .orthonormal _ = _ := fwht_orthonormal (signedLen (x := values) rfl)
    unfold rotateFwht unrotateFwht
    rw [first] at there ⊢
    show (fwht sqrt .orthonormal _ >>= fun signed => _) = _
    rw [show fwht sqrt .orthonormal _ = _ from there, List.length_map, length_hadamard, ← len]
    exact congrArg Except.ok (withSigns_withSigns size drawn)
  · have there := fwht_fwht_orthonormal len root two
    have first : fwht sqrt .orthonormal _ = _ := fwht_orthonormal len
    unfold rotateFwht unrotateFwht
    rw [first] at there ⊢
    have same : ((hadamard k values).map (· / sqrt (2 ^ k))).length = values.length := by simp [len]
    show fwht sqrt .orthonormal (withSigns (withSigns _ (rademacherSigns values.length seed))
      (rademacherSigns (withSigns _ (rademacherSigns values.length seed)).length seed)) = _
    have signs : rademacherSigns (withSigns ((hadamard k values).map (· / sqrt (2 ^ k)))
        (rademacherSigns values.length seed)).length seed = rademacherSigns values.length seed := by
      rw [signedLen same, len]
    rw [signs, withSigns_withSigns (size.trans same.symm) drawn]
    exact there

/-- The unscaled transform is the product with the Hadamard matrix, and twice it is the vector times
its length; the seeded rotations have a two-sided inverse. -/
theorem transforms_invertible (sqrt : ℕ → K) :
    (∀ k (values : List K), values.length = 2 ^ k → fwht sqrt .none values =
    .ok (hadamard k values) ∧
      (fwht sqrt .none values >>= fwht sqrt .none) = .ok (values.map ((values.length : K) * ·))) ∧
    (∀ (values : List K) (seed : ℤ), values ≠ [] →
      (rotate values seed false >>= fun rotated => rotate rotated seed true) = .ok values ∧
        (rotate values seed true >>= fun restored => rotate restored seed false) = .ok values) ∧
    ∀ k (values : List K) (seed : ℤ), values.length = 2 ^ k → sqrt (2 ^ k) * sqrt (2 ^ k) = 2 ^ k →
      (2 : K) ≠ 0 →
      (rotateFwht sqrt values seed >>= fun rotated => unrotateFwht sqrt rotated seed) = .ok values ∧
        (unrotateFwht sqrt values seed >>= fun signed => rotateFwht sqrt signed seed) =
        .ok values := by
  refine ⟨fun k values len => ⟨fwht_none len, ?_⟩, fun values seed nonempty =>
    ?_, fun k values seed len root two => ?_⟩
  · rw [fwht_none len]
    show fwht sqrt .none _ = _
    rw [fwht_none (k := k) length_hadamard, hadamard_hadamard len, len]
    push_cast
    rfl
  · exact ⟨rotate_rotate nonempty seed false, rotate_rotate nonempty seed true⟩
  · exact unrotateFwht_rotateFwht len root two seed

/-- A vector of four rational numbers. -/
theorem transforms_invertible_four :
    fwht (fun _ => (2 : ℚ)) .none [1, 2, 3, 4] = .ok (hadamard 2 [1, 2, 3, 4]) ∧
      (rotate [1, 2, (3 : ℚ)] (-5) false >>= fun rotated => rotate rotated (-5) true) = .ok
      [1, 2, 3] ∧
      (rotateFwht (fun _ => (2 : ℚ)) [1, 2, 3, 4] 7 >>= fun rotated =>
      unrotateFwht (fun _ => (2 : ℚ)) rotated 7) =
        .ok [1, 2, 3, 4] :=
  ⟨((transforms_invertible fun _ => (2 : ℚ)).1 2 [1, 2, 3, 4] rfl).1,
    ((transforms_invertible fun _ => (2 : ℚ)).2.1 [1, 2, 3] (-5) (List.cons_ne_nil _ _)).1,
    ((transforms_invertible fun _ => (2 : ℚ)).2.2 2 [1, 2, 3, 4] 7 rfl
    (by norm_num) (by norm_num)).1⟩

end Vectors

end SimplicioFast
