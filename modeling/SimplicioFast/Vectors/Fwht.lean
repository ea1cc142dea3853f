import SimplicioFast.Lib.Hadamard
import SimplicioFast.Lib.Text

/-!
# The fast Walsh-Hadamard transform

`fwht` goes over the vector once for each width `1, 2, 4, …` and replaces the two entries of each
butterfly in place.  After the level of width `2 ^ m` every block of that length has become its
product with the Hadamard matrix of the order (`After`), so the last level leaves the product with
the whole vector (`fwht_none`).

Numbers are exact: the vectors are over a field.
-/

namespace SimplicioFast

namespace Vectors

open Hadamard

variable {K : Type} [Field K]

/-- The values of `normalization`. -/
inductive Normalization
  | none
  | orthonormal
deriving DecidableEq

/-- The body of the inner loop: the entries at `left` and at `left + width` become their sum and
their difference. -/
def butterfly (width : ℕ) (transformed : List K) (left : ℕ) : List K :=
  let l := transformed.getD left 0
  let r := transformed.getD (left + width) 0
  (transformed.set left (l + r)).set (left + width) (l - r)

/-- `range(0, size, step)`. -/
def starts (size step : ℕ) : List ℕ := List.range' 0 ((size + step - 1) / step) step

def level (size width : ℕ) (transformed : List K) : List K :=
  (starts size (width * 2)).foldl (fun transformed start =>
    (List.range width).foldl (fun transformed offset =>
      butterfly width transformed (start + offset)) transformed) transformed

/-- The outer loop, from a width that is positive. -/
def levels (size width : ℕ) (transformed : List K) : List K :=
  if _ : 0 < width ∧ width < size then levels size (width * 2) (level size width transformed)
  else transformed
termination_by size - width

/-- `fwht`, with the square root that scales an orthonormal transform. -/
def fwht (sqrt : ℕ → K) (normalization : Normalization) (values : List K) : Except PyStr (List K) :=
  if values.length = 0 ∨ values.length &&& (values.length - 1) ≠ 0 then
    .error "values length must be a non-empty power of two"
  else match normalization with
    | .none => .ok (levels values.length 1 values)
    | .orthonormal => .ok ((levels values.length 1 values).map (· / sqrt values.length))

variable {values x v : List K} {width p k m size : ℕ} {lefts : List ℕ} {sqrt : ℕ → K}

/-! ## One level -/

@[simp] theorem length_butterfly (left : ℕ) : (butterfly width v left).length = v.length := by
  simp [butterfly]

theorem getD_set {i : ℕ} {a : K} (lt : i < v.length) :
    (v.set i a).getD p 0 = if p = i then a else v.getD p 0 := by
  rw [List.getD_eq_getElem?_getD, List.getElem?_set, List.getD_eq_getElem?_getD]
  by_cases same : p = i
  · rw [if_pos same, if_pos same.symm, if_pos lt]
    rfl
  · rw [if_neg same, if_neg fun h => same h.symm]

theorem getD_butterfly {left : ℕ} (lt : left + width < v.length) (pos : 0 < width) :
    (butterfly width v left).getD p 0 =
      if p = left then v.getD left 0 + v.getD (left + width) 0
      else if p = left + width then v.getD left 0 - v.getD (left + width) 0 else v.getD p 0 := by
  unfold butterfly
  dsimp only
  rw [getD_set (by rw [List.length_set]; exact lt), getD_set (by omega)]
  by_cases first : p = left
  · rw [if_neg (by omega), if_pos first, if_pos first]
  · rw [if_neg first, if_neg first]

@[simp] theorem length_foldl_butterfly : (lefts.foldl (butterfly width) v).length = v.length := by
  induction lefts generalizing v with
  | nil => rfl
  | cons left lefts ih => rw [List.foldl_cons, ih, length_butterfly]

theorem getD_foldl_butterfly (pos : 0 < width) (nodup : lefts.Nodup)
    (inside : ∀ left ∈ lefts, left + width < v.length)
    (apart : ∀ left ∈ lefts, left + width ∉ lefts) :
    (p ∈ lefts → (lefts.foldl (butterfly width) v).getD p 0 = v.getD p 0 + v.getD (p + width) 0) ∧
      (p ∈ lefts → (lefts.foldl (butterfly width) v).getD (p + width) 0 = v.getD p 0 - v.getD
      (p + width) 0) ∧
      (p ∉ lefts → (∀ left ∈ lefts, p ≠ left + width) → (lefts.foldl (butterfly width) v).getD p 0 =
      v.getD p 0) := by
  induction lefts generalizing v p with
  | nil => exact ⟨nofun, nofun, fun _ _ => rfl⟩
  | cons left lefts ih =>
    obtain ⟨fresh, nodup'⟩ := List.nodup_cons.1 nodup
    obtain ⟨here, inside⟩ := List.forall_mem_cons.1 inside
    have inside' : ∀ other ∈ lefts, other + width < (butterfly width v left).length := by
      simpa using inside
    have apart' : ∀ other ∈ lefts, other + width ∉ lefts := fun other mem listed =>
      apart other (List.mem_cons_of_mem _ mem) (List.mem_cons_of_mem _ listed)
    have ahead : left + width ∉ lefts := fun listed =>
        apart left List.mem_cons_self (List.mem_cons_of_mem _ listed)
    have behind (other : ℕ) (mem : other ∈ lefts) : other + width ≠ left := fun same =>
      apart other (List.mem_cons_of_mem _ mem) (same ▸ List.mem_cons_self)
    have ne (other : ℕ) (mem : other ∈ lefts) : other ≠ left := fun same => fresh (same ▸ mem)
    have later {q : ℕ} (mem : q ∈ lefts) : (butterfly width v left).getD q 0 = v.getD q 0 ∧
        (butterfly width v left).getD (q + width) 0 = v.getD (q + width) 0 := by
      have other := ne q mem
      have far := behind q mem
      have near : q ≠ left + width := fun same => ahead (same ▸ mem)
      rw [getD_butterfly here pos, getD_butterfly here pos, if_neg other, if_neg near, if_neg far,
        if_neg (by omega)]
      exact ⟨rfl, rfl⟩
    rw [List.foldl_cons]
    refine ⟨fun mem => ?_, fun mem => ?_, fun notMem clear => ?_⟩
    · rcases List.mem_cons.1 mem with rfl | mem
      · rw [(ih nodup' inside' apart').2.2 fresh fun other mem same =>
          apart other (List.mem_cons_of_mem _ mem)
          (same ▸ List.mem_cons_self), getD_butterfly here pos, if_pos rfl]
      · rw [(ih nodup' inside' apart').1 mem, (later mem).1, (later mem).2]
    · rcases List.mem_cons.1 mem with rfl | mem
      · rw [(ih nodup' inside' apart').2.2 ahead fun other mem same => ne other mem (by omega),
          getD_butterfly here pos, if_neg (by omega), if_pos rfl]
      · rw [(ih nodup' inside' apart').2.1 mem, (later mem).1, (later mem).2]
    · obtain ⟨other, notMem⟩ := not_or.1 (List.mem_cons.not.1 notMem)
      obtain ⟨far, clear⟩ := List.forall_mem_cons.1 clear
      rw [(ih nodup' inside' apart').2.2 notMem clear, getD_butterfly here pos, if_neg other,
        if_neg far]

/-! ## The butterflies of a level -/

/-- The left entries of the butterflies of a level. -/
def leftsOf (size width : ℕ) : List ℕ :=
  (starts size (width * 2)).flatMap fun start => (List.range width).map (start + ·)

theorem level_eq : level size width v = (leftsOf size width).foldl (butterfly width) v := by
  unfold level leftsOf
  rw [List.foldl_flatMap]
  simp only [List.foldl_map]

theorem mem_starts_pow (lt : m < k) : p ∈ starts (2 ^ k) (2 ^ m * 2) ↔
    ∃ b < 2 ^ (k - m - 1), p = b * 2 ^ (m + 1) := by
  have step : 2 ^ m * 2 = 2 ^ (m + 1) := (pow_succ 2 m).symm
  have whole : 2 ^ k = 2 ^ (k - m - 1) * 2 ^ (m + 1) := by
    rw [← pow_add]
    congr 1
    omega
  have count : (2 ^ k + 2 ^ (m + 1) - 1) / 2 ^ (m + 1) = 2 ^ (k - m - 1) := by
    have pos : 0 < 2 ^ (m + 1) := Nat.two_pow_pos _
    rw [whole,
      Nat.add_sub_assoc
      (by omega), Nat.add_comm, Nat.add_mul_div_right _ _ pos, Nat.div_eq_of_lt (by omega),
      Nat.zero_add]
  unfold starts
  rw [step, count, List.mem_range']
  refine exists_congr fun b => and_congr_right fun _ => ?_
  rw [Nat.zero_add, Nat.mul_comm]

theorem mem_leftsOf_pow (lt : m < k) :
    p ∈ leftsOf (2 ^ k) (2 ^ m) ↔ ∃ b < 2 ^ (k - m - 1), ∃ o < 2 ^ m, p = b * 2 ^ (m + 1) + o := by
  unfold leftsOf
  rw [List.mem_flatMap]
  constructor
  · rintro ⟨start, mem, mem'⟩
    obtain ⟨b, hb, rfl⟩ := (mem_starts_pow lt).1 mem
    obtain ⟨o, ho, rfl⟩ := List.mem_map.1 mem'
    exact ⟨b, hb, o, List.mem_range.1 ho, rfl⟩
  · rintro ⟨b, hb, o, ho, rfl⟩
    exact ⟨_, (mem_starts_pow lt).2 ⟨b, hb, rfl⟩, List.mem_map.2 ⟨o, List.mem_range.2 ho, rfl⟩⟩

theorem block_of_left {b o : ℕ} (ho : o < 2 ^ (m + 1)) : (b * 2 ^ (m + 1) + o) / 2 ^
    (m + 1) = b := by
  rw [Nat.add_comm, Nat.add_mul_div_right _ _ (Nat.two_pow_pos _), Nat.div_eq_of_lt ho,
    Nat.zero_add]

theorem nodup_leftsOf (lt : m < k) : (leftsOf (2 ^ k) (2 ^ m)).Nodup := by
  have half : 2 ^ m < 2 ^ (m + 1) := Nat.pow_lt_pow_right (by omega) (by omega)
  refine List.nodup_flatMap.2 ⟨fun start _ => ?_, ?_⟩
  · exact List.nodup_range.map fun _ _ => Nat.add_left_cancel
  · have distinct : (starts (2 ^ k) (2 ^ m * 2)).Nodup :=
        List.nodup_range' _ (Nat.mul_pos (Nat.two_pow_pos m) (by omega))
    refine List.Pairwise.imp_of_mem ?_ distinct
    intro a b ha hb ne
    obtain ⟨i, -, rfl⟩ := (mem_starts_pow lt).1 ha
    obtain ⟨j, -, rfl⟩ := (mem_starts_pow lt).1 hb
    intro p left right
    obtain ⟨o, ho, rfl⟩ := List.mem_map.1 left
    obtain ⟨o', ho', same⟩ := List.mem_map.1 right
    have one := block_of_left (b := i) (o := o) (m := m) (by have := List.mem_range.1 ho; omega)
    have two := block_of_left (b := j) (o := o') (m := m) (by have := List.mem_range.1 ho'; omega)
    have : i = j := by
      rw [← one, ← two]
      exact congrArg (· / 2 ^ (m + 1)) same.symm
    exact ne (by rw [this])

theorem right_notMem_leftsOf (lt : m < k) {left : ℕ} (mem : left ∈ leftsOf (2 ^ k) (2 ^ m)) :
    left + 2 ^ m ∉ leftsOf (2 ^ k) (2 ^ m) := by
  intro listed
  obtain ⟨b, -, o, ho, rfl⟩ := (mem_leftsOf_pow lt).1 mem
  obtain ⟨b', -, o', ho', same⟩ := (mem_leftsOf_pow lt).1 listed
  have double : 2 ^ (m + 1) = 2 ^ m + 2 ^ m := by rw [pow_succ, mul_two]
  have one : (b * 2 ^ (m + 1) + (o + 2 ^ m)) / 2 ^ (m + 1) = b := block_of_left (by omega)
  have two : (b' * 2 ^ (m + 1) + o') / 2 ^ (m + 1) = b' := block_of_left (by omega)
  rw [← Nat.add_assoc, same, two] at one
  subst one
  omega

theorem right_lt_of_leftsOf (lt : m < k) {left : ℕ} (mem : left ∈ leftsOf (2 ^ k) (2 ^ m)) :
    left + 2 ^ m < 2 ^ k := by
  obtain ⟨b, hb, o, ho, rfl⟩ := (mem_leftsOf_pow lt).1 mem
  have whole : 2 ^ k = 2 ^ (k - m - 1) * 2 ^ (m + 1) := by
    rw [← pow_add]
    congr 1
    omega
  have double : 2 ^ (m + 1) = 2 ^ m + 2 ^ m := by rw [pow_succ, mul_two]
  have room : (b + 1) * 2 ^ (m + 1) ≤ 2 ^ k := whole ▸ Nat.mul_le_mul_right _ hb
  rw [Nat.succ_mul] at room
  omega

/-! ## All levels -/

/-- Every block of length `2 ^ m` is its product with the matrix of the order. -/
def After (m : ℕ) (x v : List K) : Prop :=
  v.length = x.length ∧ ∀ b o, o < 2 ^ m → b * 2 ^ m + o < x.length →
    v.getD (b * 2 ^ m + o) 0 = transform m (fun j => x.getD (b * 2 ^ m + j) 0) o

theorem after_zero (x : List K) : After 0 x x := by
  refine ⟨rfl, fun b o ho _ => ?_⟩
  obtain rfl : o = 0 := by simpa using ho
  rw [transform_zero]

theorem after_level (lt : m < k) (len : x.length = 2 ^ k) (after : After m x v) :
    After (m + 1) x (level (2 ^ k) (2 ^ m) v) := by
  obtain ⟨same, blocks⟩ := after
  have double : 2 ^ (m + 1) = 2 ^ m + 2 ^ m := by rw [pow_succ, mul_two]
  have whole : 2 ^ k = 2 ^ (k - m - 1) * 2 ^ (m + 1) := by
    rw [← pow_add]
    congr 1
    omega
  rw [level_eq]
  refine ⟨by rw [length_foldl_butterfly, same], fun b o ho inside => ?_⟩
  have hb : b < 2 ^ (k - m - 1) := by
    by_contra far
    have := Nat.mul_le_mul_right (2 ^ (m + 1)) (Nat.le_of_not_lt far)
    omega
  have butterflies (p : ℕ) := getD_foldl_butterfly (p := p) (v := v) (Nat.two_pow_pos m)
      (nodup_leftsOf lt)
    (fun left mem => by
      rw [same, len]
      exact right_lt_of_leftsOf lt mem)
    (fun left mem => right_notMem_leftsOf lt mem)
  -- the two halves of the block before the level
  have lower (o : ℕ) (ho : o < 2 ^ m) : v.getD (b * 2 ^ (m + 1) + o) 0 =
      transform m (fun j => x.getD (b * 2 ^ (m + 1) + j) 0) o := by
    have block : b * 2 ^ (m + 1) = (2 * b) * 2 ^ m := by rw [pow_succ]; ring
    have mem : b * 2 ^ (m + 1) + o ∈ leftsOf (2 ^ k) (2 ^ m) :=
        (mem_leftsOf_pow lt).2 ⟨b, hb, o, ho, rfl⟩
    have room := right_lt_of_leftsOf lt mem
    rw [block] at room ⊢
    exact blocks (2 * b) o ho (by omega)
  have upper (o : ℕ) (ho : o < 2 ^ m) : v.getD (b * 2 ^ (m + 1) + o + 2 ^ m) 0 =
      transform m (fun j => x.getD (b * 2 ^ (m + 1) + (2 ^ m + j)) 0) o := by
    have place (j : ℕ) : b * 2 ^ (m + 1) + (2 ^ m + j) = (2 * b + 1) * 2 ^ m + j := by
      rw [pow_succ]; ring
    have mem : b * 2 ^ (m + 1) + o ∈ leftsOf (2 ^ k) (2 ^ m) :=
        (mem_leftsOf_pow lt).2 ⟨b, hb, o, ho, rfl⟩
    have room := right_lt_of_leftsOf lt mem
    rw [show b * 2 ^ (m + 1) + o + 2 ^ m = b * 2 ^ (m + 1) + (2 ^ m + o) by omega] at room ⊢
    simp only [place] at room ⊢
    exact blocks (2 * b + 1) o ho (by omega)
  rcases Nat.lt_or_ge o (2 ^ m) with low | high
  · have mem : b * 2 ^ (m + 1) + o ∈ leftsOf (2 ^ k) (2 ^ m) :=
        (mem_leftsOf_pow lt).2 ⟨b, hb, o, low, rfl⟩
    rw [(butterflies _).1 mem, lower o low, upper o low, transform_succ_low low]
  · obtain ⟨o, rfl⟩ := Nat.exists_eq_add_of_le high
    have low : o < 2 ^ m := by omega
    have mem : b * 2 ^ (m + 1) + o ∈ leftsOf (2 ^ k) (2 ^ m) :=
        (mem_leftsOf_pow lt).2 ⟨b, hb, o, low, rfl⟩
    rw [show b * 2 ^ (m + 1) + (2 ^ m + o) =
      b * 2 ^ (m + 1) + o + 2 ^ m by omega, (butterflies _).2.1 mem, lower o low,
      upper o low, transform_succ_high low]

theorem after_levels (le : m ≤ k) (len : x.length = 2 ^ k) (after : After m x v) :
    After k x (levels (2 ^ k) (2 ^ m) v) := by
  induction h : k - m generalizing m v with
  | zero =>
    obtain rfl : m = k := by omega
    rw [levels, dif_neg fun h => Nat.lt_irrefl _ h.2]
    exact after
  | succ n ih =>
    have lt : m < k := by omega
    rw [levels, dif_pos ⟨Nat.two_pow_pos m, Nat.pow_lt_pow_right (by omega) lt⟩, ← pow_succ]
    exact ih (by omega) (after_level lt len after) (by omega)

/-- The product of the Hadamard matrix and a vector of the length `2 ^ k`. -/
def hadamard (k : ℕ) (x : List K) : List K := (List.range (2 ^ k)).map
    (transform k fun j => x.getD j 0)

theorem levels_eq (len : x.length = 2 ^ k) : levels x.length 1 x = hadamard k x := by
  have last := after_levels (Nat.zero_le k) len (after_zero x)
  rw [pow_zero] at last
  obtain ⟨same, blocks⟩ := last
  rw [len]
  refine List.ext_getElem ?_ fun i left right => ?_
  · rw [hadamard, List.length_map, List.length_range, same, len]
  · have lt : i < 2 ^ k := by simpa [hadamard] using right
    have entry := blocks 0 i lt (by omega)
    rw [Nat.zero_mul, Nat.zero_add, List.getD_eq_getElem _ _ left] at entry
    refine entry.trans ?_
    simp only [hadamard, List.getElem_map, List.getElem_range, Nat.zero_add]

theorem getD_hadamard {i : ℕ} (lt : i < 2 ^ k) : (hadamard k x).getD i 0 = transform k
    (fun j => x.getD j 0) i := by
  rw [List.getD_eq_getElem _ _ (by simpa [hadamard] using lt)]
  simp [hadamard]

@[simp] theorem length_hadamard : (hadamard k x).length = 2 ^ k := by simp [hadamard]

theorem hadamard_hadamard (len : x.length = 2 ^ k) : hadamard k (hadamard k x) = x.map
    ((2 : K) ^ k * ·) := by
  refine List.ext_getElem (by simp [len]) fun i left right => ?_
  have lt : i < 2 ^ k := by simpa using left
  have entry := getD_hadamard (x := hadamard k x) lt
  rw [List.getD_eq_getElem _ _ left, transform_congr fun j hj => getD_hadamard hj,
    transform_transform lt] at entry
  rw [entry, List.getElem_map, List.getD_eq_getElem]

/-! ## The transform -/

theorem fits_of_pow {n : ℕ} (len : n = 2 ^ k) : ¬ (n = 0 ∨ n &&& (n - 1) ≠ 0) := by
  obtain ⟨pos, and⟩ := Nat.ne_zero_and_sub_one_eq_zero_iff_isPowerOfTwo.2 ⟨k, len⟩
  exact not_or.2 ⟨pos, not_not.2 and⟩

theorem fwht_none (len : x.length = 2 ^ k) : fwht sqrt .none x = .ok (hadamard k x) := by
  unfold fwht
  rw [if_neg (fits_of_pow len), levels_eq len]

theorem fwht_orthonormal (len : x.length = 2 ^ k) :
    fwht sqrt .orthonormal x = .ok ((hadamard k x).map (· / sqrt (2 ^ k))) := by
  unfold fwht
  rw [if_neg (fits_of_pow len), levels_eq len, len]

end Vectors

end SimplicioFast
