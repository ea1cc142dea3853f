import SimplicioFast.Lib.Bytes

/-!
# Packed records

Records of unsigned little-endian integers and byte strings of fixed width, as `struct.Struct("<…")`
packs them, and arrays of records of one size.
-/

namespace SimplicioFast

namespace Struct

variable {fs : List (ℕ × ℕ)} {b c : Bytes} {w size i : ℕ}

/-- The integers in fields of the given widths; `none` stands for `struct.error`. -/
def pack : List (ℕ × ℕ) → Option Bytes
  | [] => some []
  | (w, n) :: fs => if n < 256 ^ w then (pack fs).map (Bytes.packLE w n ++ ·) else none

/-- The integers in the fields of the given widths. -/
def unpack : List ℕ → Bytes → List ℕ
  | [], _ => []
  | w :: ws, b => Bytes.unpackLE (b.take w) :: unpack ws (b.drop w)

/-- A byte string in a field of `w` bytes: cut at the end, or filled up with zeros. -/
def blob (w : ℕ) (b : Bytes) : Bytes := (b ++ List.replicate w 0).take w

theorem unpack_pack (h : pack fs = some b) (rest : Bytes) :
    unpack (fs.map Prod.fst) (b ++ rest) = fs.map Prod.snd := by
  induction fs generalizing b with
  | nil => rfl
  | cons f fs ih =>
    obtain ⟨w, n⟩ := f
    rw [pack] at h
    split_ifs at h with bound
    obtain ⟨b', packed, rfl⟩ := Option.map_eq_some_iff.1 h
    rw [List.map_cons, List.map_cons, unpack, List.append_assoc,
      List.take_left' (Bytes.length_packLE w n), List.drop_left' (Bytes.length_packLE w n),
      ih packed, Bytes.unpackLE_packLE bound]

theorem length_pack (h : pack fs = some b) : b.length = (fs.map Prod.fst).sum := by
  induction fs generalizing b with
  | nil =>
    cases h
    rfl
  | cons f fs ih =>
    obtain ⟨w, n⟩ := f
    rw [pack] at h
    split_ifs at h
    obtain ⟨b', packed, rfl⟩ := Option.map_eq_some_iff.1 h
    rw [List.length_append, Bytes.length_packLE, ih packed, List.map_cons, List.sum_cons]

@[simp] theorem length_blob : (blob w b).length = w := by
  simp [blob]

theorem blob_eq_self (h : b.length = w) : blob w b = b := by
  rw [blob, List.take_left' h]

theorem slice_flatten {l : List Bytes} (sizes : ∀ b ∈ l, b.length = size) (h : i < l.length) :
    Bytes.slice l.flatten (i * size) (i * size + size) = l[i] := by
  induction l generalizing i with
  | nil => cases h
  | cons b l ih =>
    have first := sizes b List.mem_cons_self
    rw [List.flatten_cons]
    cases i with
    | zero =>
      rw [Nat.zero_mul, Nat.zero_add, Bytes.slice_append_left (le_of_eq first.symm), ← first,
        Bytes.slice_zero_length]
      rfl
    | succ i =>
      have rest := ih (fun b mem => sizes b (List.mem_cons_of_mem _ mem)) (Nat.lt_of_succ_lt_succ h)
      rw [Nat.succ_mul, Nat.add_comm (i * size) size, Nat.add_assoc, ← first,
        Bytes.slice_append_right, first, rest]
      rfl

theorem length_flatten {l : List Bytes} (sizes : ∀ b ∈ l, b.length = size) :
    l.flatten.length = l.length * size := by
  induction l with
  | nil => simp
  | cons b l ih =>
    rw [List.flatten_cons, List.length_append, sizes b List.mem_cons_self,
      ih fun b mem => sizes b (List.mem_cons_of_mem _ mem), List.length_cons]
    ring

end Struct

end SimplicioFast
