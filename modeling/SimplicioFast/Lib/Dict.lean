import Mathlib.Algebra.GroupWithZero.Nat
import Mathlib.Data.List.Nodup
import Mathlib.Data.List.Lookmap

/-!
# Insertion-ordered dictionaries

A `Dict` is an association list without repeated keys, in the order in which the keys were first
inserted: assigning to a present key keeps its position, assigning to a new key appends it.
-/

namespace SimplicioFast

/-- A finite map that remembers the order in which its keys were inserted. -/
structure Dict (κ ν : Type*) where
  entries : List (κ × ν)
  nodup : (entries.map Prod.fst).Nodup

namespace Dict

variable {κ ν : Type*} [DecidableEq κ]

def empty : Dict κ ν := ⟨[], List.nodup_nil⟩

/-- The value of the first entry with the key `k`. -/
abbrev find (l : List (κ × ν)) (k : κ) : Option ν := l.lookup k

/-- The value stored under `k`. -/
def get? (d : Dict κ ν) (k : κ) : Option ν := find d.entries k

def keys (d : Dict κ ν) : List κ := d.entries.map Prod.fst

def values (d : Dict κ ν) : List ν := d.entries.map Prod.snd

/-- The entries after the assignment of `v` to `k`. -/
def setEntries (k : κ) (v : ν) : List (κ × ν) → List (κ × ν)
  | [] => [(k, v)]
  | (k', v') :: rest => if k' = k then (k, v) :: rest else (k', v') :: setEntries k v rest

theorem map_fst_setEntries (k : κ) (v : ν) (l : List (κ × ν)) :
    (setEntries k v l).map Prod.fst =
      if k ∈ l.map Prod.fst then l.map Prod.fst else l.map Prod.fst ++ [k] := by
  induction l with
  | nil => simp [setEntries]
  | cons p l ih =>
    obtain ⟨k', v'⟩ := p
    by_cases h : k' = k
    · simp [setEntries, h]
    · have h' : k ≠ k' := fun e => h e.symm
      simp only [setEntries, h, if_false, List.map_cons, ih, List.mem_cons, h', false_or]
      split_ifs <;> simp

theorem setEntries_of_notMem {k : κ} (v : ν) {l : List (κ × ν)} (h : k ∉ l.map Prod.fst) :
    setEntries k v l = l ++ [(k, v)] := by
  induction l with
  | nil => rfl
  | cons p l ih =>
    rw [List.map_cons, List.mem_cons, not_or] at h
    rw [setEntries, if_neg fun e => h.1 e.symm, ih h.2, List.cons_append]

/-- The assignment `d[k] = v`. -/
def set (d : Dict κ ν) (k : κ) (v : ν) : Dict κ ν where
  entries := setEntries k v d.entries
  nodup := by
    rw [map_fst_setEntries]
    split_ifs with h
    · exact d.nodup
    · exact List.nodup_append.2 ⟨d.nodup, by simp, by
        rintro a ha b hb rfl
        exact h (by rwa [List.mem_singleton.1 hb] at ha)⟩

theorem entries_foldl_set {l : List (κ × ν)} {d : Dict κ ν} (nodup : ((d.entries ++ l).map Prod.fst).Nodup) :
    (l.foldl (fun d e => d.set e.1 e.2) d).entries = d.entries ++ l := by
  induction l generalizing d with
  | nil => exact (List.append_nil _).symm
  | cons e l ih =>
    have absent : e.1 ∉ d.entries.map Prod.fst := by
      rw [List.map_append, List.map_cons] at nodup
      exact fun mem => (List.nodup_append.1 nodup).2.2 _ mem _ (List.mem_cons_self ..) rfl
    have set : (d.set e.1 e.2).entries = d.entries ++ [e] := setEntries_of_notMem e.2 absent
    rw [List.foldl_cons, ih (by rw [set, List.append_assoc]; exact nodup), set, List.append_assoc]
    rfl

@[simp] theorem get?_empty (k : κ) : (empty : Dict κ ν).get? k = none := rfl

theorem lookup_cons_ite (k k' : κ) (v : ν) (l : List (κ × ν)) :
    ((k', v) :: l).lookup k = if k = k' then some v else l.lookup k := by
  by_cases h : k = k'
  · subst h
    simp
  · have hb : (k == k') = false := by simpa using h
    simp [List.lookup_cons, hb, h]

theorem find_cons (k k' : κ) (v : ν) (l : List (κ × ν)) :
    find ((k', v) :: l) k = if k = k' then some v else find l k := lookup_cons_ite k k' v l

theorem find_append (l m : List (κ × ν)) (k : κ) : find (l ++ m) k = (find l k).or (find m k) :=
  List.lookup_append

theorem lookup_setEntries (k k' : κ) (v : ν) (l : List (κ × ν)) :
    (setEntries k v l).lookup k' = if k' = k then some v else l.lookup k' := by
  induction l with
  | nil => rw [setEntries, lookup_cons_ite]
  | cons p l ih =>
    obtain ⟨k₁, v₁⟩ := p
    by_cases h₁ : k₁ = k
    · subst h₁
      simp only [setEntries, if_true, lookup_cons_ite]
      split_ifs <;> rfl
    · simp only [setEntries, h₁, if_false, lookup_cons_ite, ih]
      by_cases h : k' = k₁
      · subst h
        simp [h₁]
      · simp [h]

@[simp] theorem get?_set (d : Dict κ ν) (k k' : κ) (v : ν) :
    (d.set k v).get? k' = if k' = k then some v else d.get? k' :=
  lookup_setEntries k k' v d.entries

theorem get?_set_self (d : Dict κ ν) (k : κ) (v : ν) : (d.set k v).get? k = some v := by simp

theorem get?_set_of_ne (d : Dict κ ν) {k k' : κ} (v : ν) (h : k' ≠ k) :
    (d.set k v).get? k' = d.get? k' := by
  simp [h]

theorem setEntries_eq_self {k : κ} {v : ν} {l : List (κ × ν)} (h : l.lookup k = some v) :
    setEntries k v l = l := by
  induction l with
  | nil => cases h
  | cons p l ih =>
    obtain ⟨k', v'⟩ := p
    rw [lookup_cons_ite] at h
    by_cases hk : k = k'
    · subst hk
      rw [if_pos rfl] at h
      cases h
      rw [setEntries, if_pos rfl]
    · rw [if_neg hk] at h
      rw [setEntries, if_neg fun e => hk e.symm, ih h]

theorem set_eq_self {d : Dict κ ν} {k : κ} {v : ν} (h : d.get? k = some v) : d.set k v = d := by
  obtain ⟨entries, nodup⟩ := d
  have same : setEntries k v entries = entries := setEntries_eq_self h
  simp only [set, same]

theorem mem_of_lookup {l : List (κ × ν)} {k : κ} {v : ν} (h : l.lookup k = some v) :
    (k, v) ∈ l := by
  induction l with
  | nil => simp at h
  | cons p l ih =>
    obtain ⟨k', v'⟩ := p
    rw [lookup_cons_ite] at h
    split_ifs at h with hk
    · cases h
      subst hk
      exact List.mem_cons_self
    · exact List.mem_cons_of_mem _ (ih h)

theorem lookup_of_mem {l : List (κ × ν)} (nodup : (l.map Prod.fst).Nodup) {k : κ} {v : ν}
    (h : (k, v) ∈ l) : l.lookup k = some v := by
  induction l with
  | nil => cases h
  | cons p l ih =>
    obtain ⟨k', v'⟩ := p
    rw [List.map_cons, List.nodup_cons] at nodup
    rw [lookup_cons_ite]
    rcases List.mem_cons.1 h with e | later
    · cases e
      rw [if_pos rfl]
    · have hk : k ≠ k' := by
        rintro rfl
        exact nodup.1 (List.mem_map.2 ⟨_, later, rfl⟩)
      rw [if_neg hk, ih nodup.2 later]

theorem lookup_perm {l m : List (κ × ν)} (nodup : (l.map Prod.fst).Nodup) (h : l.Perm m) (k : κ) :
    m.lookup k = l.lookup k := by
  have nodup' : (m.map Prod.fst).Nodup := (h.map Prod.fst).nodup_iff.1 nodup
  cases e : l.lookup k with
  | some v => exact lookup_of_mem nodup' (h.mem_iff.1 (mem_of_lookup e))
  | none =>
    cases e' : m.lookup k with
    | none => rfl
    | some v =>
      rw [lookup_of_mem nodup (h.mem_iff.2 (mem_of_lookup e'))] at e
      cases e

theorem get?_eq_some_iff (d : Dict κ ν) (k : κ) (v : ν) :
    d.get? k = some v ↔ (k, v) ∈ d.entries :=
  ⟨mem_of_lookup, lookup_of_mem d.nodup⟩

theorem filterMap_values_set {β : Type*} (d : Dict κ ν) (k : κ) (v : ν) (g : ν → Option β)
    (h : g v = (d.get? k).bind g) : (d.set k v).values.filterMap g = d.values.filterMap g := by
  obtain ⟨entries, nodup⟩ := d
  simp only [values, set, get?] at h ⊢
  clear nodup
  induction entries with
  | nil => simpa [setEntries] using h
  | cons p l ih =>
    obtain ⟨k', v'⟩ := p
    rw [find_cons] at h
    by_cases hk : k = k'
    · rw [if_pos hk, Option.bind_some] at h
      rw [setEntries, if_pos hk.symm, List.map_cons, List.map_cons, List.filterMap_cons,
        List.filterMap_cons, h]
    · rw [if_neg hk] at h
      rw [setEntries, if_neg fun e => hk e.symm, List.map_cons, List.map_cons,
        List.filterMap_cons, List.filterMap_cons, ih h]

theorem mem_values_iff (d : Dict κ ν) (v : ν) : v ∈ d.values ↔ ∃ k, d.get? k = some v := by
  simp only [values, List.mem_map, get?_eq_some_iff]
  constructor
  · rintro ⟨⟨k, v'⟩, h, rfl⟩
    exact ⟨k, h⟩
  · rintro ⟨k, h⟩
    exact ⟨(k, v), h, rfl⟩

theorem mem_keys_iff (d : Dict κ ν) (k : κ) : k ∈ d.keys ↔ ∃ v, d.get? k = some v := by
  simp only [keys, List.mem_map, get?_eq_some_iff]
  constructor
  · rintro ⟨⟨k', v⟩, h, rfl⟩
    exact ⟨v, h⟩
  · rintro ⟨v, h⟩
    exact ⟨(k, v), h, rfl⟩

theorem get?_eq_none_iff (d : Dict κ ν) (k : κ) : d.get? k = none ↔ k ∉ d.keys := by
  rw [mem_keys_iff, Option.eq_none_iff_forall_ne_some, not_exists]

/-! ## Removing keys, and sums over the values -/

/-- `d.popitem(last=False)`, `n` times. -/
def dropOldest (d : Dict κ ν) (n : ℕ) : Dict κ ν where
  entries := d.entries.drop n
  nodup := by
    rw [List.map_drop]
    exact d.nodup.sublist (List.drop_sublist n _)

theorem isSome_get?_iff (d : Dict κ ν) (k : κ) : (d.get? k).isSome ↔ k ∈ d.keys := by
  rw [mem_keys_iff, Option.isSome_iff_exists]

/-- `d.pop(k, None)`. -/
def erase (d : Dict κ ν) (k : κ) : Dict κ ν where
  entries := d.entries.filter fun e => e.1 ≠ k
  nodup := d.nodup.sublist (List.filter_sublist.map Prod.fst)

@[simp] theorem get?_erase (d : Dict κ ν) (k k' : κ) :
    (d.erase k).get? k' = if k' = k then none else d.get? k' := by
  simp only [erase, get?, find]
  induction d.entries with
  | nil => simp
  | cons e l ih =>
    obtain ⟨k₁, v₁⟩ := e
    by_cases h : k₁ = k
    · rw [List.filter_cons_of_neg (by simp [h]), ih, lookup_cons_ite]
      split_ifs with h₁ h₂
      · rfl
      · exact absurd (h₂.trans h) h₁
      · rfl
    · rw [List.filter_cons_of_pos (by simp [h]), lookup_cons_ite, lookup_cons_ite, ih]
      split_ifs with h₁ h₂
      · exact absurd (h₁.symm.trans h₂) h
      · rfl
      · rfl
      · rfl

theorem get?_foldl_erase (l : List κ) (d : Dict κ ν) (k : κ) :
    (l.foldl erase d).get? k = if k ∈ l then none else d.get? k := by
  induction l generalizing d with
  | nil => rfl
  | cons k' l ih =>
    rw [List.foldl_cons, ih, get?_erase]
    by_cases later : k ∈ l
    · rw [if_pos later, if_pos (List.mem_cons_of_mem _ later)]
    · rw [if_neg later]
      simp only [List.mem_cons, later, or_false]

theorem length_erase_le (d : Dict κ ν) (k : κ) :
    (d.erase k).entries.length ≤ d.entries.length := List.length_filter_le _ _

theorem length_erase_lt {d : Dict κ ν} {k : κ} {v : ν} (h : d.get? k = some v) :
    (d.erase k).entries.length < d.entries.length := by
  refine List.length_filter_lt_length_iff_exists.2 ⟨(k, v), mem_of_lookup h, ?_⟩
  simp

theorem length_setEntries_le (k : κ) (v : ν) (l : List (κ × ν)) :
    (setEntries k v l).length ≤ l.length + 1 := by
  induction l with
  | nil => exact Nat.le_refl _
  | cons e l ih =>
    obtain ⟨k₁, v₁⟩ := e
    rw [setEntries]
    split_ifs
    · simp
    · simpa using ih

theorem length_set_le (d : Dict κ ν) (k : κ) (v : ν) :
    (d.set k v).entries.length ≤ d.entries.length + 1 := length_setEntries_le k v d.entries

theorem length_setEntries_of_mem {k : κ} (v : ν) {l : List (κ × ν)} (h : (l.lookup k).isSome) :
    (setEntries k v l).length = l.length := by
  have keys := congrArg List.length (map_fst_setEntries k v l)
  obtain ⟨w, found⟩ := Option.isSome_iff_exists.1 h
  rw [if_pos (List.mem_map.2 ⟨(k, w), mem_of_lookup found, rfl⟩)] at keys
  simpa using keys

theorem length_set_of_mem {d : Dict κ ν} {k : κ} (v : ν) (h : (d.get? k).isSome) :
    (d.set k v).entries.length = d.entries.length := length_setEntries_of_mem v h

theorem sum_values_set (d : Dict κ ν) (k : κ) (v : ν) (f : ν → ℕ) :
    ((d.set k v).values.map f).sum + ((d.get? k).map f).getD 0 = (d.values.map f).sum + f v := by
  simp only [values, set, get?, find]
  induction d.entries with
  | nil => simp [setEntries]
  | cons e l ih =>
    obtain ⟨k₁, v₁⟩ := e
    rw [setEntries, lookup_cons_ite]
    by_cases h : k₁ = k
    · subst h
      simp only [if_true, List.map_cons, List.sum_cons, Option.map_some, Option.getD_some]
      omega
    · rw [if_neg h, if_neg fun e => h e.symm]
      simp only [List.map_cons, List.sum_cons]
      omega

theorem sum_values_erase (d : Dict κ ν) (k : κ) (f : ν → ℕ) :
    ((d.erase k).values.map f).sum + ((d.get? k).map f).getD 0 = (d.values.map f).sum := by
  obtain ⟨entries, nodup⟩ := d
  simp only [values, erase, get?, find]
  induction entries with
  | nil => rfl
  | cons e l ih =>
    obtain ⟨k₁, v₁⟩ := e
    rw [List.map_cons, List.nodup_cons] at nodup
    rw [lookup_cons_ite]
    by_cases h : k₁ = k
    · subst h
      have absent : l.filter (fun e => e.1 ≠ k₁) = l := by
        refine List.filter_eq_self.2 fun e mem => ?_
        have : e.1 ≠ k₁ := fun same => nodup.1 (List.mem_map.2 ⟨e, mem, same⟩)
        simpa using this
      rw [List.filter_cons_of_neg (by simp), absent, if_pos rfl]
      simp only [List.map_cons, List.sum_cons, Option.map_some, Option.getD_some]
      omega
    · rw [List.filter_cons_of_pos (by simp [h]), if_neg fun e => h e.symm]
      have rest := ih nodup.2
      simp only [List.map_cons, List.sum_cons]
      omega

omit [DecidableEq κ] in
theorem length_values (d : Dict κ ν) : (d.values.map fun _ => 1).sum = d.entries.length := by
  rw [values, List.map_map]
  induction d.entries with
  | nil => rfl
  | cons e l ih => rw [List.map_cons, List.sum_cons, ih, List.length_cons, Function.comp, Nat.add_comm]

theorem length_set_of_none {d : Dict κ ν} {k : κ} (v : ν) (h : d.get? k = none) :
    (d.set k v).entries.length = d.entries.length + 1 := by
  have counted := sum_values_set d k v fun _ => 1
  rw [h, length_values, length_values] at counted
  exact counted

theorem length_erase_of_some {d : Dict κ ν} {k : κ} {v : ν} (h : d.get? k = some v) :
    (d.erase k).entries.length + 1 = d.entries.length := by
  have counted := sum_values_erase d k fun _ => 1
  rw [h, length_values, length_values] at counted
  exact counted

end Dict

end SimplicioFast