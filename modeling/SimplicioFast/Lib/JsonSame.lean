import SimplicioFast.Lib.JsonBytes

/-!
# Values up to the order of their keys

Two values are the same document when they are equal but for the order of the keys in their objects.  What is read of a
written value holds no surrogate pairs, and reading it again gives the same document.
-/

namespace SimplicioFast

namespace Json

variable {v w x : Json} {fs gs : List (PyStr × Json)}

/-! ## The scalars of a value -/

mutual

/-- Whether a predicate holds of everything in the value that is no array and no object. -/
def allScalars (p : Json → Bool) : Json → Bool
  | .arr vs => itemsScalars p vs
  | .obj fs => fieldsScalars p fs
  | v => p v

/-- `allScalars` of every item. -/
def itemsScalars (p : Json → Bool) : List Json → Bool
  | [] => true
  | v :: vs => allScalars p v && itemsScalars p vs

/-- `allScalars` of the value of a field. -/
def fieldScalars (p : Json → Bool) : PyStr × Json → Bool
  | (_, v) => allScalars p v

/-- `allScalars` of the value of every field. -/
def fieldsScalars (p : Json → Bool) : List (PyStr × Json) → Bool
  | [] => true
  | f :: fs => fieldScalars p f && fieldsScalars p fs

end

variable {p : Json → Bool}

theorem fieldsScalars_eq_all (fs : List (PyStr × Json)) :
    fieldsScalars p fs = fs.all fun f => allScalars p f.2 := by
  induction fs with
  | nil => rfl
  | cons f fs ih =>
    obtain ⟨k, v⟩ := f
    rw [fieldsScalars, ih, List.all_cons, fieldScalars]

mutual

theorem allScalars_sortKeys : (v : Json) → allScalars p (sortKeys v) = allScalars p v
  | .null => rfl
  | .bool _ => rfl
  | .int _ => rfl
  | .float _ => rfl
  | .nonFinite _ => rfl
  | .str _ => rfl
  | .arr vs => itemsScalars_sortItems vs
  | .obj fs => by
    show fieldsScalars p (sortedFields fs) = fieldsScalars p fs
    rw [← fieldsScalars_sortFields fs, fieldsScalars_eq_all, fieldsScalars_eq_all]
    exact (sortedFields_perm fs).all_eq

theorem itemsScalars_sortItems : (vs : List Json) → itemsScalars p (sortItems vs) = itemsScalars p vs
  | [] => rfl
  | v :: vs => by rw [sortItems, itemsScalars, itemsScalars, allScalars_sortKeys v, itemsScalars_sortItems vs]

theorem fieldsScalars_sortFields : (fs : List (PyStr × Json)) → fieldsScalars p (sortFields fs) = fieldsScalars p fs
  | [] => rfl
  | (k, v) :: fs => by
    rw [sortFields, sortField, fieldsScalars, fieldsScalars, fieldScalars, fieldScalars, allScalars_sortKeys v,
      fieldsScalars_sortFields fs]

end

mutual

theorem allScalars_reread (texts : ∀ s, p (.str s) = true → p (.str s.joinPairs) = true) :
    (v : Json) → allScalars p v = true → allScalars p (reread v) = true
  | .null, h => h
  | .bool _, h => h
  | .int _, h => h
  | .float _, h => h
  | .nonFinite _, h => h
  | .str s, h => texts s h
  | .arr vs, h => itemsScalars_rereadItems texts vs h
  | .obj fs, h => by
    have inside := fieldsScalars_rereadFields texts fs h
    rw [fieldsScalars_eq_all, List.all_eq_true] at inside
    show fieldsScalars p (dictFields (rereadFields fs)) = true
    rw [fieldsScalars_eq_all, List.all_eq_true]
    exact forall_mem_dictFields (P := fun v => allScalars p v = true) inside

theorem itemsScalars_rereadItems (texts : ∀ s, p (.str s) = true → p (.str s.joinPairs) = true) :
    (vs : List Json) → itemsScalars p vs = true → itemsScalars p (rereadItems vs) = true
  | [], _ => rfl
  | v :: vs, h => by
    rw [itemsScalars, Bool.and_eq_true] at h
    rw [rereadItems, itemsScalars, allScalars_reread texts v h.1, itemsScalars_rereadItems texts vs h.2]
    rfl

theorem fieldsScalars_rereadFields (texts : ∀ s, p (.str s) = true → p (.str s.joinPairs) = true) :
    (fs : List (PyStr × Json)) → fieldsScalars p fs = true → fieldsScalars p (rereadFields fs) = true
  | [], _ => rfl
  | (k, v) :: fs, h => by
    rw [fieldsScalars, Bool.and_eq_true] at h
    have value := allScalars_reread texts v h.1
    rw [rereadFields, rereadField, fieldsScalars, fieldScalars, value, fieldsScalars_rereadFields texts fs h.2]
    rfl

end

/-! ## The same document -/

/-- The values are equal but for the order of the keys. -/
def Same (v w : Json) : Prop := sortKeys v = sortKeys w

theorem Same.refl (v : Json) : Same v v := rfl

theorem same_sortKeys (v : Json) : Same (sortKeys v) v := sortKeys_sortKeys v

theorem Same.dumps_eq (same : Same v w) (a : Bool) : dumps a v = dumps a w := congrArg (write a) same

theorem Same.map_get?_eq (same : Same v w) (hv : v.DistinctKeys) (hw : w.DistinctKeys) (k : PyStr) :
    (v.get? k).map sortKeys = (w.get? k).map sortKeys := by
  rw [← get?_sortKeys hv, same, get?_sortKeys hw]

theorem same_obj_of_forall (hf : (fs.map Prod.fst).Nodup) (hg : (gs.map Prod.fst).Nodup)
    (h : ∀ k, (Dict.find fs k).map sortKeys = (Dict.find gs k).map sortKeys) : Same (.obj fs) (.obj gs) := by
  have hf' : ((sortFields fs).map Prod.fst).Nodup := by rwa [map_fst_sortFields]
  have hg' : ((sortFields gs).map Prod.fst).Nodup := by rwa [map_fst_sortFields]
  have perm : (sortFields fs).Perm (sortFields gs) := by
    refine (List.perm_ext_iff_of_nodup (List.Nodup.of_map _ hf') (List.Nodup.of_map _ hg')).2 fun f => ?_
    have inside {es : List (PyStr × Json)} (he : ((sortFields es).map Prod.fst).Nodup) :
        f ∈ sortFields es ↔ (Dict.find es f.1).map sortKeys = some f.2 := by
      rw [← find_sortFields]
      exact ⟨fun mem => Dict.lookup_of_mem he mem, fun found => Dict.mem_of_lookup found⟩
    rw [inside hf', inside hg', h]
  have keys : ((sortedFields fs).map Prod.fst).Nodup := by
    rwa [((sortedFields_perm fs).map Prod.fst).nodup_iff]
  have moved := (sortedFields_perm fs).trans (perm.trans (sortedFields_perm gs).symm)
  have sorted : sortedFields fs = sortedFields gs := by
    refine List.Perm.eq_of_pairwise (fun f g mem mem' le ge => ?_) (pairwise_sortedFields fs) (pairwise_sortedFields gs)
      moved
    exact List.inj_on_of_nodup_map keys mem (moved.mem_iff.2 mem') (le_antisymm le ge)
  show sortKeys (.obj fs) = sortKeys (.obj gs)
  rw [sortKeys_obj, sorted, ← sortKeys_obj]

/-! ## What is read -/

theorem fieldUnpaired_iff {f : PyStr × Json} : FieldUnpaired f ↔ f.1.Unpaired ∧ Unpaired f.2 := by
  obtain ⟨k, v⟩ := f
  exact Iff.rfl

theorem fst_mem_of_mem_dictFields : ∀ f ∈ dictFields fs, f.1 ∈ fs.map Prod.fst := by
  have kept (d : List (PyStr × Json)) : ∀ f ∈ fs.foldl (fun d f => Dict.setEntries f.1 f.2 d) d,
      f.1 ∈ d.map Prod.fst ∨ f.1 ∈ fs.map Prod.fst := by
    induction fs generalizing d with
    | nil => exact fun f mem => .inl (List.mem_map_of_mem mem)
    | cons g fs ih =>
      intro f mem
      rw [List.map_cons, List.mem_cons]
      rcases ih _ f mem with old | new
      · rw [Dict.map_fst_setEntries] at old
        split_ifs at old with there
        · exact .inl old
        · rcases List.mem_append.1 old with old | new
          · exact .inl old
          · exact .inr (.inl (List.mem_singleton.1 new))
      · exact .inr (.inr new)
  intro f mem
  rcases kept [] f mem with none | inside
  · cases none
  · exact inside

mutual

theorem unpaired_reread : (v : Json) → Unpaired (reread v)
  | .null => trivial
  | .bool _ => trivial
  | .int _ => trivial
  | .float _ => trivial
  | .nonFinite _ => trivial
  | .str s => PyStr.unpaired_joinPairs s
  | .arr vs => itemsUnpaired_rereadItems vs
  | .obj fs => by
    have inside := fieldsUnpaired_iff.1 (fieldsUnpaired_rereadFields fs)
    refine fieldsUnpaired_iff.2 fun f mem => ?_
    obtain ⟨g, among, same⟩ := List.mem_map.1 (fst_mem_of_mem_dictFields f mem)
    have key : f.1.Unpaired := same ▸ (fieldUnpaired_iff.1 (inside g among)).1
    have values := forall_mem_dictFields (P := Unpaired) fun g among => (fieldUnpaired_iff.1 (inside g among)).2
    exact fieldUnpaired_iff.2 ⟨key, values f mem⟩

theorem itemsUnpaired_rereadItems : (vs : List Json) → ItemsUnpaired (rereadItems vs)
  | [] => trivial
  | v :: vs => ⟨unpaired_reread v, itemsUnpaired_rereadItems vs⟩

theorem fieldsUnpaired_rereadFields : (fs : List (PyStr × Json)) → FieldsUnpaired (rereadFields fs)
  | [] => trivial
  | (k, v) :: fs => ⟨⟨PyStr.unpaired_joinPairs k, unpaired_reread v⟩, fieldsUnpaired_rereadFields fs⟩

end

/-- A value as `json.loads` returns it: with distinct keys, without surrogate pairs, and with good scalars. -/
structure Loaded (p : Json → Bool) (v : Json) : Prop where
  distinct : v.DistinctKeys
  unpaired : v.Unpaired
  scalars : v.allScalars p = true

end Json

end SimplicioFast
