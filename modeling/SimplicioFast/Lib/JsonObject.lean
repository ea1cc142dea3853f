import SimplicioFast.Lib.JsonSame

/-!
# Dictionaries of JSON values

Setting a key of a dictionary, and taking it away.
-/

namespace SimplicioFast

theorem Json.distinctKeys_str (t : PyStr) : (Json.str t).DistinctKeys := trivial

theorem Json.distinctKeys_bool (b : Bool) : (Json.bool b).DistinctKeys := trivial

namespace JsonObject

/-- `d[k] = v`. -/
def set (m : JsonObject) (k : PyStr) (v : Json) (distinct : v.DistinctKeys) : JsonObject where
  fields := Dict.setEntries k v m.fields
  distinct := ⟨(Dict.set ⟨m.fields, m.distinct.1⟩ k v).nodup,
    Json.distinctFields_iff.2 (Json.distinct_setEntries v distinct (Json.distinctFields_iff.1 m.distinct.2))⟩

/-- `d.pop(k, None)`. -/
def erase (m : JsonObject) (k : PyStr) : JsonObject where
  fields := (Dict.erase ⟨m.fields, m.distinct.1⟩ k).entries
  distinct := ⟨(Dict.erase ⟨m.fields, m.distinct.1⟩ k).nodup, Json.distinctFields_iff.2 fun f mem =>
    Json.distinctFields_iff.1 m.distinct.2 f (List.mem_of_mem_filter mem)⟩

variable {m n : JsonObject} {k k' : PyStr} {v : Json}

@[simp] theorem get?_set (distinct : v.DistinctKeys) :
    (m.set k v distinct).get? k' = if k' = k then some v else m.get? k' := Dict.lookup_setEntries k k' v m.fields

@[simp] theorem get?_erase : (m.erase k).get? k' = if k' = k then none else m.get? k' :=
  Dict.get?_erase ⟨m.fields, m.distinct.1⟩ k k'

theorem erase_set_of_none (absent : m.get? k = none) (distinct : v.DistinctKeys) : (m.set k v distinct).erase k = m := by
  have notMem : k ∉ m.fields.map Prod.fst := (Dict.get?_eq_none_iff ⟨m.fields, m.distinct.1⟩ k).1 absent
  apply JsonObject.ext
  show (Dict.setEntries k v m.fields).filter (fun e => decide (e.1 ≠ k)) = m.fields
  rw [Dict.setEntries_of_notMem v notMem, List.filter_append, List.filter_eq_self.2, List.filter_cons_of_neg (by simp),
    List.filter_nil, List.append_nil]
  intro f mem
  exact decide_eq_true fun same => notMem (same ▸ List.mem_map_of_mem mem)

/-! ## Texts without pairs of surrogates -/

theorem unpaired_iff : m.toJson.Unpaired ↔ ∀ k v, m.get? k = some v → k.Unpaired ∧ v.Unpaired := by
  rw [toJson, Json.Unpaired, Json.fieldsUnpaired_iff]
  constructor
  · intro all k v found
    exact Json.fieldUnpaired_iff.1 (all (k, v) (Dict.mem_of_lookup found))
  · intro all f mem
    exact Json.fieldUnpaired_iff.2 (all f.1 f.2 (Dict.lookup_of_mem m.distinct.1 mem))

theorem unpaired_set (h : m.toJson.Unpaired) (distinct : v.DistinctKeys) (key : k.Unpaired) (value : v.Unpaired) :
    (m.set k v distinct).toJson.Unpaired := by
  refine unpaired_iff.2 fun k' v' found => ?_
  rw [get?_set] at found
  split at found
  · rename_i same
    cases found
    exact ⟨same ▸ key, value⟩
  · exact unpaired_iff.1 h k' v' found

end JsonObject

end SimplicioFast
