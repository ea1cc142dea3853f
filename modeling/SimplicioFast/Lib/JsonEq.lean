import SimplicioFast.Lib.JsonSame

/-!
# Values that equal their own copies

Python's `==` on a document and a copy of it whose keys are in another order holds exactly when the document has no
NaN, which is not equal to itself.
-/

namespace SimplicioFast

namespace Json

def notNan : Json → Bool
  | .nonFinite k => k ≠ .nan
  | _ => true

theorem eqNumber_int (n : ℤ) : eqNumber (.int n) (.int n) = true := by simp [eqNumber, number?]

theorem eqNumber_bool (b : Bool) : eqNumber (.bool b) (.bool b) = true := by simp [eqNumber, number?]

theorem eqNumber_float (d : Decimal) : eqNumber (.float d) (.float d) = true := by simp [eqNumber, number?]

theorem pyEqFields_eq_all (fs gs : List (PyStr × Json)) : pyEqFields fs gs = fs.all fun f => pyEqField f gs := by
  induction fs with
  | nil => rfl
  | cons f fs ih => rw [pyEqFields, ih, List.all_cons]

mutual

theorem pyEq_sortKeys : (v : Json) → v.DistinctKeys → pyEq (sortKeys v) v = v.allScalars notNan
  | .null, _ => rfl
  | .bool b, _ => eqNumber_bool b
  | .int n, _ => eqNumber_int n
  | .float d, _ => eqNumber_float d
  | .nonFinite k, _ => by
    show (decide (k = k) && decide (k ≠ .nan)) = _
    rw [decide_eq_true rfl, Bool.true_and]
    rfl
  | .str s, _ => decide_eq_true rfl
  | .arr vs, distinct => pyEqItems_sortItems vs distinct
  | .obj fs, distinct => by
    have fields := pyEqFields_sortFields fs fs distinct.2 fun f mem => Dict.lookup_of_mem distinct.1 mem
    have length : (sortedFields fs).length = fs.length :=
      (sortedFields_perm fs).length_eq.trans (length_sortFields fs)
    show (decide ((sortedFields fs).length = fs.length) && pyEqFields (sortedFields fs) fs) = fieldsScalars notNan fs
    rw [decide_eq_true length, Bool.true_and, ← fields, pyEqFields_eq_all, pyEqFields_eq_all]
    exact (sortedFields_perm fs).all_eq

theorem pyEqItems_sortItems : (vs : List Json) → DistinctItems vs → pyEqItems (sortItems vs) vs = itemsScalars notNan vs
  | [], _ => rfl
  | v :: vs, distinct => by
    show (pyEq (sortKeys v) v && pyEqItems (sortItems vs) vs) = _
    rw [pyEq_sortKeys v distinct.1, pyEqItems_sortItems vs distinct.2, itemsScalars]

theorem pyEqFields_sortFields : (fs gs : List (PyStr × Json)) → DistinctFields fs →
    (∀ f ∈ fs, Dict.find gs f.1 = some f.2) → pyEqFields (sortFields fs) gs = fieldsScalars notNan fs
  | [], _, _, _ => rfl
  | (k, v) :: fs, gs, distinct, found => by
    obtain ⟨first, rest⟩ := List.forall_mem_cons.1 found
    have same : pyEqField (k, sortKeys v) gs = pyEq (sortKeys v) v := by
      have first : Dict.find gs k = some v := first
      rw [pyEqField, first]
    show (pyEqField (k, sortKeys v) gs && pyEqFields (sortFields fs) gs) = _
    rw [same, pyEq_sortKeys v distinct.1, pyEqFields_sortFields fs gs distinct.2 rest]
    rfl

end

end Json

end SimplicioFast
