import SimplicioFast.Lib.Surrogates

/-!
# What is read of a written text

`loads` accepts every text that `dumps` writes by default, and `reread` is what it reads: the surrogate pairs in all
strings joined, and in each object the fields that the dictionary keeps (`loads_dumps_eq_reread`).  A value is stable
when the value that is read has the same text; an object whose keys hold no pairs is.
-/

namespace SimplicioFast

namespace Json

mutual

/-- The value that is read of the text of a value. -/
def reread : Json → Json
  | .str s => .str s.joinPairs
  | .arr vs => .arr (rereadItems vs)
  | .obj fs => .obj (dictFields (rereadFields fs))
  | .null => .null
  | .bool b => .bool b
  | .int n => .int n
  | .float d => .float d
  | .nonFinite k => .nonFinite k

/-- `reread` of every item. -/
def rereadItems : List Json → List Json
  | [] => []
  | v :: vs => reread v :: rereadItems vs

def rereadField : PyStr × Json → PyStr × Json
  | (k, v) => (k.joinPairs, reread v)

/-- `rereadField` of every field. -/
def rereadFields : List (PyStr × Json) → List (PyStr × Json)
  | [] => []
  | f :: fs => rereadField f :: rereadFields fs

end

theorem rereadFields_eq_map (fs : List (PyStr × Json)) : rereadFields fs = fs.map rereadField := by
  induction fs with
  | nil => rfl
  | cons f fs ih => rw [rereadFields, ih, List.map_cons]

theorem strReadsAs_joinPairs (s : PyStr) : StrReadsAs true s s.joinPairs := by
  intro n rest fuel
  have short := PyStr.length_joinPairs_le s
  rw [← flatMap_escapeChar_joinPairs]
  exact parseStrBody_escape s.joinPairs (.inr (PyStr.unpaired_joinPairs s)) n rest (by omega)

mutual

theorem readsAs_reread : (v : Json) → ReadsAs true v (reread v)
  | .null => .intro fun _ _ _ _ => rfl
  | .bool true => .intro fun _ _ _ _ => rfl
  | .bool false => .intro fun _ _ _ _ => rfl
  | .int i => readsBack_int i
  | .float d => readsBack_float d
  | .nonFinite .nan => .intro fun _ _ _ _ => rfl
  | .nonFinite .infinity => .intro fun _ _ _ _ => rfl
  | .nonFinite .negInfinity => .intro fun _ _ _ _ => rfl
  | .str s => readsAs_str (strReadsAs_joinPairs s)
  | .arr [] => .intro fun _ _ _ _ => rfl
  | .arr (v :: vs) => by
    refine .intro fun n rest _ fuel => ?_
    have items := readsAs_rereadItems v vs (readsAs_reread v) n rest
    simp only [write, List.length_cons, List.length_append] at fuel
    obtain ⟨c, t, e, -, close⟩ := write_eq_cons (a := true) v
    simp only [write, List.cons_append, List.append_assoc]
    rw [parseValue, if_neg (by decide), if_pos rfl, skipSpace_write, if_neg, items (by omega)]
    · rfl
    · rw [e, List.cons_append, List.head?_cons]
      exact fun h => close (Option.some.inj h)
  | .obj [] => .intro fun _ _ _ _ => rfl
  | .obj ((k, v) :: fs) => by
    refine .intro fun n rest _ fuel => ?_
    have fields := readsAs_rereadFields k v fs (readsAs_reread v) n rest
    simp only [write, List.length_cons, List.length_append] at fuel
    have start : skipSpace (writeField true (k, v) ++ (writeFields true fs ++ rest)) =
      writeField true (k, v) ++ (writeFields true fs ++ rest) := rfl
    simp only [write, List.cons_append, List.append_assoc]
    rw [parseValue, if_neg (by decide), if_neg (by decide), if_pos rfl, start, if_neg, fields (by omega)]
    · rfl
    · exact fun h => absurd (Option.some.inj h) (by decide)

theorem readsAs_rereadItems (v : Json) : (vs : List Json) → ReadsAs true v (reread v) →
    ∀ n rest, (write true v).length + (writeItems true vs).length ≤ n →
      parseItems n (write true v ++ (writeItems true vs ++ rest)) = some (reread v :: rereadItems vs, rest)
  | [], hv, n, rest, fuel => parseItems_last hv n rest (Nat.lt_of_succ_le fuel)
  | w :: ws, hv, n, rest, fuel => by
    have more := readsAs_rereadItems w ws (readsAs_reread w) (n - 1) rest
    simp only [writeItems, List.length_cons, List.length_append] at fuel
    obtain ⟨m, rfl⟩ : ∃ m, n = m + 1 := ⟨n - 1, by omega⟩
    simp only [writeItems, List.cons_append, List.append_assoc]
    exact parseItems_more hv m _ rest (by omega) (more (by omega))

theorem readsAs_rereadFields (k : PyStr) (v : Json) : (fs : List (PyStr × Json)) → ReadsAs true v (reread v) →
    ∀ n rest, (writeField true (k, v)).length + (writeFields true fs).length ≤ n →
      parseFields n (writeField true (k, v) ++ (writeFields true fs ++ rest)) =
        some (rereadField (k, v) :: rereadFields fs, rest)
  | [], hv, n, rest, fuel => by
    simp only [writeFields, List.length_cons, List.length_nil] at fuel
    obtain ⟨m, rfl⟩ : ∃ m, n = m + 1 := ⟨n - 1, by omega⟩
    exact parseFields_step (strReadsAs_joinPairs k) hv m _ (by omega) (stops_brace rest)
  | (l, w) :: fs, hv, n, rest, fuel => by
    have more := readsAs_rereadFields l w fs (readsAs_reread w) (n - 1) rest
    simp only [writeFields, List.length_cons, List.length_append] at fuel
    obtain ⟨m, rfl⟩ : ∃ m, n = m + 1 := ⟨n - 1, by omega⟩
    rw [Nat.add_sub_cancel] at more
    have head : skipSpace (writeField true (l, w) ++ (writeFields true fs ++ rest)) =
      writeField true (l, w) ++ (writeFields true fs ++ rest) := rfl
    simp only [writeFields, List.cons_append, List.append_assoc]
    rw [parseFields_step (strReadsAs_joinPairs k) hv m _ (by omega) (stops_comma _)]
    simp only [head, more (by omega)]
    rfl

end

theorem loads_dumps_eq_reread (v : Json) : loads (dumps true v) = some (reread (sortKeys v)) := by
  have value := readsAs_reread (sortKeys v) ((write true (sortKeys v)).length + 1) [] trivial (Nat.le_succ _)
  have start := skipSpace_write (a := true) (sortKeys v) []
  rw [List.append_nil] at value start
  rw [dumps, loads, start, value]
  rfl

theorem write_append_inj {v w : Json} {s t : PyStr} (hs : Stops s) (ht : Stops t)
    (same : write true v ++ s = write true w ++ t) : write true v = write true w ∧ s = t := by
  have first := readsAs_reread v ((write true v).length + (write true w).length) s hs (Nat.le_add_right _ _)
  have second := readsAs_reread w ((write true v).length + (write true w).length) t ht (Nat.le_add_left _ _)
  rw [same, second] at first
  have rest : t = s := (Prod.mk.inj (Option.some.inj first)).2
  subst rest
  exact ⟨List.append_cancel_right same, rfl⟩

theorem stops_writeItems (vs : List Json) : Stops (writeItems true vs) := by
  cases vs with
  | nil => exact stops_bracket []
  | cons v vs => exact stops_comma _

theorem map_write_of_writeItems_eq {vs ws : List Json} (same : writeItems true vs = writeItems true ws) :
    vs.map (write true) = ws.map (write true) := by
  induction vs generalizing ws with
  | nil =>
    cases ws with
    | nil => rfl
    | cons w ws => simp [writeItems] at same
  | cons v vs ih =>
    cases ws with
    | nil => simp [writeItems] at same
    | cons w ws =>
      obtain ⟨head, tail⟩ := write_append_inj (stops_writeItems vs) (stops_writeItems ws) (List.cons.inj same).2
      rw [List.map_cons, List.map_cons, head, ih tail]

theorem map_write_of_write_arr_eq {vs ws : List Json} (same : write true (.arr vs) = write true (.arr ws)) :
    vs.map (write true) = ws.map (write true) := by
  cases vs with
  | nil =>
    cases ws with
    | nil => rfl
    | cons w ws =>
      obtain ⟨c, t, e, -, close⟩ := write_eq_cons (a := true) w
      simp only [write, e, List.cons_append] at same
      exact absurd (List.cons.inj (List.cons.inj same).2).1.symm close
  | cons v vs =>
    cases ws with
    | nil =>
      obtain ⟨c, t, e, -, close⟩ := write_eq_cons (a := true) v
      simp only [write, e, List.cons_append] at same
      exact absurd (List.cons.inj (List.cons.inj same).2).1 close
    | cons w ws =>
      apply map_write_of_writeItems_eq
      rw [writeItems, writeItems]
      exact congrArg (.scalar ',' :: ·) (List.cons.inj same).2

theorem writeItems_of_map_write_eq {a : Bool} {vs ws : List Json} (same : vs.map (write a) = ws.map (write a)) :
    writeItems a vs = writeItems a ws := by
  induction vs generalizing ws with
  | nil =>
    cases List.map_eq_nil_iff.1 same.symm
    rfl
  | cons v vs ih =>
    cases ws with
    | nil => cases same
    | cons w ws =>
      obtain ⟨head, tail⟩ := List.cons.inj same
      rw [writeItems, writeItems, head, ih tail]

theorem write_arr_of_map_write_eq {a : Bool} {vs ws : List Json} (same : vs.map (write a) = ws.map (write a)) :
    write a (.arr vs) = write a (.arr ws) := by
  cases vs with
  | nil =>
    cases List.map_eq_nil_iff.1 same.symm
    rfl
  | cons v vs =>
    cases ws with
    | nil => cases same
    | cons w ws =>
      obtain ⟨head, tail⟩ := List.cons.inj same
      rw [write, write, head, writeItems_of_map_write_eq tail]

/-- The value that is read of the text of a value has the same text. -/
def Stable (v : Json) : Prop := dumps true (reread (sortKeys v)) = dumps true v

theorem reread_of_isFlat {v : Json} (flat : v.IsFlat) : reread (sortKeys v) = joinValues v := by
  cases v with
  | arr _ => cases flat
  | obj _ => cases flat
  | _ => rfl

theorem stable_of_isFlat {v : Json} (flat : v.IsFlat) : v.Stable := by
  rw [Stable, reread_of_isFlat flat, dumps_joinValues]

theorem forall_mem_dictFields {P : Json → Prop} {fs : List (PyStr × Json)} (h : ∀ f ∈ fs, P f.2) :
    ∀ f ∈ dictFields fs, P f.2 := by
  have entries (k : PyStr) (v : Json) (hv : P v) (d : List (PyStr × Json)) (values : ∀ f ∈ d, P f.2) :
      ∀ f ∈ Dict.setEntries k v d, P f.2 := by
    induction d with
    | nil => exact List.forall_mem_singleton.2 hv
    | cons g d ih =>
      obtain ⟨hg, values⟩ := List.forall_mem_cons.1 values
      rw [Dict.setEntries]
      split_ifs
      · exact List.forall_mem_cons.2 ⟨hv, values⟩
      · exact List.forall_mem_cons.2 ⟨hg, ih values⟩
  have kept (d : List (PyStr × Json)) (values : ∀ f ∈ d, P f.2) :
      ∀ f ∈ fs.foldl (fun d f => Dict.setEntries f.1 f.2 d) d, P f.2 := by
    induction fs generalizing d with
    | nil => exact values
    | cons f fs ih =>
      obtain ⟨hf, h⟩ := List.forall_mem_cons.1 h
      exact ih h _ (entries f.1 f.2 hf d values)
  exact kept [] fun _ mem => by cases mem

mutual

theorem isFinite_reread : (v : Json) → v.isFinite = true → (reread v).isFinite = true
  | .null, _ => rfl
  | .bool _, _ => rfl
  | .int _, _ => rfl
  | .float _, _ => rfl
  | .str _, _ => rfl
  | .arr vs, h => itemsFinite_rereadItems vs h
  | .obj fs, h =>
    fieldsFinite_iff.2 (forall_mem_dictFields (P := fun v => v.isFinite = true) (fieldsFinite_iff.1 (fieldsFinite_rereadFields fs h)))

theorem itemsFinite_rereadItems : (vs : List Json) → itemsFinite vs = true → itemsFinite (rereadItems vs) = true
  | [], _ => rfl
  | v :: vs, h => by
    rw [itemsFinite, Bool.and_eq_true] at h
    rw [rereadItems, itemsFinite, isFinite_reread v h.1, itemsFinite_rereadItems vs h.2]
    rfl

theorem fieldsFinite_rereadFields : (fs : List (PyStr × Json)) → fieldsFinite fs = true →
    fieldsFinite (rereadFields fs) = true
  | [], _ => rfl
  | (k, v) :: fs, h => by
    rw [fieldsFinite, Bool.and_eq_true] at h
    have value := isFinite_reread v h.1
    rw [rereadFields, rereadField, fieldsFinite, fieldFinite, value, fieldsFinite_rereadFields fs h.2]
    rfl

end

/-! ## Objects under plain keys -/

variable {fs gs : List (PyStr × Json)}

theorem dumps_congr {a : Bool} (same : List.Forall₂ (fun f g => f.1 = g.1 ∧ dumps a f.2 = dumps a g.2) fs gs) :
    dumps a (.obj fs) = dumps a (.obj gs) := by
  have behind (front : List (PyStr × Json)) : dumps a (.obj (front ++ fs)) = dumps a (.obj (front ++ gs)) := by
    induction same generalizing front with
    | nil => rfl
    | @cons f g fs gs head _ ih =>
      obtain ⟨k, v⟩ := f
      obtain ⟨l, w⟩ := g
      obtain ⟨rfl, text⟩ := head
      obtain ⟨start, stop, around⟩ := dumps_around a k front fs
      have exchanged : dumps a (.obj (front ++ (k, v) :: fs)) = dumps a (.obj (front ++ (k, w) :: fs)) := by
        rw [around v, around w]
        exact congrArg (fun t => start ++ (t ++ stop)) text
      have next := ih (front ++ [(k, w)])
      rw [List.append_assoc, List.append_assoc] at next
      exact exchanged.trans next
  exact behind []

theorem sortKeys_perm (nodup : (fs.map Prod.fst).Nodup) (perm : fs.Perm gs) : sortKeys (.obj fs) = sortKeys (.obj gs) := by
  have moved : (sortFields fs).Perm (sortFields gs) := by
    rw [sortFields_eq_map, sortFields_eq_map]
    exact perm.map sortField
  have keys : ((sortedFields fs).map Prod.fst).Nodup := by
    rw [((sortedFields_perm fs).map Prod.fst).nodup_iff, map_fst_sortFields]
    exact nodup
  have sorted : sortedFields fs = sortedFields gs := by
    refine List.Perm.eq_of_pairwise (fun f g hf hg le ge => ?_) (pairwise_sortedFields fs) (pairwise_sortedFields gs)
      ((sortedFields_perm fs).trans (moved.trans (sortedFields_perm gs).symm))
    have inside : g ∈ sortedFields fs :=
      ((sortedFields_perm fs).trans (moved.trans (sortedFields_perm gs).symm)).mem_iff.2 hg
    exact List.inj_on_of_nodup_map keys hf inside (le_antisymm le ge)
  rw [sortKeys_obj, sorted, ← sortKeys_obj]

theorem dumps_perm {a : Bool} (nodup : (fs.map Prod.fst).Nodup) (perm : fs.Perm gs) :
    dumps a (.obj fs) = dumps a (.obj gs) := by
  rw [dumps, sortKeys_perm nodup perm, dumps]

/-- What is read of a field with a plain key. -/
def readField (f : PyStr × Json) : PyStr × Json := (f.1, reread (sortKeys f.2))

theorem map_fst_readField (fs : List (PyStr × Json)) : (fs.map readField).map Prod.fst = fs.map Prod.fst := by
  rw [List.map_map]
  rfl

theorem exists_reread_obj (nodup : (fs.map Prod.fst).Nodup) (plain : ∀ k ∈ fs.map Prod.fst, k.Unpaired) :
    ∃ gs, reread (sortKeys (.obj fs)) = .obj gs ∧ gs.Perm (fs.map readField) := by
  have perm : (rereadFields (sortedFields fs)).Perm (fs.map readField) := by
    rw [rereadFields_eq_map]
    refine ((sortedFields_perm fs).map rereadField).trans (List.Perm.of_eq ?_)
    rw [sortFields_eq_map, List.map_map]
    refine List.map_congr_left fun f mem => ?_
    have key := PyStr.joinPairs_of_unpaired (plain _ (List.mem_map_of_mem mem))
    obtain ⟨k, v⟩ := f
    exact Prod.ext key rfl
  refine ⟨rereadFields (sortedFields fs), ?_, perm⟩
  rw [sortKeys_obj, reread, dictFields_of_nodup]
  rw [(perm.map Prod.fst).nodup_iff, map_fst_readField]
  exact nodup

theorem find_readField (fs : List (PyStr × Json)) (k : PyStr) :
    Dict.find (fs.map readField) k = (Dict.find fs k).map fun v => reread (sortKeys v) := by
  induction fs with
  | nil => rfl
  | cons f fs ih =>
    obtain ⟨l, v⟩ := f
    rw [List.map_cons, readField, Dict.find_cons, Dict.find_cons, ih]
    split_ifs <;> rfl

end Json

end SimplicioFast
