import SimplicioFast.Lib.Dict
import SimplicioFast.Lib.Text

/-!
# Rows of fields

A row is a text of fields `key=value` with bars between them.  Reading the fields of a written row gives them back when
no bar stands in a key or a value and no equality sign in a key (`parse_join`).
-/

namespace SimplicioFast

namespace PyStr

variable {c : PyChar} {sep body key value s : PyStr}

/-- `s.rsplit(sep, 1)`, where it gives two parts. -/
def rsplit? (sep : PyStr) : PyStr → Option (PyStr × PyStr)
  | [] => none
  | c :: s =>
    match rsplit? sep s with
    | some (before, after) => some (c :: before, after)
    | none => if sep.isPrefixOf (c :: s) then some ([], (c :: s).drop sep.length) else none

/-- `s.split(sep, 1)` of one character, where it gives two parts. -/
def splitFirst? (sep : PyChar) (s : PyStr) : Option (PyStr × PyStr) :=
  if sep ∈ s then some (s.takeWhile (· ≠ sep), (s.dropWhile (· ≠ sep)).tail) else none

theorem rsplit?_eq_none (absent : c ∉ s) : rsplit? (c :: sep) s = none := by
  induction s with
  | nil => rfl
  | cons d s ih =>
    rw [List.mem_cons, not_or] at absent
    rw [rsplit?, ih absent.2]
    have other : List.isPrefixOf (c :: sep) (d :: s) = false := by
      rw [List.isPrefixOf, beq_false_of_ne absent.1]
      rfl
    dsimp only
    rw [other]
    rfl

theorem eq_of_rsplit? {before after : PyStr} (h : rsplit? sep s = some (before, after)) :
    s = before ++ (sep ++ after) := by
  induction s generalizing before with
  | nil => cases h
  | cons d s ih =>
    unfold rsplit? at h
    cases rest : rsplit? sep s with
    | some parts =>
      rw [rest] at h
      cases h
      rw [ih rest, List.cons_append]
    | none =>
      rw [rest] at h
      dsimp only at h
      split at h
      · next here =>
        cases h
        obtain ⟨tail, same⟩ := List.isPrefixOf_iff_prefix.1 here
        rw [← same, List.drop_left, List.nil_append]
      · cases h

theorem rsplit?_append (inside : c ∉ sep) (behind : c ∉ value) :
    rsplit? (c :: sep) (body ++ c :: (sep ++ value)) = some (body, value) := by
  induction body with
  | nil =>
    have rest : c ∉ sep ++ value := by
      rw [List.mem_append, not_or]
      exact ⟨inside, behind⟩
    have first : List.isPrefixOf (c :: sep) (c :: (sep ++ value)) = true := by
      rw [List.isPrefixOf_iff_prefix]
      exact ⟨value, rfl⟩
    rw [List.nil_append, rsplit?, rsplit?_eq_none rest]
    dsimp only
    rw [if_pos first, List.length_cons, List.drop_succ_cons, List.drop_left]
  | cons d body ih => rw [List.cons_append, rsplit?, ih]

theorem splitFirst?_append (absent : c ∉ key) : splitFirst? c (key ++ c :: value) = some (key, value) := by
  have here : ∀ d ∈ key, decide (d ≠ c) = true := fun d mem => decide_eq_true fun same => absurd (same ▸ mem) absent
  unfold splitFirst?
  rw [if_pos (List.mem_append_right _ List.mem_cons_self), List.takeWhile_append_of_pos here,
    List.dropWhile_append_of_pos here]
  simp

/-- The fields `key=value` with bars between them. -/
def joinFields (fields : List (PyStr × PyStr)) : PyStr :=
  List.intercalate [.scalar '|'] (fields.map fun f => f.1 ++ .scalar '=' :: f.2)

/-- The fields of a row; the last one of each key counts. -/
def parseFields (s : PyStr) : Dict PyStr PyStr :=
  ((s.splitOn (.scalar '|')).filterMap (splitFirst? (.scalar '='))).foldl (fun d f => d.set f.1 f.2) .empty

/-- No bar stands in the field and no equality sign in its key. -/
def IsField (f : PyStr × PyStr) : Prop := .scalar '|' ∉ f.1 ∧ .scalar '|' ∉ f.2 ∧ .scalar '=' ∉ f.1

instance (f : PyStr × PyStr) : Decidable (IsField f) := by
  unfold IsField
  infer_instance

theorem parseFields_joinFields {fields : List (PyStr × PyStr)} (some_ : fields ≠ [])
    (plain : ∀ f ∈ fields, IsField f) :
    parseFields (joinFields fields) = fields.foldl (fun d f => d.set f.1 f.2) .empty := by
  have parts : (joinFields fields).splitOn (.scalar '|') = fields.map fun f => f.1 ++ .scalar '=' :: f.2 := by
    apply List.splitOn_intercalate
    · intro part mem bar
      obtain ⟨f, inside, rfl⟩ := List.mem_map.1 mem
      obtain ⟨key, value, -⟩ := plain f inside
      rcases List.mem_append.1 bar with bar | bar
      · exact key bar
      · rcases List.mem_cons.1 bar with same | bar
        · cases same
        · exact value bar
    · intro empty
      exact some_ (List.map_eq_nil_iff.1 empty)
  unfold parseFields
  rw [parts, List.filterMap_map]
  congr 1
  calc fields.filterMap _ = fields.filterMap some := by
        apply List.filterMap_congr
        intro f mem
        exact splitFirst?_append (plain f mem).2.2
    _ = fields := List.filterMap_some

theorem joinFields_append {fields : List (PyStr × PyStr)} (some_ : fields ≠ []) :
    joinFields (fields ++ [(key, value)]) = joinFields fields ++ .scalar '|' :: (key ++ .scalar '=' :: value) := by
  induction fields with
  | nil => exact absurd rfl some_
  | cons f fields ih =>
    cases fields with
    | nil => simp [joinFields, List.intercalate]
    | cons g fields =>
      have rest := ih (List.cons_ne_nil _ _)
      unfold joinFields at rest ⊢
      rw [List.cons_append, List.cons_append, List.map_cons, List.map_cons, List.intercalate_cons_cons]
      rw [List.cons_append, List.map_cons] at rest
      rw [rest]
      simp only [List.map_cons, List.intercalate_cons_cons, List.append_assoc]

theorem forall_mem_joinFields_iff {P : PyChar → Prop} (bar : P (.scalar '|')) (equal : P (.scalar '='))
    {fields : List (PyStr × PyStr)} :
    (∀ c ∈ joinFields fields, P c) ↔ ∀ f ∈ fields, (∀ c ∈ f.1, P c) ∧ ∀ c ∈ f.2, P c := by
  have one (f : PyStr × PyStr) : (∀ c ∈ f.1 ++ .scalar '=' :: f.2, P c) ↔ (∀ c ∈ f.1, P c) ∧ ∀ c ∈ f.2, P c := by
    rw [List.forall_mem_append, List.forall_mem_cons, and_iff_right equal]
  induction fields with
  | nil => exact iff_of_true nofun nofun
  | cons f fields ih =>
    rw [List.forall_mem_cons]
    refine Iff.trans ?_ (and_congr (one f) ih)
    cases fields with
    | nil =>
      show (∀ c ∈ joinFields [f], P c) ↔ _
      rw [show joinFields [f] = f.1 ++ .scalar '=' :: f.2 from List.intercalate_singleton]
      exact ⟨fun h => ⟨h, nofun⟩, fun h => h.1⟩
    | cons g fields =>
      have split : joinFields (f :: g :: fields) =
          f.1 ++ .scalar '=' :: f.2 ++ [.scalar '|'] ++ joinFields (g :: fields) := List.intercalate_cons_cons
      rw [split, List.forall_mem_append, List.forall_mem_append, List.forall_mem_singleton, and_iff_left bar]

theorem notMem_of_mem_splitOn {part : PyStr} (mem : part ∈ s.splitOn c) : c ∉ part := by
  induction s generalizing part with
  | nil =>
    rw [List.splitOn_nil, List.mem_singleton] at mem
    subst mem
    exact List.not_mem_nil
  | cons d s ih =>
    rw [List.splitOn_cons_eq_if_modifyHead] at mem
    split_ifs at mem with same
    · rcases List.mem_cons.1 mem with rfl | mem
      · exact List.not_mem_nil
      · exact ih mem
    · have other : c ≠ d := fun equal => same (beq_iff_eq.2 equal.symm)
      cases parts : s.splitOn c with
      | nil => exact absurd parts (List.splitOn_ne_nil c s)
      | cons head rest =>
        rw [parts] at mem ih
        rcases List.mem_cons.1 mem with rfl | mem
        · rw [List.mem_cons, not_or]
          exact ⟨other, ih List.mem_cons_self⟩
        · exact ih (List.mem_cons_of_mem _ mem)

theorem mem_of_get?_foldl_set {fields : List (PyStr × PyStr)} {d : Dict PyStr PyStr}
    (found : (fields.foldl (fun d f => d.set f.1 f.2) d).get? key = some value) :
    (key, value) ∈ fields ∨ d.get? key = some value := by
  induction fields generalizing d with
  | nil => exact .inr found
  | cons f fields ih =>
    rcases ih found with mem | before
    · exact .inl (List.mem_cons_of_mem _ mem)
    · rw [Dict.get?_set] at before
      split_ifs at before with same
      · obtain rfl := Option.some.inj before
        subst same
        exact .inl List.mem_cons_self
      · exact .inr before

theorem notMem_of_parseFields (found : (parseFields s).get? key = some value) : .scalar '|' ∉ value := by
  rcases mem_of_get?_foldl_set found with mem | empty
  · obtain ⟨part, inside, split⟩ := List.mem_filterMap.1 mem
    unfold splitFirst? at split
    split_ifs at split
    intro bar
    obtain ⟨-, rfl⟩ := Prod.mk.inj (Option.some.inj split)
    exact notMem_of_mem_splitOn inside ((List.dropWhile_sublist _).mem (List.mem_of_mem_tail bar))
  · cases empty

end PyStr

end SimplicioFast
