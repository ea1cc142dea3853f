import SimplicioFast.Deltas.Basic

/-!
# The composition of a base and a delta

The hashes of a base with the records of a delta of the whole worktree on top are the hashes of the sources
(`get?_composed_wholeChanges`), and the sources pass the comparison with composed hashes exactly when they have these
(`validateComposedSources_iff`).
-/

namespace SimplicioFast

namespace Deltas

variable {parse : PyStr → Bytes → Except DeltaRaised (List JsonObject)} {base : Base} {current : Dict PyStr Bytes}
  {changed changed' : Dict PyStr JsonObject} {relative p : PyStr} {record : JsonObject} {entries : List (PyStr × JsonObject)}

theorem requireAt_eq_ok_iff {condition : Bool} {reasonCode message : PyStr} {u : Unit} :
    requireAt condition reasonCode message = .ok u ↔ condition = true := by
  unfold requireAt
  cases condition with
  | true => exact iff_of_true rfl rfl
  | false => exact iff_of_false nofun nofun

theorem require_eq_ok_iff {condition : Bool} {reasonCode : PyStr} {u : Unit} :
    require condition reasonCode = .ok u ↔ condition = true :=
  requireAt_eq_ok_iff

/-! ## Composed hashes -/

/-- What a record says of the hash of its path. -/
def hashOf (record : JsonObject) : Option PyStr := if tombstone record then none else some (sha256 record)

theorem get?_composeRecord (hashes : Dict PyStr PyStr) (entry : PyStr × JsonObject) (p : PyStr) :
    (composeRecord hashes entry).get? p = if p = entry.1 then hashOf entry.2 else hashes.get? p := by
  unfold composeRecord hashOf
  cases tombstone entry.2 with
  | true => exact Dict.get?_erase _ _ _
  | false => exact Dict.get?_set _ _ _ _

theorem get?_foldl_composeRecord (nodup : (entries.map Prod.fst).Nodup) (hashes : Dict PyStr PyStr) (p : PyStr) :
    (entries.foldl composeRecord hashes).get? p = match Dict.find entries p with
      | some record => hashOf record
      | none => hashes.get? p := by
  induction entries generalizing hashes with
  | nil => rfl
  | cons entry entries ih =>
    obtain ⟨fresh, rest⟩ := List.nodup_cons.1 (List.map_cons ▸ nodup)
    rw [List.foldl_cons, ih rest, Dict.find_cons, get?_composeRecord]
    by_cases here : p = entry.1
    · have absent : Dict.find entries p = none := (Dict.get?_eq_none_iff ⟨entries, rest⟩ p).2 (here ▸ fresh)
      rw [if_pos here, if_pos here, absent]
    · rw [if_neg here, if_neg here]

theorem get?_composedSourceHashes (base : Base) (changed : Dict PyStr JsonObject) (p : PyStr) :
    (composedSourceHashes base changed).get? p = match changed.get? p with
      | some record => hashOf record
      | none => base.sourceHashes.get? p :=
  get?_foldl_composeRecord changed.nodup _ p

theorem get?_hashes (sources : Dict PyStr Bytes) (p : PyStr) : (hashes sources).get? p = (sources.get? p).map hashSource := by
  obtain ⟨l, nodup⟩ := sources
  show Dict.find (l.map fun e => (e.1, hashSource e.2)) p = (Dict.find l p).map hashSource
  clear nodup
  induction l with
  | nil => rfl
  | cons e l ih =>
    rw [List.map_cons, Dict.find_cons, Dict.find_cons, ih]
    split_ifs <;> rfl

/-! ## The records of a whole worktree -/

theorem get?_put (changed : Dict PyStr JsonObject) (relative : PyStr) (record : Option JsonObject) (p : PyStr) :
    (put changed relative record).get? p = if p = relative then record.or (changed.get? p) else changed.get? p := by
  cases record with
  | none => exact (ite_self _).symm
  | some record => exact Dict.get?_set _ _ _ _

theorem get?_foldlM_change {l : List PyStr} (ran : l.foldlM (change parse base current) changed = .ok changed') (p : PyStr) :
    (p ∈ l → ∃ record, recordOf parse base current p = .ok record ∧ changed'.get? p = record.or (changed.get? p)) ∧
      (p ∉ l → changed'.get? p = changed.get? p) := by
  induction l generalizing changed with
  | nil =>
    cases ran
    exact ⟨fun mem => absurd mem List.not_mem_nil, fun _ => rfl⟩
  | cons a l ih =>
    rw [List.foldlM_cons] at ran
    obtain ⟨middle, first, rest⟩ := bind_ok.1 ran
    obtain ⟨record, here, set⟩ := bind_ok.1 first
    cases set
    obtain ⟨inside, outside⟩ := ih rest
    rw [get?_put] at inside outside
    refine ⟨fun mem => ?_, fun absent => ?_⟩
    · by_cases later : p ∈ l
      · obtain ⟨record', again, found⟩ := inside later
        refine ⟨record', again, found.trans ?_⟩
        split_ifs with same
        · subst same
          cases here.symm.trans again
          cases record <;> rfl
        · rfl
      · have same : p = a := (List.mem_cons.1 mem).resolve_right later
        rw [if_pos same] at outside
        exact ⟨record, same ▸ here, outside later⟩
    · rw [List.mem_cons, not_or] at absent
      rw [outside absent.2, if_neg absent.1]

@[simp] theorem hashOf_tombstoneRecord : hashOf tombstoneRecord = none := by decide +kernel

theorem hashOf_changedRecord (digest : PyStr) (symbols : List JsonObject) : hashOf (changedRecord digest symbols) = some digest := rfl

/-- The changes of the whole worktree since the base. -/
def wholeChanges (parse : PyStr → Bytes → Except DeltaRaised (List JsonObject)) (base : Base) (current : Dict PyStr Bytes) :
    Except DeltaRaised (Dict PyStr JsonObject) :=
  (candidates base current none).foldlM (change parse base current) .empty

theorem notMem_candidates (absent : p ∉ candidates base current none) :
    current.get? p = none ∧ base.sourceHashes.get? p = none := by
  unfold candidates at absent
  rw [PyStr.mem_sortedSet, List.mem_append, not_or] at absent
  exact ⟨(Dict.get?_eq_none_iff _ _).2 absent.1, (Dict.get?_eq_none_iff _ _).2 absent.2⟩

theorem get?_wholeChanges (ran : wholeChanges parse base current = .ok changed) (p : PyStr) :
    (changed.get? p = none ∧ base.sourceHashes.get? p = (hashes current).get? p) ∨
      ∃ record, changed.get? p = some record ∧ hashOf record = (hashes current).get? p ∧
        base.sourceHashes.get? p ≠ (hashes current).get? p := by
  obtain ⟨inside, outside⟩ := get?_foldlM_change ran p
  rw [get?_hashes]
  by_cases mem : p ∈ candidates base current none
  · obtain ⟨record, here, found⟩ := inside mem
    rw [Dict.get?_empty, Option.or_none] at found
    unfold recordOf at here
    cases source : current.get? p with
    | none =>
      rw [source] at here
      cases old : base.sourceHashes.get? p with
      | none =>
        rw [old] at here
        cases here
        exact .inl ⟨found, rfl⟩
      | some digest =>
        rw [old] at here
        cases here
        exact .inr ⟨tombstoneRecord, found, hashOf_tombstoneRecord, nofun⟩
    | some contents =>
      rw [source] at here
      dsimp only at here
      split_ifs at here with same
      · cases here
        exact .inl ⟨found, same⟩
      · obtain ⟨symbols, -, made⟩ := bind_ok.1 here
        cases made
        exact .inr ⟨_, found, hashOf_changedRecord _ _, same⟩
  · obtain ⟨source, old⟩ := notMem_candidates mem
    rw [source, old]
    exact .inl ⟨outside mem, rfl⟩

theorem get?_composed_wholeChanges (ran : wholeChanges parse base current = .ok changed) (p : PyStr) :
    (composedSourceHashes base changed).get? p = (hashes current).get? p := by
  rw [get?_composedSourceHashes]
  rcases get?_wholeChanges ran p with ⟨absent, same⟩ | ⟨record, found, hash, -⟩
  · rw [absent]
    exact same
  · rw [found]
    exact hash

/-! ## The comparison -/

theorem checkPath_eq_ok_iff {current expected : Dict PyStr PyStr} {u : Unit} :
    checkPath current expected changed relative = .ok u ↔ current.get? relative = expected.get? relative := by
  unfold checkPath
  split_ifs with same absent
  · exact iff_of_true rfl same
  · exact iff_of_false (fun h => by cases h) same
  · exact iff_of_false (fun h => by cases h) same

theorem validateComposedSources_iff {tree : Worktree} {delta : Delta} {u : Unit} :
    validateComposedSources tree base delta none = .ok u ↔
      ∀ p, (hashes tree.sources).get? p = (composedSourceHashes base delta.changed).get? p := by
  show List.forM _ _ = _ ↔ _
  rw [Except.forM_eq_ok_iff]
  simp only [checkPath_eq_ok_iff]
  constructor
  · intro agree p
    by_cases mem : p ∈ (hashes tree.sources).keys ++ (composedSourceHashes base delta.changed).keys
    · exact agree p (PyStr.mem_sortedSet.2 mem)
    · rw [List.mem_append, not_or] at mem
      rw [(Dict.get?_eq_none_iff _ _).2 mem.1, (Dict.get?_eq_none_iff _ _).2 mem.2]
  · exact fun agree p _ => agree p

end Deltas

end SimplicioFast
