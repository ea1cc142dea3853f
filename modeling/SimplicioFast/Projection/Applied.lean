import SimplicioFast.Projection.Persist

/-!
# Atomic deltas

`apply_delta` installs the records and the generation of an accepted delta, and computes the digest
of its receipt from the records installed.  The digest fails when the text of the records is longer
than `_MAX_ENCODED_BYTES`, and when a budget is an int with more than 4300 digits: then the call
raises, and the store has changed. A delta is atomic exactly when it is refused, when the merged
records can be digested, or when the store holds them already (`applyDelta_atomic_iff`).
-/

namespace SimplicioFast

namespace Projection

namespace ProjectionStore

variable {s : ProjectionStore} {d : Delta} {e : ProjectionEnvelope}

/-- When the delta raises, the generation and the records are unchanged. -/
def Atomic (s : ProjectionStore) (d : Delta) : Prop :=
  ∀ raised, (s.applyDelta d).2 = .error raised →
    (s.applyDelta d).1.generation = s.generation ∧
      ∀ handle, (s.applyDelta d).1.records.get? handle = s.records.get? handle

/-! ## Accepted deltas -/

/-- What the store holds under a handle behind some changed records. -/
def held (s : ProjectionStore) (before : List ProjectionEnvelope) (handle : PyStr) :
    Option ProjectionEnvelope :=
  (last? before handle).or (s.records.get? handle)

/-- A changed record behind other ones has the generation of the delta and the repository of the
store, and the digest of the record that it replaces, but in a swap of generations. -/
structure Joins (s : ProjectionStore) (d : Delta) (before : List ProjectionEnvelope)
    (e : ProjectionEnvelope) :
    Prop where
  generation : e.generation = d.generation
  within : e.inScope s.repository = true
  same : s.swaps d = false → ∀ previous ∈ s.held before e.stableHandle, previous.payloadSha256 =
    e.payloadSha256

/-- What `apply_delta` accepts. -/
structure Accepted (s : ProjectionStore) (d : Delta) : Prop where
  generation : isText d.generation = true
  base : ∀ base ∈ d.baseGeneration, isText base = true
  changed : d.changed.length ≤ MAX_ITEMS
  deletedHandles : Sequence d.deletedHandles
  closureHandles : Sequence d.closureHandles
  swap : s.swaps d = true → d.baseGeneration = s.generation
  stay : s.swaps d = false → d.baseGeneration ≠ none → d.baseGeneration = s.generation
  apart : ∀ handle ∈ d.changedHandles, handle ∉ d.deleted
  each : ∀ before e behind, d.changed = before ++ e :: behind → s.Joins d before e

theorem putChanged_eq_ok_iff {records records' : Records s.repository} :
    s.putChanged d records e = .ok records' ↔
      ∃ within : e.inScope s.repository = true, e.generation = d.generation ∧
        (s.swaps d = false → ∀ previous ∈ records.get? e.stableHandle, previous.payloadSha256 =
        e.payloadSha256) ∧
        records' = records.put e within := by
  unfold putChanged
  by_cases current : e.generation = d.generation
  · rw [if_neg (not_not.2 current)]
    by_cases within : e.inScope s.repository = true
    · rw [dif_pos within]
      cases swap : s.swaps d with
      | true => simp [within, current, eq_comm]
      | false =>
        cases conflict : (records.get? e.stableHandle).any fun previous =>
            decide (previous.payloadSha256 ≠ e.payloadSha256) with
        | true =>
          rw [Bool.not_false, Bool.true_and, if_pos rfl]
          refine iff_of_false (fun h => by cases h) ?_
          rintro ⟨-, -, same, -⟩
          rw [any_ne_eq_false_iff.2 (same rfl)] at conflict
          cases conflict
        | false =>
          rw [Bool.not_false, Bool.true_and, if_neg Bool.false_ne_true]
          have same := any_ne_eq_false_iff.1 conflict
          exact ⟨fun h => ⟨within, current, fun _ => same, (Except.ok.inj h).symm⟩,
            by rintro ⟨_, _, _, h⟩; exact h ▸ rfl⟩
    · rw [dif_neg within]
      exact iff_of_false (fun h => by cases h) (by rintro ⟨h, -⟩; exact within h)
  · rw [if_pos current]
    exact iff_of_false (fun h => by cases h) (by rintro ⟨-, h, -⟩; exact current h)

theorem exists_foldlM_putChanged_iff {before changed : List ProjectionEnvelope}
    {records : Records s.repository}
    (sofar : ∀ handle, records.get? handle = s.held before handle) :
    (∃ records', changed.foldlM (s.putChanged d) records = .ok records') ↔
      ∀ middle e behind, changed = middle ++ e :: behind → s.Joins d (before ++ middle) e := by
  induction changed generalizing before records with
  | nil =>
    refine iff_of_true ⟨records, rfl⟩ fun middle e behind h => ?_
    exact absurd h (List.append_ne_nil_of_right_ne_nil _ (List.cons_ne_nil _ _)).symm
  | cons e changed ih =>
    have next (within : e.inScope s.repository = true) (handle : PyStr) :
        (records.put e within).get? handle = s.held (before ++ [e]) handle := by
      rw [Records.get?_put, sofar, held, held, last?, last?, List.reverse_append, List.find?_append,
        Option.or_assoc]
      by_cases here : handle = e.stableHandle
      · simp [here]
      · have other : e.stableHandle ≠ handle := fun same => here same.symm
        simp [here, other]
    constructor
    · rintro ⟨records', h⟩ middle e' behind split
      obtain ⟨put, first, rest⟩ := bind_ok.1 h
      obtain ⟨within, current, same, rfl⟩ := putChanged_eq_ok_iff.1 first
      cases middle with
      | nil =>
        obtain ⟨rfl, rfl⟩ := List.cons.inj split
        rw [List.append_nil]
        exact ⟨current, within, sofar e.stableHandle ▸ same⟩
      | cons e'' middle =>
        obtain ⟨rfl, tail⟩ := List.cons.inj split
        have joins := (ih (next within)).1 ⟨records', rest⟩ middle e' behind tail
        rwa [List.append_assoc] at joins
    · intro each
      have first := each [] e changed rfl
      rw [List.append_nil] at first
      have put := putChanged_eq_ok_iff.2
        ⟨first.within, first.generation, (sofar e.stableHandle).symm ▸ first.same, rfl⟩
      obtain ⟨records', rest⟩ := (ih (next first.within)).2 fun middle e' behind split => by
        have joins := each (e :: middle) e' behind (split ▸ rfl)
        rwa [List.append_assoc]
      exact ⟨records', bind_ok.2 ⟨_, put, rest⟩⟩

/-- The checks of `apply_delta` pass exactly on an accepted delta. -/
theorem exists_nextRecords_iff : (∃ records, s.nextRecords d = .ok records) ↔ s.Accepted d := by
  have start (handle : PyStr) : s.records.get? handle = s.held [] handle := rfl
  have loop : (∃ records', d.changed.foldlM (s.putChanged d) s.records = .ok records') ↔ _ :=
    exists_foldlM_putChanged_iff start
  constructor
  · rintro ⟨records, h⟩
    obtain ⟨_, generation, h⟩ := bind_ok.1 h
    obtain ⟨_, base, h⟩ := bind_ok.1 h
    obtain ⟨_, changed, h⟩ := bind_ok.1 h
    obtain ⟨_, deletedHandles, h⟩ := bind_ok.1 h
    obtain ⟨_, closureHandles, h⟩ := bind_ok.1 h
    obtain ⟨_, swap, h⟩ := bind_ok.1 h
    obtain ⟨_, stay, h⟩ := bind_ok.1 h
    obtain ⟨_, apart, h⟩ := bind_ok.1 h
    obtain ⟨put, folded, -⟩ := bind_ok.1 h
    rw [check_eq_ok_iff] at swap stay changed apart
    refine ⟨(validateText_eq_ok_iff.1 generation).2, fun text mem => ?_, of_decide_eq_true changed,
      (validateSequence_listOf_iff.1 deletedHandles).2,
      (validateSequence_listOf_iff.1 closureHandles).2,
      fun h => ?_, fun h => ?_, fun handle mem =>
        of_decide_eq_true (List.all_eq_true.1 apart handle mem),
      loop.1 ⟨put, folded⟩⟩
    · have each := Except.forM_eq_ok_iff.1 base text (Option.mem_toList.2 mem)
      obtain ⟨_, valid, -⟩ := bind_ok.1 each
      exact (validateText_eq_ok_iff.1 valid).2
    · simpa [h] using swap
    · intro given
      simpa [h, given] using stay
  · intro h
    obtain ⟨put, folded⟩ := loop.2 h.each
    refine ⟨d.deleted.foldl Records.pop put, ?_⟩
    refine bind_ok.2 ⟨_, validateText_eq_ok_iff.2 ⟨rfl, h.generation⟩, ?_⟩
    refine bind_ok.2 ⟨(), Except.forM_eq_ok_iff.2 fun text mem =>
      bind_ok.2
      ⟨_, validateText_eq_ok_iff.2 ⟨rfl, h.base text (Option.mem_toList.1 mem)⟩, rfl⟩, ?_⟩
    refine bind_ok.2 ⟨(), check_of (decide_eq_true h.changed), ?_⟩
    refine bind_ok.2 ⟨_, validateSequence_listOf_iff.2 ⟨rfl, h.deletedHandles⟩, ?_⟩
    refine bind_ok.2 ⟨_, validateSequence_listOf_iff.2 ⟨rfl, h.closureHandles⟩, ?_⟩
    refine bind_ok.2 ⟨(), check_of ?_, ?_⟩
    · cases swap : s.swaps d with
      | false => rfl
      | true => simp [h.swap swap]
    refine bind_ok.2 ⟨(), check_of ?_, ?_⟩
    · cases swap : s.swaps d with
      | true => rfl
      | false =>
        by_cases given : d.baseGeneration = none
        · simp [given]
        · simp [h.stay swap given]
    refine bind_ok.2 ⟨(), check_of ?_, ?_⟩
    · exact List.all_eq_true.2 fun handle mem => decide_eq_true (h.apart handle mem)
    exact bind_ok.2 ⟨put, folded, rfl⟩

/-! ## The merged records -/

/-- What the store holds under a handle behind the delta. -/
def merged (s : ProjectionStore) (d : Delta) (handle : PyStr) : Option ProjectionEnvelope :=
  if handle ∈ d.deleted then none else s.held d.changed handle

/-- The records behind the delta, in the order of their handles. -/
def mergedSnapshot (s : ProjectionStore) (d : Delta) : List Json :=
  (PyStr.sortedSet (s.records.dict.keys ++ d.changedHandles)).filterMap fun handle =>
    (s.merged d handle).map fun e => e.toDict

/-- `_digest` accepts the value. -/
def Digestible (v : Json) : Prop :=
  (v.isFinite = true ∧ v.shortInts = true) ∧ (v.dumps true).length ≤ MAX_ENCODED_BYTES

/-- The store holds the merged records already, and has the generation of the delta. -/
def Idle (s : ProjectionStore) (d : Delta) : Prop :=
  s.generation = some d.generation ∧ ∀ handle, s.merged d handle = s.records.get? handle

theorem exists_digest_iff {v : Json} : (∃ text, digest v = .ok text) ↔ Digestible v := by
  constructor
  · rintro ⟨text, h⟩
    obtain ⟨raw, written, -⟩ := bind_ok.1 h
    obtain ⟨plain, short, -⟩ := canonical_eq_ok_iff.1 written
    exact ⟨plain, short⟩
  · rintro ⟨plain, short⟩
    exact ⟨_, bind_ok.2 ⟨_, canonical_eq_ok_iff.2 ⟨plain, short, rfl⟩, rfl⟩⟩

theorem snapshot_eq_mergedSnapshot {records : Records s.repository}
    (h : s.nextRecords d = .ok records)
    {generation : Option PyStr} :
    snapshot { s with generation := generation, records := records } = s.mergedSnapshot d := by
  obtain ⟨-, -, kept⟩ := nextRecords_spec h
  have same (handle : PyStr) : records.get? handle = s.merged d handle := kept handle
  have covers {handle : PyStr} {e : ProjectionEnvelope} (here : s.merged d handle = some e) :
      handle ∈ s.records.dict.keys ++ d.changedHandles := by
    unfold merged at here
    split_ifs at here with deleted
    rcases Option.or_eq_some_iff.1 here with last | ⟨-, old⟩
    · exact List.mem_append_right _ (mem_changedHandles.2 ⟨e, mem_of_last? last⟩)
    · exact List.mem_append_left _ ((Dict.mem_keys_iff _ _).2 ⟨e, old⟩)
  have handles : ((PyStr.sortedSet (s.records.dict.keys ++ d.changedHandles)).filter fun handle =>
      (s.merged d handle).isSome) = handles { s with generation := generation, records :=
      records } := by
    have perm : ((PyStr.sortedSet (s.records.dict.keys ++ d.changedHandles)).filter fun handle =>
        (s.merged d handle).isSome).Perm
        (ProjectionStore.handles ⟨s.repository, s.isText_repository, generation, records⟩) := by
      refine (List.perm_ext_iff_of_nodup ?_ (nodup_handles _)).2 fun handle => ?_
      · exact ((List.perm_insertionSort _ _).nodup_iff.2 (List.nodup_dedup _)).filter _
      · rw [List.mem_filter, PyStr.mem_sortedSet, mem_handles, Option.isSome_iff_exists]
        show _ ↔ ∃ e, records.get? handle = some e
        rw [same]
        exact and_iff_right_of_imp fun ⟨e, here⟩ => covers here
    exact perm.eq_of_pairwise' ((List.pairwise_insertionSort _ _).filter _)
      (List.pairwise_insertionSort _ _)
  rw [snapshot_eq, ← handles, recordsOf, List.filterMap_filter, mergedSnapshot]
  congr 1
  funext handle
  show (if _ then (records.get? handle).map _ else none) = _
  rw [same]
  cases s.merged d handle <;> rfl

/-! ## When a delta is atomic -/

/-- The store behind an accepted delta. -/
def installed (s : ProjectionStore) (d : Delta) (records : Records s.repository) :
    ProjectionStore :=
  { s with generation := some d.generation, records := records }

theorem applyDelta_of_accepted (accepted : s.Accepted d) :
    ∃ records, s.applyDelta d = (s.installed d records, (s.installed d records).deltaReceipt d) ∧
      (∀ handle, records.get? handle = s.merged d handle) ∧
      ((∃ raised, (s.installed d records).deltaReceipt d = .error raised) ↔
        ¬ Digestible (.arr (s.mergedSnapshot d))) := by
  obtain ⟨records, next⟩ := exists_nextRecords_iff.2 accepted
  refine ⟨records, ?_, (nextRecords_spec next).2.2, ?_⟩
  · rw [applyDelta, next]
    rfl
  · rw [← exists_digest_iff, ← snapshot_eq_mergedSnapshot next]
    unfold deltaReceipt projectionDigest installed
    cases digest (.arr (ProjectionStore.snapshot
        { s with generation := some d.generation, records := records })) with
    | error raised => exact iff_of_true ⟨raised, rfl⟩ (by rintro ⟨text, h⟩; cases h)
    | ok text => exact iff_of_false (by rintro ⟨raised, h⟩; cases h) fun none => none ⟨text, rfl⟩

/-- A delta is atomic exactly when it is refused, when the merged records have a digest, or when it
changes nothing. -/
theorem applyDelta_atomic_iff (s : ProjectionStore) (d : Delta) :
    s.Atomic d ↔ (s.Accepted d → Digestible (.arr (s.mergedSnapshot d)) ∨ s.Idle d) := by
  unfold Atomic
  by_cases accepted : s.Accepted d
  · obtain ⟨records, applied, same, raises⟩ := applyDelta_of_accepted accepted
    have idle :
        (some d.generation = s.generation ∧ ∀ handle, records.get? handle = s.records.get? handle) ↔
        s.Idle d := by
      unfold Idle
      simp only [same, eq_comm]
    rw [applied]
    constructor
    · intro h _
      by_cases fits : Digestible (.arr (s.mergedSnapshot d))
      · exact .inl fits
      · obtain ⟨raised, failed⟩ := raises.2 fits
        exact .inr (idle.1 (h raised failed))
    · intro h raised failed
      rcases h accepted with fits | unchanged
      · exact absurd fits (raises.1 ⟨raised, failed⟩)
      · exact idle.2 unchanged
  · refine iff_of_true (fun _ _ => ?_) fun h => absurd h accepted
    have refused : ∀ records, s.nextRecords d ≠ .ok records :=
      fun records h => accepted (exists_nextRecords_iff.1 ⟨records, h⟩)
    cases next : s.nextRecords d with
    | ok records => exact absurd next (refused records)
    | error raised =>
      rw [applyDelta, next]
      exact ⟨rfl, fun _ => rfl⟩

def largeEnvelope : ProjectionEnvelope where
  toFields :=
    { smallFields with configFingerprint := List.replicate MAX_ENCODED_BYTES (.scalar 'x') }
  valid := smallEnvelope.valid

def largeDelta : Delta := { generation := "g", changed := [largeEnvelope] }

theorem last?_largeDelta : last? largeDelta.changed "h" = some largeEnvelope := rfl

theorem accepted_largeDelta : (new "r" (by decide)).Accepted largeDelta := by
  have none : Sequence [] := ⟨Nat.zero_le _, fun _ mem => (nomatch mem)⟩
  refine ⟨by decide, fun base mem => (nomatch mem), by decide, none, none, fun h => (nomatch h),
    fun _ given => absurd rfl given, fun handle _ => ?_, fun before e behind split => ?_⟩
  · rw [Delta.deleted, PyStr.mem_sortedSet]
    exact List.not_mem_nil
  · cases before with
    | nil =>
      obtain ⟨rfl, -⟩ := List.cons.inj split
      exact ⟨rfl, rfl, fun _ previous mem => (nomatch mem)⟩
    | cons e' before =>
      obtain ⟨-, tail⟩ := List.cons.inj split
      exact absurd tail.symm (List.append_ne_nil_of_right_ne_nil _ (List.cons_ne_nil _ _))

theorem not_digestible_largeDelta :
    ¬ Digestible (.arr ((new "r" (by decide)).mergedSnapshot largeDelta)) := by
  rintro ⟨-, short⟩
  have apart : ("h" : PyStr) ∉ largeDelta.deleted := by
    rw [Delta.deleted, PyStr.mem_sortedSet]
    exact List.not_mem_nil
  have mem : largeEnvelope.toDict ∈ (new "r" (by decide)).mergedSnapshot largeDelta := by
    refine List.mem_filterMap.2 ⟨"h", ?_, ?_⟩
    · rw [PyStr.mem_sortedSet]
      exact List.mem_append_right _ (mem_changedHandles.2 ⟨_, List.mem_singleton_self _, rfl⟩)
    · rw [merged, if_neg apart, held, last?_largeDelta]
      rfl
  have field :
      ((("config_fingerprint" : PyStr), Json.str (List.replicate MAX_ENCODED_BYTES (.scalar 'x'))))
      ∈
      largeEnvelope.items := List.mem_of_getElem? (i := 16) rfl
  have inside := (Json.length_dumps_le_of_mem_fields true field).trans
    ((Json.length_dumps_le_of_mem true mem).trans short)
  have long := Json.length_le_flatMap_escapeChar (a := true)
      (List.replicate MAX_ENCODED_BYTES (PyChar.scalar 'x'))
  rw [List.length_replicate] at long
  rw [Json.dumps, Json.sortKeys, Json.write, Json.writeStr, List.length_cons, List.length_append,
    List.length_singleton] at inside
  omega

/-- The empty store takes the large envelope, and raises when it computes the digest of the receipt.
-/
theorem not_atomic_largeDelta : ¬ (new "r" (by decide)).Atomic largeDelta := by
  obtain ⟨records, applied, -, raises⟩ := applyDelta_of_accepted accepted_largeDelta
  obtain ⟨raised, failed⟩ := raises.2 not_digestible_largeDelta
  intro atomic
  have unchanged := (atomic raised (by rw [applied]; exact failed)).1
  rw [applied] at unchanged
  cases unchanged

end ProjectionStore

end Projection

end SimplicioFast
