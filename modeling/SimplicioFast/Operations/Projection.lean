import Mathlib.Data.Finset.Sort
import SimplicioFast.Lib.Json
import SimplicioFast.Lib.Machine

/-!
# The projection of operational receipts

`OperationsProjection` keeps the last receipt of every handle.  `ingest` applies the receipts of a batch one by one and
computes the causal gaps when the batch is through.  A receipt that is refused ends the batch where it stands, so the
batch is atomic, and the gaps are those of the receipts, exactly when nothing was applied before it
(`atomic_and_current_iff`).
-/

namespace SimplicioFast

namespace Operations

def RECEIPT_SCHEMA : PyStr := "simplicio.fast.operations-receipt/v1"

def maxQueryResults : ℤ := 100000

structure OperationReceipt where
  handle : PyStr
  kind : PyStr
  status : PyStr
  generation : PyStr
  sequence : ℕ
  sourceSchema : PyStr
  payload : List (PyStr × Json)
  /-- `receipt_identity_invalid` otherwise. -/
  identity : ∀ s ∈ [handle, kind, status, generation, sourceSchema], s.strip ≠ []

namespace OperationReceipt

def toDict (r : OperationReceipt) : List (PyStr × Json) :=
  [("schema", .str RECEIPT_SCHEMA), ("handle", .str r.handle), ("kind", .str r.kind), ("status", .str r.status),
    ("generation", .str r.generation), ("sequence", .int r.sequence), ("source_schema", .str r.sourceSchema),
    ("payload", .obj r.payload)]

/-- `payload.get("tombstone") is True`. -/
def isTombstone (r : OperationReceipt) : Bool :=
  match Dict.find r.payload "tombstone" with
  | some (.bool true) => true
  | _ => false

end OperationReceipt

end Operations

open Operations Machine

structure OperationsProjection where
  repository : PyStr
  generation : PyStr
  receipts : Dict PyStr OperationReceipt := .empty
  lastSequences : Dict PyStr ℕ := .empty
  tombstones : Dict PyStr OperationReceipt := .empty
  causalGaps : Finset PyStr := ∅
  forks : Finset PyStr := ∅

namespace OperationsProjection

variable (p : OperationsProjection)

/-- The causal parent of the receipt is missing, is not earlier, or is not named. -/
def isGap (r : OperationReceipt) : Bool :=
  match Dict.find r.payload "causal_parent" with
  | none => false
  | some .null => false
  | some (.str parent) =>
    if parent.strip = [] then true
    else match p.receipts.get? parent with
      | none => true
      | some predecessor => r.sequence ≤ predecessor.sequence
  | some _ => true

/-- The handles of the live receipts with a gap. -/
def gaps : Finset PyStr := ((p.receipts.values.filter p.isGap).map OperationReceipt.handle).toFinset

def refreshConsistency : OperationsProjection := { p with causalGaps := p.gaps }

/-- The entry `consistency` of a row. -/
def consistency (r : OperationReceipt) : PyStr :=
  if r.handle ∈ p.forks then "fork" else if r.handle ∈ p.causalGaps then "causal_gap" else "consistent"

def item (r : OperationReceipt) : Json :=
  .obj (r.toDict ++ [(("consistency" : PyStr), Json.str (p.consistency r))])

/-! ## Ingest -/

/-- `self._receipts.get(handle) or self._tombstones.get(handle)`. -/
def previous? (handle : PyStr) : Option OperationReceipt :=
  (p.receipts.get? handle).or (p.tombstones.get? handle)

/-- The receipt has the number of the last one of its handle, and says the same. -/
def isDuplicate (r : OperationReceipt) : Bool :=
  match p.previous? r.handle with
  | some previous =>
    p.lastSequences.get? r.handle = some r.sequence && (Json.obj r.toDict).pyEq (.obj previous.toDict)
  | none => false

def refusal? (r : OperationReceipt) : Option PyStr :=
  if r.generation ≠ p.generation then some "receipt_generation_mismatch"
  else if (p.lastSequences.get? r.handle).any (r.sequence < ·) then some "receipt_sequence_regression"
  else if (p.previous? r.handle).isSome ∧ p.lastSequences.get? r.handle = some r.sequence then
    if p.isDuplicate r then none else some "receipt_fork_detected"
  else none

/-- The fork mark of a receipt that is refused as a fork. -/
def mark (r : OperationReceipt) (reason : PyStr) : OperationsProjection :=
  if reason = ("receipt_fork_detected" : PyStr) then { p with forks := insert r.handle p.forks } else p

/-- The receipt becomes the last one of its handle. -/
def record (r : OperationReceipt) : OperationsProjection :=
  if r.isTombstone then
    { p with
      lastSequences := p.lastSequences.set r.handle r.sequence
      receipts := p.receipts.erase r.handle
      tombstones := p.tombstones.set r.handle r }
  else
    { p with
      lastSequences := p.lastSequences.set r.handle r.sequence
      tombstones := p.tombstones.erase r.handle
      receipts := p.receipts.set r.handle r }

/-- The loop of `ingest`, which returns the handles of the receipts that it has applied. -/
def applyAll (p : OperationsProjection) : List OperationReceipt → OperationsProjection × Except PyStr (List PyStr)
  | [] => (p, .ok [])
  | r :: rs =>
    match p.refusal? r with
    | some reason => (p.mark r reason, .error reason)
    | none =>
      if p.isDuplicate r then applyAll p rs
      else
        let (q, outcome) := applyAll (p.record r) rs
        (q, outcome.map fun changed => r.handle :: changed)

/-- What is handed to `ingest`: something that is not iterable, or a list in which an item may be no receipt. -/
inductive Batch
  | notIterable
  | items (receipts : List (Option OperationReceipt))

def ingest (batch : Batch) : OperationsProjection × Except PyStr Json :=
  match batch with
  | .notIterable => (p, .error "receipt_input_invalid")
  | .items receipts =>
    if receipts.any Option.isNone then (p, .error "receipt_type_invalid")
    else match p.applyAll receipts.reduceOption with
      | (q, .error reason) => (q, .error reason)
      | (q, .ok changed) =>
        let delta : List (PyStr × Json) :=
          [("schema", .str "simplicio.fast.operations-delta/v1"), ("repository", .str p.repository),
            ("generation", .str p.generation),
            ("changed_handles", .arr ((PyStr.sortedSet changed).map .str)),
            ("tombstones", .arr (((changed.filter fun h => (q.tombstones.get? h).isSome).insertionSort
              (· ≤ ·)).map .str))]
        (q.refreshConsistency, .ok (.obj delta))

/-! ## Queries -/

/-- The order of the rows of a query: the higher sequence first, then the greater handle. -/
def rowLe (r s : OperationReceipt) : Bool :=
  s.sequence < r.sequence || (s.sequence = r.sequence && s.handle ≤ r.handle)

def query (status kind : Option PyStr) (maxResults : ℤ) (asOfSequence : Option ℤ) : Except PyStr (List Json) :=
  if ¬ (0 < maxResults ∧ maxResults ≤ maxQueryResults) then .error "query_budget_invalid"
  else if asOfSequence.any (· < 0) then .error "query_as_of_invalid"
  else if status.any fun s => s.strip = [] then .error "query_filter_invalid"
  else if kind.any fun k => k.strip = [] then .error "query_filter_invalid"
  else
    let values := p.receipts.values.filter fun r =>
      status.all (r.status = ·) && kind.all (r.kind = ·) && asOfSequence.all ((r.sequence : ℤ) ≤ ·) &&
        !(status = some ("complete" : PyStr) && r.handle ∈ p.causalGaps)
    .ok (((values.insertionSort fun r s => rowLe r s = true).take maxResults.toNat).map p.item)

/-! ## The law -/

/-- A batch that is refused leaves all but the fork marks as it was. -/
def Atomic (p : OperationsProjection) (batch : Batch) : Prop :=
  ∀ reason, (p.ingest batch).2 = .error reason → (p.ingest batch).1 = { p with forks := (p.ingest batch).1.forks }

/-- The receipt names no causal parent, or one that is live and earlier. -/
def Sound (p : OperationsProjection) (r : OperationReceipt) : Prop :=
  ∀ parent, Dict.find r.payload "causal_parent" = some parent → parent ≠ .null →
    ∃ name predecessor, parent = .str name ∧ p.receipts.get? name = some predecessor ∧ predecessor.sequence < r.sequence

/-- The recorded gaps are those of the live receipts, and a query for complete receipts returns no other ones. -/
structure Current (p : OperationsProjection) : Prop where
  gaps : p.causalGaps = p.gaps
  complete : ∀ kind maxResults asOfSequence rows,
    p.query (some "complete") kind maxResults asOfSequence = .ok rows →
      ∀ row ∈ rows, ∃ r ∈ p.receipts.values, row = p.item r ∧ p.Sound r

/-- The loop of `ingest` gets through the receipts. -/
def Accepts : OperationsProjection → List OperationReceipt → Prop
  | _, [] => True
  | p, r :: rs => p.refusal? r = none ∧ if p.isDuplicate r then Accepts p rs else Accepts (p.record r) rs

/-- Behind duplicates, the first receipt is refused, or all are accepted. -/
def AllOrNone (p : OperationsProjection) : List OperationReceipt → Prop
  | [] => True
  | r :: rs => p.refusal? r ≠ none ∨ if p.isDuplicate r then AllOrNone p rs else Accepts (p.record r) rs

/-- A batch of receipts is all or none. -/
def Whole (p : OperationsProjection) : Batch → Prop
  | .notIterable => True
  | .items receipts => (∀ r ∈ receipts, r.isSome = true) → p.AllOrNone receipts.reduceOption

variable {p} {r : OperationReceipt} {rs : List OperationReceipt} {reason : PyStr}

/-! ## Sequences -/

/-- The last sequence of a handle is that of its receipt or tombstone. -/
def Numbered (p : OperationsProjection) : Prop :=
  ∀ h, p.lastSequences.get? h = (p.previous? h).map OperationReceipt.sequence

theorem lastSequences_record (p : OperationsProjection) (r : OperationReceipt) :
    (p.record r).lastSequences = p.lastSequences.set r.handle r.sequence := by
  unfold record
  split_ifs <;> rfl

theorem previous_record (p : OperationsProjection) (r : OperationReceipt) (h : PyStr) :
    (p.record r).previous? h = if h = r.handle then some r else p.previous? h := by
  unfold record previous?
  split_ifs with tomb same same
  · dsimp only
    rw [Dict.get?_erase, if_pos same, Dict.get?_set, if_pos same]
    rfl
  · dsimp only
    rw [Dict.get?_erase, if_neg same, Dict.get?_set, if_neg same]
  · dsimp only
    rw [Dict.get?_set, if_pos same]
    rfl
  · dsimp only
    rw [Dict.get?_erase, if_neg same, Dict.get?_set, if_neg same]

theorem Numbered.record (n : Numbered p) (r : OperationReceipt) : Numbered (p.record r) := by
  intro h
  rw [lastSequences_record, previous_record, Dict.get?_set]
  split_ifs
  · rfl
  · exact n h

theorem Numbered.mark (n : Numbered p) (r : OperationReceipt) (reason : PyStr) : Numbered (p.mark r reason) := by
  unfold OperationsProjection.mark
  split_ifs
  · exact n
  · exact n

theorem lt_of_accepted (n : Numbered p) (fine : p.refusal? r = none) (new : p.isDuplicate r = false) {s : ℕ}
    (last : p.lastSequences.get? r.handle = some s) : s < r.sequence := by
  obtain ⟨previous, there, -⟩ := Option.map_eq_some_iff.1 ((n r.handle).symm.trans last)
  unfold refusal? at fine
  rw [last, there] at fine
  split_ifs at fine with generation regression fork duplicate
  · rw [duplicate] at new
    cases new
  · have regression : ¬ r.sequence < s := by simpa using regression
    have fork : s ≠ r.sequence := by simpa using fork
    omega

theorem applyAll_mono (rs : List OperationReceipt) (n : Numbered p) {h : PyStr} {s : ℕ} (last : p.lastSequences.get? h = some s) :
    ∃ s', (p.applyAll rs).1.lastSequences.get? h = some s' ∧ s ≤ s' := by
  induction rs generalizing p s with
  | nil => exact ⟨s, last, le_rfl⟩
  | cons r rs ih =>
    unfold applyAll
    split
    · rename_i reason _
      refine ⟨s, ?_, le_rfl⟩
      unfold OperationsProjection.mark
      split_ifs
      · exact last
      · exact last
    · rename_i fine
      by_cases dup : p.isDuplicate r = true
      · rw [if_pos dup]
        exact ih n last
      · rw [if_neg dup]
        by_cases same : h = r.handle
        · subst same
          have later := lt_of_accepted n fine (Bool.eq_false_of_not_eq_true dup) last
          have now : (p.record r).lastSequences.get? r.handle = some r.sequence := by
            rw [lastSequences_record, Dict.get?_set_self]
          obtain ⟨s', found, le⟩ := ih (n.record r) now
          exact ⟨s', found, later.le.trans le⟩
        · refine ih (n.record r) ?_
          rw [lastSequences_record, Dict.get?_set_of_ne _ _ same]
          exact last

theorem applyAll_ne (rs : List OperationReceipt) (n : Numbered p) (fine : p.refusal? r = none) (new : p.isDuplicate r = false) :
    ((p.record r).applyAll rs).1.lastSequences ≠ p.lastSequences := by
  intro same
  have now : (p.record r).lastSequences.get? r.handle = some r.sequence := by
    rw [lastSequences_record, Dict.get?_set_self]
  obtain ⟨s, found, le⟩ := applyAll_mono rs (n.record r) now
  rw [same] at found
  have later := lt_of_accepted n fine new found
  omega

/-! ## Batches -/

theorem applyAll_cons_of_duplicate (fine : p.refusal? r = none) (dup : p.isDuplicate r = true) :
    p.applyAll (r :: rs) = p.applyAll rs := by
  rw [applyAll, fine]
  exact if_pos dup

theorem applyAll_cons_of_new (fine : p.refusal? r = none) (new : p.isDuplicate r = false) :
    p.applyAll (r :: rs) = (((p.record r).applyAll rs).1,
      ((p.record r).applyAll rs).2.map fun changed => r.handle :: changed) := by
  rw [applyAll, fine]
  dsimp only
  rw [if_neg (by rw [new]; exact Bool.false_ne_true)]

theorem applyAll_eq_ok_iff : (∃ changed, (p.applyAll rs).2 = .ok changed) ↔ p.Accepts rs := by
  induction rs generalizing p with
  | nil => exact iff_of_true ⟨[], rfl⟩ trivial
  | cons r rs ih =>
    unfold Accepts
    cases fine : p.refusal? r with
    | some reason =>
      refine iff_of_false ?_ fun h => by cases h.1
      rintro ⟨changed, same⟩
      rw [applyAll, fine] at same
      cases same
    | none =>
      rw [and_iff_right rfl]
      cases dup : p.isDuplicate r with
      | true =>
        rw [applyAll_cons_of_duplicate fine dup, if_pos rfl]
        exact ih
      | false =>
        rw [applyAll_cons_of_new fine dup, if_neg Bool.false_ne_true, ← ih]
        cases ((p.record r).applyAll rs).2 with
        | error reason => exact iff_of_false (fun h => by cases h.choose_spec) fun h => by cases h.choose_spec
        | ok changed => exact iff_of_true ⟨_, rfl⟩ ⟨_, rfl⟩

theorem applyAll_atomic_iff (n : Numbered p) :
    (∀ reason, (p.applyAll rs).2 = .error reason → (p.applyAll rs).1 = { p with forks := (p.applyAll rs).1.forks }) ↔
      p.AllOrNone rs := by
  induction rs generalizing p with
  | nil => exact iff_of_true nofun trivial
  | cons r rs ih =>
    unfold AllOrNone
    cases fine : p.refusal? r with
    | some reason =>
      refine iff_of_true (fun _ _ => ?_) (.inl nofun)
      rw [applyAll, fine]
      dsimp only
      unfold OperationsProjection.mark
      split_ifs <;> rfl
    | none =>
      rw [or_iff_right fun h => h rfl]
      cases dup : p.isDuplicate r with
      | true =>
        rw [applyAll_cons_of_duplicate fine dup, if_pos rfl]
        exact ih n
      | false =>
        rw [applyAll_cons_of_new fine dup, if_neg Bool.false_ne_true, ← applyAll_eq_ok_iff]
        cases outcome : ((p.record r).applyAll rs).2 with
        | ok changed => exact iff_of_true nofun ⟨_, rfl⟩
        | error reason =>
          refine iff_of_false (fun atomic => ?_) fun h => by cases h.choose_spec
          refine applyAll_ne rs n fine dup ?_
          rw [atomic reason rfl]

theorem Numbered.applyAll (n : Numbered p) (rs : List OperationReceipt) : Numbered (p.applyAll rs).1 := by
  induction rs generalizing p with
  | nil => exact n
  | cons r rs ih =>
    unfold OperationsProjection.applyAll
    split
    · exact n.mark r _
    · split_ifs
      · exact ih n
      · exact ih (n.record r)

theorem Numbered.ingest (n : Numbered p) (batch : Batch) : Numbered (p.ingest batch).1 := by
  unfold OperationsProjection.ingest
  split
  · exact n
  · rename_i receipts
    split_ifs
    · exact n
    · have applied := n.applyAll receipts.reduceOption
      split
      · rename_i same
        rw [same] at applied
        exact applied
      · rename_i same
        rw [same] at applied
        exact applied

theorem atomic_iff (n : Numbered p) (batch : Batch) : p.Atomic batch ↔ p.Whole batch := by
  unfold Atomic Whole ingest
  cases batch with
  | notIterable => exact iff_of_true (fun _ _ => rfl) trivial
  | items receipts =>
    dsimp only
    by_cases foreign : receipts.any Option.isNone = true
    · rw [if_pos foreign]
      refine iff_of_true (fun _ _ => rfl) fun all => ?_
      obtain ⟨r, mem, none⟩ := List.any_eq_true.1 foreign
      have some := all r mem
      rw [Option.isNone_iff_eq_none.1 none] at some
      cases some
    · rw [if_neg foreign]
      have all : ∀ r ∈ receipts, r.isSome = true := by
        intro r mem
        cases r with
        | none => exact absurd (List.any_eq_true.2 ⟨none, mem, rfl⟩) foreign
        | some r => rfl
      rw [← applyAll_atomic_iff n, imp_iff_right all]
      rcases applied : p.applyAll receipts.reduceOption with ⟨q, outcome⟩
      cases outcome with
      | error reason =>
        refine forall_congr' fun reason' => imp_congr ?_ .rfl
        exact ⟨fun h => congrArg _ (Except.error.inj h), fun h => congrArg _ (Except.error.inj h)⟩
      | ok changed => exact iff_of_true nofun nofun

/-! ## Gaps -/

theorem sound_of_isGap_eq_false (h : p.isGap r = false) : p.Sound r := by
  intro parent found other
  unfold isGap at h
  rw [found] at h
  cases parent with
  | null => exact absurd rfl other
  | str name =>
    dsimp only at h
    split_ifs at h
    cases there : p.receipts.get? name with
    | none =>
      rw [there] at h
      cases h
    | some predecessor =>
      rw [there] at h
      exact ⟨name, predecessor, rfl, there, by simpa using h⟩
  | _ => cases h

theorem mem_gaps (mem : r ∈ p.receipts.values) (gap : p.isGap r = true) : r.handle ∈ p.gaps :=
  List.mem_toFinset.2 (List.mem_map.2 ⟨r, List.mem_filter.2 ⟨mem, gap⟩, rfl⟩)

theorem current_of_gaps (gaps : p.causalGaps = p.gaps) : Current p where
  gaps := gaps
  complete kind maxResults asOfSequence rows found row mem := by
    unfold query at found
    split_ifs at found
    obtain rfl := Except.ok.inj found
    obtain ⟨r, taken, rfl⟩ := List.mem_map.1 mem
    have chosen := (List.mem_insertionSort _).1 (List.mem_of_mem_take taken)
    obtain ⟨live, passed⟩ := List.mem_filter.1 chosen
    refine ⟨r, live, rfl, sound_of_isGap_eq_false ?_⟩
    by_contra gap
    have marked : r.handle ∈ p.causalGaps := gaps ▸ mem_gaps live (Bool.eq_true_of_not_eq_false gap)
    rw [Bool.and_eq_true] at passed
    simp [marked] at passed

theorem gaps_ingest (n : Numbered p) (batch : Batch) (whole : p.Whole batch) (gaps : p.causalGaps = p.gaps) :
    (p.ingest batch).1.causalGaps = (p.ingest batch).1.gaps := by
  have atomic := (atomic_iff n batch).2 whole
  cases outcome : (p.ingest batch).2 with
  | error reason =>
    rw [atomic reason outcome]
    exact gaps
  | ok delta =>
    unfold ingest at outcome ⊢
    cases batch with
    | notIterable => cases outcome
    | items receipts =>
      dsimp only at outcome ⊢
      split_ifs at outcome ⊢ with foreign
      generalize p.applyAll receipts.reduceOption = applied at outcome ⊢
      obtain ⟨q, refused | changed⟩ := applied
      · cases outcome
      · rfl

/-- `OperationsProjection(repository, generation)`. -/
def new (repository generation : PyStr) : OperationsProjection where
  repository := repository
  generation := generation

/-- A call of `ingest` as a step. -/
def step (p : OperationsProjection) (batch : Batch) : OperationsProjection := (p.ingest batch).1

/-- In a run of `ingest`, every batch that is refused changes fork marks only and the gaps are always those of the
receipts, exactly when every batch is all or none. -/
theorem atomic_and_current_iff (repository generation : PyStr) (batches : List Batch) :
    Along step Atomic (new repository generation) batches ∧ Always step Current (new repository generation) batches ↔
      Along step Whole (new repository generation) batches := by
  have start : Numbered (new repository generation) := fun _ => rfl
  have kept (p : OperationsProjection) (batch : Batch) (n : Numbered p) : Numbered (step p batch) := n.ingest batch
  have agree : Along step Atomic (new repository generation) batches ↔ Along step Whole (new repository generation) batches :=
    along_congr_of_invariant start kept fun p batch n => atomic_iff n batch
  rw [agree]
  refine and_iff_left_of_imp fun whole => ?_
  rintro before after rfl
  have tracked : Numbered (run step (new repository generation) before) ∧
      (run step (new repository generation) before).causalGaps = (run step (new repository generation) before).gaps := by
    refine (along_append.1 whole).1.run_invariant (I := fun p => Numbered p ∧ p.causalGaps = p.gaps) ⟨start, rfl⟩ ?_
    rintro p batch ⟨n, gaps⟩ ok
    exact ⟨kept p batch n, gaps_ingest n batch ok gaps⟩
  exact current_of_gaps tracked.2

/-! ## A batch that is refused behind a receipt -/

/-- A receipt of a handle, with the entries of its payload. -/
def receipt (handle : PyStr) (named : handle.strip ≠ []) (sequence : ℕ) (payload : List (PyStr × Json)) :
    OperationReceipt where
  handle := handle
  kind := "attempt"
  status := "complete"
  generation := "g1"
  sequence := sequence
  sourceSchema := "loop/v1"
  payload := payload
  identity := by
    rw [List.forall_mem_cons]
    exact ⟨named, by decide +kernel⟩

/-- A complete receipt whose parent is missing, and a receipt of another generation. -/
def tornBatch : List Batch :=
  [.items [some (receipt "child" (by decide +kernel) 2 [("causal_parent", .str "missing")]),
    some { receipt "other" (by decide +kernel) 1 [] with generation := "g2", identity := by decide +kernel }]]

/-- The first receipt is applied, and no gap is recorded. -/
theorem not_atomic_tornBatch : ¬ (Along step Atomic (new "repo" "g1") tornBatch ∧
    Always step Current (new "repo" "g1") tornBatch) := by
  rintro ⟨-, always⟩
  have gaps := (always tornBatch [] (List.append_nil _).symm).gaps
  revert gaps
  decide +kernel

end OperationsProjection

end SimplicioFast
