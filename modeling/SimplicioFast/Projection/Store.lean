import SimplicioFast.Projection.Decode

/-!
# The projection store

`ProjectionStore` keeps the latest records of one repository, each under its stable handle.  `publish` adds a record
of the generation that the store has; `apply_delta` may move the store to another generation.  `save` writes the store
with the digest of its body, and `load` publishes the records of such a file one after another.
-/

namespace SimplicioFast

namespace Projection

def STORE_SCHEMA : PyStr := "simplicio.fast.projection-store/v1"

/-- Whether the payload declares no other repository. -/
def Fields.inScope (f : Fields) (repository : PyStr) : Bool :=
  match (f.payload.get? "repository").getD .null with
  | .null => true
  | declared => declared.pyEq (.str repository)

/-- The records of a repository, each under its stable handle. -/
structure Records (repository : PyStr) where
  dict : Dict PyStr ProjectionEnvelope
  keyed : ∀ k e, dict.get? k = some e → e.stableHandle = k
  within : ∀ k e, dict.get? k = some e → e.inScope repository = true

namespace Records

variable {repository : PyStr}

def empty : Records repository := ⟨.empty, fun _ _ h => (by cases h), fun _ _ h => (by cases h)⟩

def get? (records : Records repository) (k : PyStr) : Option ProjectionEnvelope := records.dict.get? k

/-- `records[envelope.stable_handle] = envelope`. -/
def put (records : Records repository) (e : ProjectionEnvelope) (within : e.inScope repository = true) :
    Records repository where
  dict := records.dict.set e.stableHandle e
  keyed k d h := by
    rw [Dict.get?_set] at h
    split_ifs at h with same
    · cases h
      exact same.symm
    · exact records.keyed k d h
  within k d h := by
    rw [Dict.get?_set] at h
    split_ifs at h with same
    · cases h
      exact within
    · exact records.within k d h

/-- `records.pop(handle, None)`. -/
def pop (records : Records repository) (handle : PyStr) : Records repository where
  dict := records.dict.erase handle
  keyed k d h := by
    rw [Dict.get?_erase] at h
    split_ifs at h
    exact records.keyed k d h
  within k d h := by
    rw [Dict.get?_erase] at h
    split_ifs at h
    exact records.within k d h

theorem get?_put (records : Records repository) (e : ProjectionEnvelope) (within : e.inScope repository = true)
    (k : PyStr) : (records.put e within).get? k = if k = e.stableHandle then some e else records.get? k :=
  Dict.get?_set _ _ _ _

theorem get?_pop (records : Records repository) (handle k : PyStr) :
    (records.pop handle).get? k = if k = handle then none else records.get? k :=
  Dict.get?_erase _ _ _

theorem get?_foldl_pop (handles : List PyStr) (records : Records repository) (k : PyStr) :
    (handles.foldl pop records).get? k = if k ∈ handles then none else records.get? k := by
  induction handles generalizing records with
  | nil => rfl
  | cons handle handles ih =>
    rw [List.foldl_cons, ih, get?_pop]
    by_cases here : k = handle
    · simp [here]
    · simp [here]

end Records

structure ProjectionStore where
  repository : PyStr
  isText_repository : isText repository = true
  generation : Option PyStr
  records : Records repository

/-- `ProjectionStore(repository)`. -/
def ProjectionStore.new (repository : PyStr) (text : isText repository = true) : ProjectionStore :=
  ⟨repository, text, none, .empty⟩

/-- The arguments of `apply_delta`. -/
structure Delta where
  generation : PyStr
  baseGeneration : Option PyStr := none
  changed : List ProjectionEnvelope := []
  deletedHandles : List PyStr := []
  closureHandles : List PyStr := []

namespace Delta

def changedHandles (d : Delta) : List PyStr := PyStr.sortedSet (d.changed.map fun e => e.stableHandle)

def deleted (d : Delta) : List PyStr := PyStr.sortedSet d.deletedHandles

end Delta

namespace ProjectionStore

/-! ## Publishing -/

def publish (s : ProjectionStore) (e : ProjectionEnvelope) : Except Raised ProjectionStore :=
  if within : e.inScope s.repository = true then
    if s.generation.any fun g => e.generation ≠ g then
      .error (.projectionError "projection_generation_stale")
    else if (s.records.get? e.stableHandle).any fun previous => previous.payloadSha256 ≠ e.payloadSha256 then
      .error (.projectionError "projection_handle_conflict")
    else .ok { s with generation := some e.generation, records := s.records.put e within }
  else .error (.projectionError "projection_repository_mismatch")

/-! ## Deltas -/

/-- `generation_swap`. -/
def swaps (s : ProjectionStore) (d : Delta) : Bool := s.generation.any fun g => d.generation ≠ g

/-- One pass of the loop of `apply_delta` over the changed records. -/
def putChanged (s : ProjectionStore) (d : Delta) (records : Records s.repository) (item : ProjectionEnvelope) :
    Except Raised (Records s.repository) :=
  if item.generation ≠ d.generation then .error (.projectionError "projection_generation_stale")
  else if within : item.inScope s.repository = true then
    if !s.swaps d && (records.get? item.stableHandle).any fun previous =>
        previous.payloadSha256 ≠ item.payloadSha256 then
      .error (.projectionError "projection_handle_conflict")
    else .ok (records.put item within)
  else .error (.projectionError "projection_repository_mismatch")

/-- `next_records`, after every check of `apply_delta`. -/
def nextRecords (s : ProjectionStore) (d : Delta) : Except Raised (Records s.repository) := do
  let _ ← validateText (.str d.generation) "generation"
  d.baseGeneration.toList.forM fun base => do
    let _ ← validateText (.str base) "base_generation"
  check (d.changed.length ≤ MAX_ITEMS) "changed_invalid"
  let _ ← validateSequence (Fields.listOf d.deletedHandles) "deleted_handles"
  let _ ← validateSequence (Fields.listOf d.closureHandles) "closure_handles"
  check (!(s.swaps d && d.baseGeneration ≠ s.generation)) "projection_generation_stale"
  check (!(!s.swaps d && d.baseGeneration ≠ none && d.baseGeneration ≠ s.generation))
    "projection_generation_stale"
  check (d.changedHandles.all fun handle => handle ∉ d.deleted) "projection_delta_conflict"
  let records ← d.changed.foldlM (s.putChanged d) s.records
  return d.deleted.foldl Records.pop records

def snapshot (s : ProjectionStore) : List Json :=
  (s.records.dict.keys.insertionSort (· ≤ ·)).filterMap fun k => (s.records.get? k).map fun e => e.toDict

def projectionDigest (s : ProjectionStore) : Except Raised PyStr := digest (.arr s.snapshot)

/-- What `apply_delta` returns. -/
def deltaReceipt (s : ProjectionStore) (d : Delta) : Except Raised Json := do
  let projectionDigest ← s.projectionDigest
  return .obj [("schema", .str "simplicio.fast.projection-delta/v1"), ("repository", .str s.repository),
    ("generation", .str d.generation), ("base_generation", Json.optStr d.baseGeneration),
    ("changed_handles", Fields.listOf d.changedHandles), ("deleted_handles", Fields.listOf d.deleted),
    ("closure_handles", Fields.listOf (PyStr.sortedSet (d.closureHandles ++ d.changedHandles ++ d.deleted))),
    ("projection_digest", .str projectionDigest)]

/-- `apply_delta`; the store has changed already when the receipt cannot be made. -/
def applyDelta (s : ProjectionStore) (d : Delta) : ProjectionStore × Except Raised Json :=
  match s.nextRecords d with
  | .error e => (s, .error e)
  | .ok records =>
    let s' := { s with generation := some d.generation, records := records }
    (s', s'.deltaReceipt d)

/-! ## Files -/

/-- The body of the document that `save` writes. -/
def body (s : ProjectionStore) : Json :=
  .obj [("schema", .str STORE_SCHEMA), ("repository", .str s.repository),
    ("generation", Json.optStr s.generation), ("records", .arr s.snapshot)]

def storeSha256 (s : ProjectionStore) : Except Raised PyStr := digest s.body

/-- The bytes that `save` puts in the file. -/
def save (s : ProjectionStore) : Except Raised Bytes := do
  let storeSha256 ← s.storeSha256
  let encoded ← canonical (.obj [("body", s.body), ("store_sha256", .str storeSha256)])
  return encoded ++ [10]

/-- One pass of the loop of `load` over the records. -/
def loadRecord (s : ProjectionStore) (record : Json) : Except Raised ProjectionStore :=
  match record with
  | .obj _ => do
    let raw ← canonical record
    let e ← decode raw
    s.publish e
  | _ => .error (.projectionError "projection_store_invalid")

/-- `load` of a document. -/
def loadDocument (document : JsonObject) (repository : PyStr) : Except Raised ProjectionStore :=
  match document.object? "body" with
  | none => .error (.projectionError "projection_store_schema_unsupported")
  | some body => do
    check (holds body "schema" STORE_SCHEMA) "projection_store_schema_unsupported"
    check (holds body "repository" repository) "projection_repository_mismatch"
    let expected ← digest body.toJson
    check (holds document "store_sha256" expected) "projection_store_digest_mismatch"
    match body.get? "records" with
    | some (.arr records) =>
      if text : isText repository = true then do
        let s ← records.foldlM loadRecord (.new repository text)
        check (((body.get? "generation").getD .null).pyEq (Json.optStr s.generation))
          "projection_generation_mismatch"
        return s
      else .error (invalid "repository")
    | _ => .error (.projectionError "projection_store_invalid")

/-- `load` of the bytes of a file. -/
def load (raw : Bytes) (repository : PyStr) : Except Raised ProjectionStore :=
  match (PyStr.decode raw).bind JsonObject.loads? with
  | none => .error (.projectionError "projection_store_invalid")
  | some document => loadDocument document repository

end ProjectionStore

/-! ## Runs -/

/-- A call that changes a store. -/
inductive Op
  | publish (e : ProjectionEnvelope)
  | applyDelta (d : Delta)

/-- The store after a call; a rejected one leaves it as it is. -/
def ProjectionStore.step (s : ProjectionStore) : Op → ProjectionStore
  | .publish e => (s.publish e).toOption.getD s
  | .applyDelta d => (s.applyDelta d).1

end Projection

end SimplicioFast
