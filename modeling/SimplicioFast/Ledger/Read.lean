import SimplicioFast.Lib.Conversions
import SimplicioFast.Ledger.Store

/-!
# Reading the ledger store

`read_record` finds a record through its index entry, and `verify` reads all records again, makes an event of each,
and checks the chain of their hashes.  The fields that `verify` does not convert may hold any JSON value.
-/

namespace SimplicioFast

/-- What `verify` raises besides the errors of the store, which it catches. -/
inductive StoreVerifyRaised
  | valueError
  | overflowError
  | unicodeEncodeError
deriving DecidableEq

/-- What `verify` returns. -/
structure StoreVerification where
  status : PyStr
  reasonCode : Option PyStr := none
  events : ℕ
  invalidSequences : List ℕ := []
  head : Option PyStr := none
  repository : Option PyStr := none
deriving DecidableEq

/-- The event that `verify` makes of a record. -/
structure StoredEvent where
  sequence : ℤ
  eventType : PyStr
  eventId : PyStr
  taskId : PyStr
  attemptId : PyStr
  candidateId : Json
  repository : PyStr
  sourceCommit : Json
  baseGeneration : Json
  overlayGeneration : Json
  producer : PyStr
  artifactHandles : List Json
  artifactDigests : List Json
  payloadDigest : Json
  prevEventHash : PyStr
  eventHash : PyStr
  metadata : JsonObject

def StoredEvent.material (e : StoredEvent) : Json :=
  .obj [("schema", .str LEDGER_SCHEMA), ("sequence", .int e.sequence), ("event_type", .str e.eventType),
    ("event_id", .str e.eventId), ("task_id", .str e.taskId), ("attempt_id", .str e.attemptId),
    ("candidate_id", e.candidateId), ("repository", .str e.repository), ("source_commit", e.sourceCommit),
    ("base_generation", e.baseGeneration), ("overlay_generation", e.overlayGeneration),
    ("producer", .str e.producer), ("artifact_handles", .arr e.artifactHandles),
    ("artifact_digests", .arr e.artifactDigests), ("payload_digest", e.payloadDigest),
    ("prev_event_hash", .str e.prevEventHash), ("metadata", e.metadata.toJson)]

namespace LedgerStore

/-! ## Records -/

def refused {α : Type} (reasonCode message : PyStr) : Except StoreRaised α := .error (.storeError reasonCode message)

def indexEntry (files : LedgerFiles) (sequence : ℤ) : Except StoreRaised IndexEntry :=
  if sequence < 0 then refused "invalid_sequence" "sequence must be non-negative"
  else
    match files.hbi with
    | none => refused "missing_index" "HBI index is missing"
    | some raw =>
      if raw.take headerSize ≠ fileHeader HBI_MAGIC then refused "invalid_header" "HBI header is invalid"
      else if (raw.length - headerSize) % entrySize ≠ 0 then refused "partial_index" "HBI tail is partial"
      else if raw.length - headerSize < sequence.toNat * entrySize + entrySize then
        refused "index_out_of_bounds" "sequence is not indexed"
      else .ok (entryAt raw sequence.toNat)

/-- The record that an entry stands for. -/
def recordAt (hbp : Bytes) (sequence : ℕ) (e : IndexEntry) : Except StoreRaised Json :=
  let recordSequence := Bytes.unpackBE (Bytes.slice hbp e.offset (e.offset + 8))
  let recordLength := Bytes.unpackBE (Bytes.slice hbp (e.offset + 8) (e.offset + 12))
  let start := e.offset + recordHeaderSize
  let payload := Bytes.slice hbp start (start + recordLength)
  if recordSequence ≠ sequence ∨ recordLength ≠ e.length ∨ Sha256.digest payload ≠ e.digest then
    refused "payload_digest_mismatch" "HBP payload does not match HBI"
  else
    match (PyStr.decode payload).bind Json.loads with
    | none => refused "invalid_record" "HBP payload is not valid JSON"
    | some (.obj fields) => .ok (.obj fields)
    | some _ => refused "invalid_record" "HBP record must be an object"

def readRecord (files : LedgerFiles) (sequence : ℤ) : Except StoreRaised Json := do
  let e ← indexEntry files sequence
  if (e.sequence : ℤ) ≠ sequence ∨ MAX_RECORD_BYTES < e.length then
    refused "index_mismatch" "HBI sequence or length is invalid"
  else
    match files.hbp with
    | none => refused "missing_body" "HBP body is missing"
    | some data =>
      if data.take headerSize ≠ fileHeader HBP_MAGIC then refused "invalid_header" "HBP header is invalid"
      else if e.offset < headerSize ∨ data.length < e.offset + recordHeaderSize + e.length then
        refused "body_out_of_bounds" "HBI points outside HBP"
      else recordAt data sequence.toNat e

/-! ## Events -/

/-- What an expression of `_event_from_record` does; `none` is an exception that it catches. -/
abbrev Reading (α : Type) := Except (Option StoreVerifyRaised) α

/-- `record[key]`. -/
def field (record : Json) (key : PyStr) : Reading Json :=
  match record.get? key with
  | some v => .ok v
  | none => .error none

/-- `int(v)`. -/
def intOf (c : Conversions) (v : Json) : Reading ℤ :=
  match c.int v with
  | .ok n => .ok n
  | .error .caught => .error none
  | .error .overflowError => .error (some .overflowError)

/-- `tuple(v)`. -/
def tupleOf (v : Json) : Reading (List Json) :=
  match v.iterated with
  | some vs => .ok vs
  | none => .error none

/-- `dict(v)`. -/
def dictOf (c : Conversions) (v : Json) : Reading JsonObject :=
  match c.dict v with
  | some m => .ok m
  | none => .error none

def eventFromRecord (c : Conversions) (record : Json) : Reading StoredEvent := do
  let sequence ← intOf c (← field record "sequence")
  let eventType := c.str (← field record "event_type")
  let eventId := c.str (← field record "event_id")
  let taskId := c.str (← field record "task_id")
  let attemptId := c.str (← field record "attempt_id")
  let candidateId ← field record "candidate_id"
  let repository := c.str (← field record "repository")
  let sourceCommit ← field record "source_commit"
  let baseGeneration ← field record "base_generation"
  let overlayGeneration ← field record "overlay_generation"
  let producer := c.str (← field record "producer")
  let artifactHandles ← tupleOf (← field record "artifact_handles")
  let artifactDigests ← tupleOf (← field record "artifact_digests")
  let payloadDigest ← field record "payload_digest"
  let prevEventHash := c.str (← field record "prev_event_hash")
  let eventHash := c.str (← field record "event_hash")
  let metadata ← dictOf c (← field record "metadata")
  return { sequence, eventType, eventId, taskId, attemptId, candidateId, repository, sourceCommit, baseGeneration,
           overlayGeneration, producer, artifactHandles, artifactDigests, payloadDigest, prevEventHash, eventHash,
           metadata }

/-! ## The chain -/

/-- The event of the next record; `none` is a `LedgerStoreError`. -/
def storedEvent (c : Conversions) (files : LedgerFiles) (sequence : ℕ) : Reading StoredEvent :=
  match readRecord files sequence with
  | .error _ => .error none
  | .ok record => eventFromRecord c record

/-- Whether the event stands at its place of the chain; the hash is computed last. -/
def validAt (e : StoredEvent) (sequence : ℕ) (previous : PyStr) : Except StoreVerifyRaised Bool :=
  if e.repository = [] then .error .valueError
  else if e.sequence = sequence ∧ e.prevEventHash = previous then
    match eventHashOf e.material with
    | .ok hash => .ok (e.eventHash = hash)
    | .error _ => .error .unicodeEncodeError
  else .ok false

/-- The loop of `verify`: the invalid sequence numbers, the hash of the last event and the repository of the first. -/
def verifyFrom (c : Conversions) (files : LedgerFiles) :
    (remaining sequence : ℕ) → PyStr → Option PyStr → Except StoreVerifyRaised (List ℕ × PyStr × Option PyStr)
  | 0, _, previous, repository => .ok ([], previous, repository)
  | remaining + 1, sequence, previous, repository =>
    match storedEvent c files sequence with
    | .error none => .ok ([sequence], previous, repository)
    | .error (some x) => .error x
    | .ok e => do
      let valid ← validAt e sequence previous
      let (invalid, head, repository) ←
        verifyFrom c files remaining (sequence + 1) e.eventHash (repository.or (some e.repository))
      return (if valid then invalid else sequence :: invalid, head, repository)

def verify (c : Conversions) (files : LedgerFiles) : Except StoreVerifyRaised StoreVerification :=
  match files.hbi with
  | none => .ok { status := "invalid", reasonCode := some "missing_index", events := 0 }
  | some hbi =>
    if hbi.take headerSize ≠ fileHeader HBI_MAGIC then
      .ok { status := "invalid", reasonCode := some "invalid_header", events := 0 }
    else do
      let count := (hbi.length - headerSize) / entrySize
      let (invalid, head, repository) ← verifyFrom c files count 0 ZERO_HASH none
      return { status := if invalid = [] then "valid" else "invalid"
               events := count
               invalidSequences := invalid
               head := some head
               repository := repository }

/-- An append whose receipt is not kept. -/
def appended (files : LedgerFiles) (e : LedgerEvent) : Except StoreRaised LedgerFiles :=
  match append files e with
  | (.ok _, files) => .ok files
  | (.error x, _) => .error x

/-- The events are appended one after another; the first error ends it. -/
def appendAll (files : LedgerFiles) (es : List LedgerEvent) : Except StoreRaised LedgerFiles := es.foldlM appended files

end LedgerStore

end SimplicioFast
