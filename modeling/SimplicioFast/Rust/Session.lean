import SimplicioFast.Rust.Reader
import SimplicioFast.Lib.Machine

/-!
# The Rust session

A session answers one request for each line that it reads.  It keeps the reader of a path that it has once opened,
while publishers replace the file at the path; the mapping of a reader is that of the file it opened.

`query_filtered_after` and `context_with_receipt` are parameters: what matters here is the reader that they are asked.
-/

namespace SimplicioFast

namespace RustCore

/-- `QueryReceipt`, with its matches as JSON. -/
structure QueryReceipt where
  found : List Json
  selectedIndex : PyStr
  candidatesVisited : ℕ
  recordsDecoded : ℕ
  nextCursor : Option PyStr

/-- `ContextReceipt`, with its spans as JSON. -/
structure ContextReceipt where
  spans : List Json
  sourceFilesRead : ℕ
  sourceCacheHits : ℕ
  sourceBytesRead : ℕ

/-- The queries of a reader; the context depends on the source files too. -/
structure Queries (σ : Type) where
  queryFilteredAfter : SnapshotReader → PyStr → Option PyStr → Option PyStr → ℕ → Option ℕ →
    Except SnapshotError QueryReceipt
  contextWithReceipt : σ → SnapshotReader → PyStr → PyStr → ℕ → ℕ → ℕ → ℕ → Except SnapshotError ContextReceipt

/-- The snapshots that are published, by path, and the source files. -/
structure World (σ : Type) where
  published : Dict PyStr Bytes
  sources : σ

/-- `SnapshotReader::open`. -/
def openReader (serde : Serde) (published : Dict PyStr Bytes) (path : PyStr) : Except SnapshotError SnapshotReader :=
  match published.get? path with
  | none => .error (.io "No such file or directory (os error 2)")
  | some raw => do
    ensure (raw.length ≤ MAX_SNAPSHOT_BYTES) "snapshot size limit exceeded"
    fromStorage serde raw

/-! ## Requests -/

/-- `Value::get`. -/
def getField (value : Json) (key : PyStr) : Option Json :=
  match value with
  | .obj fs => Dict.find fs key
  | _ => none

/-- `Value::as_str`. -/
def asStr : Json → Option PyStr
  | .str s => some s
  | _ => none

/-- `Value::as_u64`. -/
def asU64 : Json → Option ℕ
  | .int n => if 0 ≤ n ∧ n < 2 ^ 64 then some n.toNat else none
  | _ => none

/-- A text of the request, or the reason why it is missing. -/
def textField (value : Json) (key reason : PyStr) : Except PyStr PyStr :=
  match (getField value key).bind asStr with
  | none => .error reason
  | some s => .ok s

/-- A number of the request, or its default. -/
def numberField (value : Json) (key : PyStr) (fallback : ℕ) : ℕ := ((getField value key).bind asU64).getD fallback

def optionalField (value : Json) (key : PyStr) : Option PyStr := (getField value key).bind asStr

/-- `map_err(|error| error.to_string())`. -/
def toReason {α : Type} : Except SnapshotError α → Except PyStr α
  | .error e => .error e.display
  | .ok a => .ok a

/-- What a request asks for: an answer of the reader of a snapshot, or the number of readers. -/
inductive Request
  | read (snapshot : PyStr) (generation : Option PyStr) (answer : SnapshotReader → Except PyStr Json)
  | sessionCacheStats

def statsJson (serde : Serde) (r : SnapshotReader) : Json :=
  let relations := ((serde.relations (sectionBytes r.bytes (sectionOf r.sections "relations"))).map List.length).getD 0
  .obj [("schema", .str "simplicio.fast.rust-stats/v1"), ("format_version", .int VERSION),
    ("bytes", .int r.bytes.length),
    ("files", .int ((sectionOf r.sections "files").2 / FILE_RECORD_SIZE : ℕ)),
    ("symbols", .int ((sectionOf r.sections "symbols").2 / SYMBOL_RECORD_SIZE : ℕ)),
    ("relations", .int relations), ("sections", .arr ((PyStr.sortedSet r.sections.keys).map .str)),
    ("generation", .str r.generation)]

def relationJson (r : RustRelation) : Json :=
  .obj [("origin", .str r.origin), ("destination", .str r.destination), ("kind", .str r.kind),
    ("confidence", .float r.confidence), ("origin_id", .str r.originId), ("destination_id", .str r.destinationId)]

variable {σ : Type} (serde : Serde) (queries : Queries σ)

/-- The answer to `stats`. -/
def stats (r : SnapshotReader) : Except PyStr Json := .ok (.obj [("stats", statsJson serde r)])

/-- The answer to `query`. -/
def query (payload : Json) (term : PyStr) (r : SnapshotReader) : Except PyStr Json := do
  let receipt ← toReason (queries.queryFilteredAfter r term (optionalField payload "path")
    (optionalField payload "kind") (numberField payload "limit" 50) ((getField payload "cursor").bind asU64))
  let planner : List (PyStr × Json) := [("selected_index", .str receipt.selectedIndex),
    ("candidates_visited", .int receipt.candidatesVisited), ("records_decoded", .int receipt.recordsDecoded),
    ("next_cursor", (receipt.nextCursor.map Json.str).getD .null)]
  return .obj [("matches", .arr receipt.found), ("planner", .obj planner)]

/-- The answer to `relations`. -/
def relations (payload : Json) (r : SnapshotReader) : Except PyStr Json := do
  let limit := numberField payload "limit" 100
  let found ← toReason (do
    ensure (limit ≠ 0) "relation limit must be positive"
    relationSection serde (sectionBytes r.bytes (sectionOf r.sections "relations")) (optionalField payload "handle")
      (optionalField payload "kind") limit)
  return .obj [("relations", .arr (found.map relationJson)), ("planner", .obj [("records_decoded", .int found.length)])]

/-- The answer to `context`. -/
def context (sources : σ) (payload : Json) (root term : PyStr) (r : SnapshotReader) : Except PyStr Json := do
  let receipt ← toReason (queries.contextWithReceipt sources r root term (numberField payload "limit" 10)
    (numberField payload "max_lines" 120 % 2 ^ 32) (numberField payload "max_bytes" 32000)
    (numberField payload "max_tokens" 8000))
  let planner : List (PyStr × Json) := [("source_files_read", .int receipt.sourceFilesRead),
    ("source_cache_hits", .int receipt.sourceCacheHits), ("source_bytes_read", .int receipt.sourceBytesRead)]
  return .obj [("spans", .arr receipt.spans), ("planner", .obj planner)]

/-- The operation of `session_execute`, with its arguments. -/
def request (sources : σ) (value : Json) : Except PyStr Request := do
  let operation ← textField value "operation" "operation_missing"
  let payload ← ((getField value "payload").map Except.ok).getD (.error ("payload_missing" : PyStr))
  let generation := optionalField payload "generation"
  if operation = "stats" then
    let snapshot ← textField payload "snapshot" "snapshot_missing"
    return .read snapshot generation (stats serde)
  else if operation = "query" then
    let snapshot ← textField payload "snapshot" "snapshot_missing"
    let term ← textField payload "term" "term_missing"
    return .read snapshot generation (query queries payload term)
  else if operation = "relations" then
    let snapshot ← textField payload "snapshot" "snapshot_missing"
    return .read snapshot generation (relations serde payload)
  else if operation = "context" then
    let snapshot ← textField payload "snapshot" "snapshot_missing"
    let root ← textField payload "root" "root_missing"
    let term ← textField payload "term" "term_missing"
    return .read snapshot generation (context queries sources payload root term)
  else if operation = "session_cache_stats" then return .sessionCacheStats
  else .error "operation_unsupported"

/-! ## Sessions -/

/-- The readers that a session holds, by path. -/
abbrev Snapshots := Dict PyStr SnapshotReader

/-- The reader of the path that a session holds, or a new one that it then holds. -/
def resident (published : Dict PyStr Bytes) (snapshots : Snapshots) (path : PyStr) :
    Snapshots × Except PyStr SnapshotReader :=
  match snapshots.get? path with
  | some reader => (snapshots, .ok reader)
  | none => match openReader serde published path with
    | .error e => (snapshots, .error e.display)
    | .ok reader => (snapshots.set path reader, .ok reader)

def sessionSnapshot (published : Dict PyStr Bytes) (snapshots : Snapshots) (path : PyStr)
    (expectedGeneration : Option PyStr) : Snapshots × Except PyStr SnapshotReader :=
  let (snapshots, outcome) := resident serde published snapshots path
  (snapshots, do
    let reader ← outcome
    if expectedGeneration.all (· = reader.generation) then .ok reader else .error "generation_mismatch")

def sessionExecute (world : World σ) (snapshots : Snapshots) (value : Json) : Snapshots × Except PyStr Json :=
  match request serde queries world.sources value with
  | .error reason => (snapshots, .error reason)
  | .ok .sessionCacheStats => (snapshots, .ok (.obj [("snapshots", .int snapshots.entries.length)]))
  | .ok (.read path generation answer) =>
    let (snapshots, reader) := sessionSnapshot serde world.published snapshots path generation
    (snapshots, reader >>= answer)

/-- The value of a line, unless the line is too long or not JSON. -/
def frame (line : Bytes) : Option Json :=
  if line.length ≤ 1048576 then (PyStr.decode line).bind serde.fromStr else none

/-- A turn of the loop of `run_session`. -/
def respond (world : World σ) (snapshots : Snapshots) (line : Bytes) : Snapshots × Except PyStr Json :=
  match frame serde line with
  | none => (snapshots, .error "frame_invalid")
  | some value => sessionExecute serde queries world snapshots value

/-- A session in a world. -/
structure SessionRun (σ : Type) where
  world : World σ
  snapshots : Snapshots

namespace SessionRun

/-- What happens: a snapshot is published at a path, the source files change, or the session reads a line. -/
inductive Event (σ : Type)
  | publish (path : PyStr) (raw : Bytes)
  | edit (sources : σ)
  | line (line : Bytes)

def step (s : SessionRun σ) : Event σ → SessionRun σ
  | .publish path raw => { s with world := { s.world with published := s.world.published.set path raw } }
  | .edit sources => { s with world := { s.world with sources := sources } }
  | .line line => { s with snapshots := (respond serde queries s.world s.snapshots line).1 }

end SessionRun

end RustCore

end SimplicioFast
