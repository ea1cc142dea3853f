import SimplicioFast.Plugin.Envelope

/-!
# The store of plugin contexts

`PluginContextStore` keeps generations of files, overlays over them, the generation that each session is pinned
to, and the packets compiled so far, by the digest of everything that a packet depends on.  A packet carries the
digest of its other fields; `verify_packet` computes that digest again.

The clock and the counters of the store are left out.
-/

namespace SimplicioFast

namespace PluginContext

/-! ## Generations -/

structure GenerationRecord where
  generation : PyStr
  repo : PyStr
  commit : PyStr
  files : Dict PyStr Bytes
  hashes : Dict PyStr PyStr
  spans : Dict PyStr SpanRecord
  digest : PyStr

/-- What a caller gives for a span, with the defaults of `_index_spans`. -/
structure SpanSpec where
  path : PyStr := []
  kind : PyStr := "file"
  startLine : ℤ := 1
  endLine : ℤ := 1
  startOffset : ℤ := 0
  endOffset : Option ℤ := none

/-- The loop of `load_generation` over the files. -/
def storeFiles : List (PyStr × Bytes) → Dict PyStr Bytes → Except Raised (Dict PyStr Bytes)
  | [], stored => .ok stored
  | (rawPath, blob) :: rest, stored => do
    let path ← validateRelativePath rawPath
    storeFiles rest (stored.set path blob)

/-- One turn of the loop of `_index_spans` over the given spans. -/
def indexSpan (files : Dict PyStr Bytes) (handle : PyStr) (spec : SpanSpec) : Except Raised SpanRecord := do
  requiredText handle "handle_missing"
  let path ← validateRelativePath spec.path
  match files.get? path with
  | none => .error (.pluginContextError "slice_missing" path)
  | some blob =>
    let stop := spec.endOffset.getD blob.length
    check (0 ≤ spec.startOffset && spec.startOffset ≤ stop && stop ≤ blob.length) "slice_missing" handle
    return ⟨path, spec.kind, spec.startLine, spec.endLine, spec.startOffset.toNat, stop.toNat⟩

/-- The loop of `_index_spans` over the given spans. -/
def indexGiven (files : Dict PyStr Bytes) :
    List (PyStr × SpanSpec) → Dict PyStr SpanRecord → Except Raised (Dict PyStr SpanRecord)
  | [], index => .ok index
  | (handle, spec) :: rest, index => do
    let record ← indexSpan files handle spec
    indexGiven files rest (index.set handle record)

def countLines (b : Bytes) : ℕ := b.count 10

/-- Whether the text ends with a line feed. -/
def endsLine (b : Bytes) : Bool := b.getLast? = some 10

/-- The span of a whole file, with the lines of `_line_span`. -/
def wholeFile (path : PyStr) (blob : Bytes) : SpanRecord where
  path := path
  kind := "file"
  startLine := 1
  endLine := if blob = [] then 1 else countLines blob + if endsLine blob then 0 else 1
  startOffset := 0
  endOffset := blob.length

def indexSpans (files : Dict PyStr Bytes) (spans : Option (Dict PyStr SpanSpec)) :
    Except Raised (Dict PyStr SpanRecord) :=
  match (spans.map Dict.entries).getD [] with
  | [] => .ok (files.entries.foldl (fun index f => index.set ("plugin:" ++ f.1) (wholeFile f.1 f.2)) .empty)
  | given => indexGiven files given .empty

def textsJson (d : Dict PyStr PyStr) : Json := .obj (d.entries.map fun e => (e.1, .str e.2))

def hashesOf (files : Dict PyStr Bytes) : Dict PyStr PyStr :=
  files.entries.foldl (fun hashes f => hashes.set f.1 (hexDigest f.2)) .empty

def generationRecord (generation repo commit : PyStr) (files : Dict PyStr Bytes)
    (spans : Option (Dict PyStr SpanSpec)) : Except Raised GenerationRecord := do
  requiredText generation "generation_missing"
  requiredText repo "generation_tampered"
  requiredText commit "generation_tampered"
  check (files.entries ≠ []) "generation_missing" "files"
  let stored ← storeFiles files.entries .empty
  let index ← indexSpans stored spans
  let hashes := hashesOf stored
  let digest ← digest (.obj [("generation", .str generation), ("repo", .str repo), ("commit", .str commit),
    ("hashes", textsJson hashes), ("handles", .arr ((PyStr.sortedSet index.keys).map .str))])
  return ⟨generation, repo, commit, stored, hashes, index, digest⟩

/-! ## Packets -/

/-- The fields of a packet before it is measured and sealed. -/
structure Body where
  taskId : PyStr
  sessionId : PyStr
  handle : PluginContextHandle
  generation : PyStr
  overlayId : Option PyStr
  repo : PyStr
  sourceHashes : Dict PyStr PyStr
  generationDigest : PyStr
  spans : List PluginContextSpan
  cacheStatus : PyStr
  truncated : Bool
  truncationReasons : List PyStr
  budget : PluginContextBudget

/-- `_payload`. -/
def payloadOf (spans : List PluginContextSpan) : Fidelity → Json
  | .metadata => .obj [("handles", .arr (spans.map fun s => .str s.handle)),
      ("paths", .arr (spans.map fun s => .str s.path)),
      ("source_hashes", .arr (spans.map fun s => .str s.sourceSha256))]
  | .summary => .obj [("items", .arr (spans.map fun s => .obj [("handle", .str s.handle),
      ("path", .str s.path), ("byte_length", .int s.byteLength), ("preview", Json.optStr s.text)]))]
  | .exact => .obj [("spans", .arr (spans.map PluginContextSpan.toDict))]

/-- The fields before `cache_status`. -/
def Body.before (b : Body) : List (PyStr × Json) :=
  [("schema", .str PACKET_SCHEMA), ("abi", .obj [("major", .int 1), ("minor", .int 0)]),
    ("task_id", .str b.taskId), ("session_id", .str b.sessionId), ("handle", b.handle.toDict),
    ("generation", .str b.generation), ("base_generation", .str b.generation),
    ("overlay_id", Json.optStr b.overlayId), ("repo", .str b.repo),
    ("source_ref", .str b.handle.sourceRef), ("source_hashes", textsJson b.sourceHashes),
    ("generation_digest", .str b.generationDigest),
    ("spans", .arr (b.spans.map PluginContextSpan.toDict)),
    ("payload", payloadOf b.spans b.budget.fidelity),
    ("provenance", .obj [("producer", .str "simplicio-fast"), ("authority", .str "derived_read_only"),
      ("mapper_handle", .str b.handle.handle), ("writes", .bool false), ("instructions", .bool false)])]

/-- The fields behind `cache_status`. -/
def Body.behind (b : Body) : List (PyStr × Json) :=
  [("truncated", .bool b.truncated), ("truncation_reasons", .arr (b.truncationReasons.map .str)),
    ("completeness", .str (if b.truncated then "partial" else "complete")),
    ("fidelity", .str b.budget.fidelity.name), ("budget", b.budget.toDict)]

/-- The fields of the body, in the order of the source. -/
def Body.fields (b : Body) : List (PyStr × Json) :=
  b.before ++ (("cache_status" : PyStr), Json.str b.cacheStatus) :: b.behind

/-- A packet. -/
structure Packet where
  body : Body
  encodedBytes : ℕ
  packetHash : PyStr

/-- The fields that the packet hash is about. -/
def Packet.unsigned (p : Packet) : List (PyStr × Json) :=
  p.body.fields ++ [(("encoded_bytes" : PyStr), Json.int p.encodedBytes)]

def Packet.fields (p : Packet) : List (PyStr × Json) :=
  p.unsigned ++ [(("packet_hash" : PyStr), Json.str p.packetHash)]

/-- The packet with `packet["cache_status"] = "warm"`. -/
def Packet.warm (p : Packet) : Packet := { p with body := { p.body with cacheStatus := "warm" } }

/-- `verify_packet`, without an expected generation. -/
def verifyPacket (packet : List (PyStr × Json)) : Except Raised Unit := do
  match Dict.find packet "schema" with
  | some (.str schema) => check (schema = PACKET_SCHEMA) "packet_schema_invalid" []
  | _ => check false "packet_schema_invalid" []
  let computed ← digest (.obj (packet.filter fun f => f.1 ≠ "packet_hash"))
  match (Dict.find packet "packet_hash").getD (.str []) with
  | .str supplied => check (supplied = computed) "packet_corrupt" supplied
  | _ => check false "packet_corrupt" []
  let provenance := Json.obj (match Dict.find packet "provenance" with
    | some (.obj fields) => fields
    | _ => [])
  check (match provenance.get? "writes" with
    | some (.bool false) => true
    | _ => false) "packet_corrupt" "writes"
  check (match provenance.get? "authority" with
    | some (.str authority) => authority = "derived_read_only"
    | _ => false) "packet_corrupt" "authority"
  let _ ← rejectPrivateFields 0 0 ((Dict.find packet "payload").getD .null)
  return ()

/-! ## The store -/

structure PluginContextStore where
  generations : Dict PyStr GenerationRecord
  overlays : Dict (PyStr × PyStr) (Dict PyStr (Option Bytes))
  pins : Dict (PyStr × PyStr) PyStr
  cache : Dict PyStr Packet
  cacheDeps : Dict PyStr (List PyStr)

namespace PluginContextStore

/-- `PluginContextStore()`. -/
def new : PluginContextStore := ⟨.empty, .empty, .empty, .empty, .empty⟩

variable (s : PluginContextStore)

def loadGeneration (generation repo commit : PyStr) (files : Dict PyStr Bytes)
    (spans : Option (Dict PyStr SpanSpec)) : Except Raised PyStr × PluginContextStore :=
  match generationRecord generation repo commit files spans with
  | .error x => (.error x, s)
  | .ok record =>
    if (s.generations.get? generation).any fun existing => existing.digest ≠ record.digest then
      (.error (.pluginContextError "generation_tampered" generation), s)
    else (.ok record.digest, { s with generations := s.generations.set generation record })

/-- The checks of `pin`. -/
def checkPin (taskId sessionId generation : PyStr) : Except Raised Unit := do
  requiredText taskId "handle_missing"
  requiredText sessionId "handle_missing"
  requiredText generation "generation_missing"
  check (s.generations.get? generation).isSome "generation_missing" generation
  match s.pins.get? (taskId, sessionId) with
  | some current => check (current = generation) "generation_stale" current
  | none => .ok ()

def pin (taskId sessionId generation : PyStr) : Except Raised PyStr × PluginContextStore :=
  match s.checkPin taskId sessionId generation with
  | .error x => (.error x, s)
  | .ok () => (.ok generation, { s with pins := s.pins.set (taskId, sessionId) generation })

/-- The checks of `apply_overlay`. -/
def checkOverlay (generation overlayId : PyStr) : Except Raised Unit := do
  requiredText generation "generation_missing"
  requiredText overlayId "overlay_escape"
  check (s.generations.get? generation).isSome "generation_missing" generation

/-- The loop of `apply_overlay`, and the overlay that it leaves when it raises. -/
def overlayFiles : List (PyStr × Option Bytes) → Dict PyStr (Option Bytes) →
    Except Raised Unit × Dict PyStr (Option Bytes)
  | [], overlay => (.ok (), overlay)
  | (rawPath, payload) :: rest, overlay => match validateRelativePath rawPath with
    | .error x => (.error x, overlay)
    | .ok path => overlayFiles rest (overlay.set path payload)

def overlayDigest (overlay : Dict PyStr (Option Bytes)) : Except Raised PyStr :=
  digest (.obj (overlay.entries.map fun e => (e.1, Json.optStr (e.2.map hexDigest))))

def applyOverlay (generation overlayId : PyStr) (files : Dict PyStr (Option Bytes)) :
    Except Raised PyStr × PluginContextStore :=
  match s.checkOverlay generation overlayId with
  | .error x => (.error x, s)
  | .ok () =>
    let overlay := (s.overlays.get? (generation, overlayId)).getD .empty
    let written := overlayFiles files.entries overlay
    ((do
      written.1
      overlayDigest written.2), { s with overlays := s.overlays.set (generation, overlayId) written.2 })

/-- `invalidate`: the keys of the packets that depend on one of the paths. -/
def invalidate (changed : List PyStr) : Except Raised (List PyStr) × PluginContextStore :=
  match changed.mapM validateRelativePath with
  | .error x => (.error x, s)
  | .ok paths =>
    let doomed := (s.cacheDeps.entries.filter fun e => e.2.any (· ∈ paths)).map Prod.fst
    (.ok (PyStr.sortedSet doomed),
      { s with cache := doomed.foldl Dict.erase s.cache, cacheDeps := doomed.foldl Dict.erase s.cacheDeps })

/-! ## Compiling -/

/-- The files and their digests behind an overlay. -/
structure View where
  files : Dict PyStr Bytes
  hashes : Dict PyStr PyStr

/-- One turn of the loop of `_materialize_view`. -/
def View.overlay (view : View) (path : PyStr) : Option Bytes → View
  | none => ⟨view.files.erase path, view.hashes.erase path⟩
  | some payload => ⟨view.files.set path payload, view.hashes.set path (hexDigest payload)⟩

def materializeView (record : GenerationRecord) : Option PyStr → Except Raised View
  | none => .ok ⟨record.files, record.hashes⟩
  | some overlayId => match s.overlays.get? (record.generation, overlayId) with
    | none => .error (.pluginContextError "overlay_escape" overlayId)
    | some overlay =>
      .ok (overlay.entries.foldl (fun view e => view.overlay e.1 e.2) ⟨record.files, record.hashes⟩)

def raiseIfCancelled (answer : Bool) : Except Raised Unit := check (!answer) "cancellation_requested" []

/-- The pinned generation of the request. -/
def pinnedRecord (request : PluginContextRequest) : Except Raised GenerationRecord :=
  match s.pins.get? (request.taskId, request.sessionId) with
  | none => .error (.pluginContextError "generation_missing" "unpinned")
  | some pinned =>
    if pinned ≠ request.handle.generation then
      .error (.pluginContextError "generation_stale" request.handle.generation)
    else match s.generations.get? pinned with
      | none => .error (.pluginContextError "generation_missing" pinned)
      | some record => .ok record

/-- The expected digests by their normalized paths. -/
def expectedHashes : List (PyStr × PyStr) → Dict PyStr PyStr → Except Raised (Dict PyStr PyStr)
  | [], expected => .ok expected
  | (path, digest) :: rest, expected => do
    let path ← validateRelativePath path
    expectedHashes rest (expected.set path digest)

/-- The comparison of the expected digests with those of the view. -/
def checkExpected (request : PluginContextRequest) (view : View) : Except Raised Unit :=
  match request.expectedSourceHashes with
  | none => .ok ()
  | some given => do
    let expected ← expectedHashes given.entries .empty
    if expected.keys.any fun path => (view.hashes.get? path).isNone then .error .keyError
    else check (expected.entries.all fun e => view.hashes.get? e.1 = some e.2) "source_hash_mismatch" []

/-- The value whose digest is the cache key. -/
def keyMaterial (request : PluginContextRequest) (record : GenerationRecord) (view : View) : Json :=
  .obj [("task_id", .str request.taskId), ("session_id", .str request.sessionId),
    ("handle", request.handle.toDict), ("budget", request.budget.toDict),
    ("requested", .arr (request.requestedHandles.map .str)), ("generation", .str record.digest),
    ("hashes", textsJson view.hashes)]

/-- What `compile` has found when it looks into the cache. -/
structure Located where
  record : GenerationRecord
  view : View
  cacheKey : PyStr

/-- The part of `compile` before the cache. -/
def locate (request : PluginContextRequest) : Except Raised Located := do
  raiseIfCancelled ((request.cancelled.map Prod.fst).getD false)
  let _ ← negotiateAbi request.abi
  let record ← s.pinnedRecord request
  let view ← s.materializeView record request.handle.overlayId
  checkExpected request view
  let cacheKey ← digest (keyMaterial request record view)
  return ⟨record, view, cacheKey⟩

def selectHandles (record : GenerationRecord) (request : PluginContextRequest) : Except Raised (List PyStr) :=
  if request.requestedHandles ≠ [] then
    match request.requestedHandles.find? fun h => (record.spans.get? h).isNone with
    | some missing => .error (.pluginContextError "handle_missing" missing)
    | none => .ok request.requestedHandles
  else if (record.spans.get? request.handle.handle).isSome then .ok [request.handle.handle]
  else if request.budget.fidelity = .metadata then .ok (PyStr.sortedSet record.spans.keys)
  else .error (.pluginContextError "handle_missing" request.handle.handle)

def rendered (text : Bytes) : Fidelity → Option PyStr
  | .exact => some (decodeReplace text)
  | .summary => some (decodeReplace (text.take SUMMARY_CHARS))
  | .metadata => none

/-- The bytes that the shown text takes. -/
def payloadBytes (text : Option PyStr) : ℕ := ((text.bind PyStr.encode).map List.length).getD 0

/-- The span of a record, with the text of `text`. -/
def spanOf (handle : PyStr) (spec : SpanRecord) (blob text : Bytes) (truncated : Bool)
    (budget : PluginContextBudget) (overlayId : Option PyStr) : PluginContextSpan where
  handle := handle
  path := spec.path
  kind := spec.kind
  startLine := spec.startLine
  endLine := spec.startLine + countLines text - if endsLine text then 1 else 0
  sourceSha256 := hexDigest blob
  byteLength := text.length
  text := rendered text budget.fidelity
  overlayId := overlayId
  requestedStartLine := spec.startLine
  requestedEndLine := spec.endLine
  startByte := spec.startOffset
  endByte := spec.startOffset + text.length
  contentSha256 := hexDigest text
  truncated := truncated
  omittedRanges :=
    if truncated ∧ text ≠ [] then [(spec.startLine + countLines text, spec.endLine)] else []

/-- The loop of `_bound_spans`, with the spans, the reasons and the bytes so far. -/
def boundFrom (record : GenerationRecord) (view : View) (budget : PluginContextBudget)
    (overlayId : Option PyStr) : List PyStr → List PluginContextSpan → List PyStr → ℕ →
      Except Raised (List PluginContextSpan × List PyStr)
  | [], spans, reasons, _ => .ok (spans, reasons)
  | handle :: rest, spans, reasons, used =>
    if budget.maxItems ≤ spans.length then .ok (spans, reasons ++ [("item_budget" : PyStr)])
    else match record.spans.get? handle with
      | none => .error (.pluginContextError "handle_missing" handle)
      | some spec => match view.files.get? spec.path with
        | none => .error (.pluginContextError "slice_missing" spec.path)
        | some blob =>
          let whole := (blob.take spec.endOffset).drop spec.startOffset
          let truncated := budget.maxSpanBytes < whole.length
          let text := if truncated then whole.take budget.maxSpanBytes else whole
          let reasons := if truncated then reasons ++ [("span_budget" : PyStr)] else reasons
          let bytes := payloadBytes (rendered text budget.fidelity)
          if budget.maxBytes < used + bytes then .ok (spans, reasons ++ [("byte_budget" : PyStr)])
          else boundFrom record view budget overlayId rest
            (spans ++ [spanOf handle spec blob text truncated budget overlayId]) reasons (used + bytes)

/-- The body of a packet before the budget of the encoding. -/
def bodyOf (request : PluginContextRequest) (record : GenerationRecord) (spans : List PluginContextSpan)
    (reasons : List PyStr) : Body where
  taskId := request.taskId
  sessionId := request.sessionId
  handle := request.handle
  generation := record.generation
  overlayId := request.handle.overlayId
  repo := record.repo
  sourceHashes := spans.foldl (fun hashes s => hashes.set s.path s.sourceSha256) .empty
  generationDigest := record.digest
  spans := spans
  cacheStatus := "cold"
  truncated := reasons ≠ []
  truncationReasons := reasons
  budget := request.budget

/-- The loop that drops the last span while the encoding is too long, and the length of the encoding; the last
argument holds the spans of the body, the last one first. -/
def trim (maxBytes : ℕ) (reasons : List PyStr) (body : Body) : List PluginContextSpan → Except Raised (Body × ℕ)
  | [] => do
    let encoded ← canonical (.obj body.fields)
    return (body, encoded.length)
  | _ :: rest => do
    let encoded ← canonical (.obj body.fields)
    if maxBytes < encoded.length then
      trim maxBytes reasons { body with
        spans := rest.reverse
        truncated := true
        truncationReasons := PyStr.sortedSet (reasons ++ [("byte_budget" : PyStr)]) } rest
    else return (body, encoded.length)

/-- The part of `compile` behind the cache: a new packet. -/
def assemble (request : PluginContextRequest) (found : Located) : Except Raised Packet := do
  raiseIfCancelled ((request.cancelled.map Prod.snd).getD false)
  let selected ← selectHandles found.record request
  let (spans, reasons) ←
    boundFrom found.record found.view request.budget request.handle.overlayId selected [] [] 0
  let reasons := PyStr.sortedSet reasons
  let (body, encoded) ←
    trim request.budget.maxBytes reasons (bodyOf request found.record spans reasons) spans.reverse
  check (encoded ≤ request.budget.maxBytes) "budget_invalid" "packet exceeds max_bytes"
  let hash ← digest (.obj (body.fields ++ [(("encoded_bytes" : PyStr), Json.int encoded)]))
  return ⟨body, encoded, hash⟩

def compile (request : PluginContextRequest) : Except Raised Packet × PluginContextStore :=
  match s.locate request with
  | .error x => (.error x, s)
  | .ok found => match s.cache.get? found.cacheKey with
    | some cached => (.ok cached.warm, s)
    | none => match assemble request found with
      | .error x => (.error x, s)
      | .ok packet => (.ok packet,
          { s with
            cache := s.cache.set found.cacheKey packet
            cacheDeps := s.cacheDeps.set found.cacheKey packet.body.sourceHashes.keys })

end PluginContextStore

end PluginContext

end SimplicioFast
