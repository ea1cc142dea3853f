import SimplicioFast.Lib.Json
import SimplicioFast.Prism.Base

/-!
# The envelope of plugin contexts

The canonical text of a value, and the handles, budgets, requests and spans that a context packet is made of.
Only values of a bounded shape have a canonical text (`rejectPrivateFields`), and a handle carries the digest
of its own identity.
-/

namespace SimplicioFast

namespace PluginContext

/-- The exceptions of the plugin context. -/
inductive Raised
  | pluginContextError (reasonCode detail : PyStr)
  | keyError
deriving DecidableEq

/-- `PluginContextError(reason_code, detail)`, unless the condition holds. -/
def check (condition : Bool) (reasonCode : PyStr) (detail : PyStr) : Except Raised Unit :=
  if condition then .ok () else .error (.pluginContextError reasonCode detail)

def PACKET_SCHEMA : PyStr := "simplicio.plugin.context-packet/v1"

def HANDLE_SCHEMA : PyStr := "simplicio.plugin.context-handle/v1"

def PRIVATE_FIELDS : List PyStr := ["offset", "mmap_offset", "address", "pointer"]

def MAX_ENCODED_BYTES : ℕ := 8 * 1024 * 1024

def MAX_ITEMS : ℕ := 100000

def MAX_TEXT : ℕ := 4096

def SUMMARY_CHARS : ℕ := 160

/-! ## Canonical texts -/

mutual

/-- `_reject_private_fields`: the number of items counted so far, before and after the value. -/
def rejectPrivateFields (depth items : ℕ) : Json → Except Raised ℕ
  | .obj fs =>
    if 32 < depth then .error (.pluginContextError "payload_depth_limit" [])
    else if fs.any fun f => f.1 ∈ PRIVATE_FIELDS then .error (.pluginContextError "private_layout_field" [])
    else if MAX_ITEMS < items + fs.length then .error (.pluginContextError "payload_item_limit" [])
    else rejectFields (depth + 1) (items + fs.length) fs
  | .arr vs =>
    if 32 < depth then .error (.pluginContextError "payload_depth_limit" [])
    else if MAX_ITEMS < items + vs.length then .error (.pluginContextError "payload_item_limit" [])
    else rejectItems (depth + 1) (items + vs.length) vs
  | .str s =>
    if 32 < depth then .error (.pluginContextError "payload_depth_limit" [])
    else if MAX_TEXT < s.length then .error (.pluginContextError "payload_text_limit" [])
    else .ok items
  | _ => if 32 < depth then .error (.pluginContextError "payload_depth_limit" []) else .ok items

/-- `rejectPrivateFields` of every item. -/
def rejectItems (depth items : ℕ) : List Json → Except Raised ℕ
  | [] => .ok items
  | v :: vs => do
    let n ← rejectPrivateFields depth items v
    rejectItems depth n vs

/-- `rejectPrivateFields` of the value of a field. -/
def rejectField (depth items : ℕ) : PyStr × Json → Except Raised ℕ
  | (_, v) => rejectPrivateFields depth items v

/-- `rejectPrivateFields` of the value of every field. -/
def rejectFields (depth items : ℕ) : List (PyStr × Json) → Except Raised ℕ
  | [] => .ok items
  | f :: fs => do
    let n ← rejectField depth items f
    rejectFields depth n fs

end

/-- The text of `_canonical`. -/
def canonicalText (v : Json) : Bytes := PyStr.encodeAscii (v.dumps true)

def canonical (v : Json) : Except Raised Bytes := do
  let _ ← rejectPrivateFields 0 0 v
  check v.isFinite "payload_not_json" []
  return canonicalText v

def hexDigest (b : Bytes) : PyStr := PyStr.ofChars (Sha256.hexdigest b)

def digest (v : Json) : Except Raised PyStr := do
  let text ← canonical v
  return hexDigest text

/-! ## Texts and paths -/

/-- Whether `_required_text` accepts the text. -/
def isText (value : PyStr) : Bool := value.strip ≠ []

def requiredText (value reason : PyStr) : Except Raised Unit := check (isText value) reason []

def validateRelativePath (value : PyStr) : Except Raised PyStr := do
  check (isText value) "path_escape" value
  let normalized := value.map fun c => if c = .scalar '\\' then .scalar '/' else c
  let parts := Prism.parts normalized
  check (normalized.head? ≠ some (.scalar '/') && (".." : PyStr) ∉ parts && normalized ≠ [] &&
    normalized ≠ ".") "path_escape" value
  check (.scalar ':' ∉ parts.headD []) "path_escape" value
  return Prism.asPosix normalized

/-- `negotiate_abi`; the error leaves out the text of the version. -/
def negotiateAbi : Option JsonObject → Except Raised (ℤ × ℤ)
  | none => .ok (1, 0)
  | some requested =>
    match (requested.toJson.get? "major").getD (.int 1), (requested.toJson.get? "minor").getD (.int 0) with
    | .int major, .int minor =>
      if major = 1 ∧ 0 ≤ minor then .ok (1, 0)
      else .error (.pluginContextError "plugin_abi_unsupported" [])
    | _, _ => .error (.pluginContextError "plugin_abi_unsupported" [])

/-! ## Handles -/

/-- The fields of `PluginContextHandle.identity`. -/
def handleIdentity (handle generation sourceRef : PyStr) (overlayId : Option PyStr) : List (PyStr × Json) :=
  [("schema", .str HANDLE_SCHEMA), ("handle", .str handle), ("generation", .str generation),
    ("source_ref", .str sourceRef), ("overlay_id", Json.optStr overlayId)]

/-- `PluginContextHandle`: a handle with the digest of its identity. -/
structure PluginContextHandle where
  handle : PyStr
  generation : PyStr
  sourceRef : PyStr
  overlayId : Option PyStr
  digest : PyStr
  isText_handle : isText handle
  isText_generation : isText generation
  isText_sourceRef : isText sourceRef
  isText_overlayId : ∀ o ∈ overlayId, isText o
  sealed : PluginContext.digest (.obj (handleIdentity handle generation sourceRef overlayId)) = .ok digest

def PluginContextHandle.toDict (h : PluginContextHandle) : Json :=
  .obj (handleIdentity h.handle h.generation h.sourceRef h.overlayId ++
    [(("digest" : PyStr), Json.str h.digest)])

/-! ## Budgets and requests -/

/-- The fidelities. -/
inductive Fidelity
  | metadata
  | summary
  | exact
deriving DecidableEq

def Fidelity.name : Fidelity → PyStr
  | .metadata => "metadata"
  | .summary => "summary"
  | .exact => "exact"

/-- `PluginContextBudget`: bounds that are positive and within the limits of the envelope. -/
structure PluginContextBudget where
  maxBytes : ℕ
  maxItems : ℕ
  maxSpanBytes : ℕ
  fidelity : Fidelity
  positive : 0 < maxBytes ∧ 0 < maxItems ∧ 0 < maxSpanBytes
  bounded : maxBytes ≤ MAX_ENCODED_BYTES ∧ maxItems ≤ MAX_ITEMS

def PluginContextBudget.toDict (b : PluginContextBudget) : Json :=
  .obj [("max_bytes", .int b.maxBytes), ("max_items", .int b.maxItems),
    ("max_span_bytes", .int b.maxSpanBytes), ("fidelity", .str b.fidelity.name)]

/-- `PluginContextRequest`; `cancelled` holds what the callback answers the first and the second time. -/
structure PluginContextRequest where
  taskId : PyStr
  sessionId : PyStr
  handle : PluginContextHandle
  budget : PluginContextBudget
  requestedHandles : List PyStr
  expectedSourceHashes : Option (Dict PyStr PyStr)
  cancelled : Option (Bool × Bool)
  abi : Option JsonObject
  isText_taskId : isText taskId
  isText_sessionId : isText sessionId
  handles_ne_nil : ∀ h ∈ requestedHandles, h ≠ []
  negotiated : negotiateAbi abi = .ok (1, 0)

/-! ## Spans -/

structure SpanRecord where
  path : PyStr
  kind : PyStr
  startLine : ℤ
  endLine : ℤ
  startOffset : ℕ
  endOffset : ℕ

/-- `PluginContextSpan`; the ranges are only there for a span that has been cut. -/
structure PluginContextSpan where
  handle : PyStr
  path : PyStr
  kind : PyStr
  startLine : ℤ
  endLine : ℤ
  sourceSha256 : PyStr
  byteLength : ℕ
  text : Option PyStr
  overlayId : Option PyStr
  requestedStartLine : ℤ
  requestedEndLine : ℤ
  startByte : ℕ
  endByte : ℕ
  contentSha256 : PyStr
  truncated : Bool
  omittedRanges : List (ℤ × ℤ)

/-- The fields that `to_dict` adds for a span that has been cut. -/
def PluginContextSpan.cutFields (s : PluginContextSpan) : List (PyStr × Json) :=
  [("requested_start_line", .int s.requestedStartLine), ("requested_end_line", .int s.requestedEndLine),
    ("start_byte", .int s.startByte), ("end_byte", .int s.endByte),
    ("content_sha256", .str s.contentSha256),
    ("fidelity", .str (if s.truncated then "partial" else "complete")),
    ("omitted_ranges", .arr (s.omittedRanges.map fun r => .arr [.int r.1, .int r.2])),
    ("needs_broader_context", .bool s.truncated)]

/-- The fields that `to_dict` gives for every span. -/
def PluginContextSpan.baseFields (s : PluginContextSpan) : List (PyStr × Json) :=
  [("handle", .str s.handle), ("path", .str s.path), ("kind", .str s.kind),
    ("start_line", .int s.startLine), ("end_line", .int s.endLine),
    ("source_sha256", .str s.sourceSha256), ("byte_length", .int s.byteLength),
    ("text", Json.optStr s.text), ("overlay_id", Json.optStr s.overlayId)]

def PluginContextSpan.toDict (s : PluginContextSpan) : Json :=
  .obj (s.baseFields ++ if s.truncated || s.omittedRanges ≠ [] then s.cutFields else [])

/-! ## Decoding -/

def replacement : PyChar := .scalar (Char.ofNat 0xFFFD)

/-- How many bytes at the front of the text belong together: a whole sequence, with its code point, or the part
of a sequence that an error replaces. -/
def decodeOne : Bytes → Option ℕ × ℕ
  | [] => (none, 0)
  | b₀ :: rest =>
    let n₀ := b₀.toNat
    if n₀ < 0x80 then (some n₀, 1)
    else if n₀ < 0xC2 ∨ 0xF5 ≤ n₀ then (none, 1)
    else match rest with
    | [] => (none, 1)
    | b₁ :: rest =>
      let n₁ := b₁.toNat
      if ¬ PyStr.isTail b₁ ∨ n₀ = 0xE0 ∧ n₁ < 0xA0 ∨ n₀ = 0xED ∧ 0xA0 ≤ n₁ ∨ n₀ = 0xF0 ∧ n₁ < 0x90 ∨
          n₀ = 0xF4 ∧ 0x90 ≤ n₁ then (none, 1)
      else if n₀ < 0xE0 then (some ((n₀ - 0xC0) * 64 + (n₁ - 0x80)), 2)
      else match rest with
      | [] => (none, 2)
      | b₂ :: rest =>
        let n₂ := b₂.toNat
        if ¬ PyStr.isTail b₂ then (none, 2)
        else if n₀ < 0xF0 then (some ((n₀ - 0xE0) * 4096 + (n₁ - 0x80) * 64 + (n₂ - 0x80)), 3)
        else match rest with
        | [] => (none, 3)
        | b₃ :: _ =>
          if ¬ PyStr.isTail b₃ then (none, 3)
          else (some ((n₀ - 0xF0) * 262144 + (n₁ - 0x80) * 4096 + (n₂ - 0x80) * 64 + (b₃.toNat - 0x80)), 4)

/-- The code points of a text of at most `fuel` bytes. -/
def decodeFrom : ℕ → Bytes → PyStr
  | 0, _ => []
  | _ + 1, [] => []
  | fuel + 1, b :: rest =>
    match decodeOne (b :: rest) with
    | (some code, used) => .scalar (Char.ofNat code) :: decodeFrom fuel (rest.drop (used - 1))
    | (none, used) => replacement :: decodeFrom fuel (rest.drop (used - 1))

/-- `b.decode("utf-8", "replace")`. -/
def decodeReplace (b : Bytes) : PyStr := decodeFrom b.length b

end PluginContext

end SimplicioFast
