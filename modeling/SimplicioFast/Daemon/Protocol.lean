import SimplicioFast.Lib.Sha256
import SimplicioFast.Lib.JsonCanonical
import SimplicioFast.Lib.Machine

/-!
# Requests and responses of the resident daemon

`DaemonRequest.parse` checks a request that a client has sent, and a worker answers it with a response that carries the
digest of its own text.
-/

namespace SimplicioFast

namespace Daemon

/-- The exceptions that a request can end with.  Those of the handler and of the generation opener are numbered. -/
inductive Failure
  | daemonError (reasonCode detail : PyStr)
  | unicodeEncodeError
  | raised (exception : ℕ)
deriving DecidableEq

namespace Failure

/-- `DaemonError(reason_code)`. -/
def reason (reasonCode : PyStr) : Failure := .daemonError reasonCode []

/-- `DaemonError("request_cancelled")`. -/
def requestCancelled : Failure := reason "request_cancelled"

end Failure

def PROTOCOL_SCHEMA : PyStr := "simplicio.fast-daemon-request/v1"

def RESPONSE_SCHEMA : PyStr := "simplicio.fast-daemon-response/v1"

def maxRequestIdBytes : ℕ := 256

def maxSlotIdBytes : ℕ := 256

def maxOperationBytes : ℕ := 128

def maxPayloadBytes : ℕ := 256 * 1024

def forbiddenFields : List PyStr := ["offset", "mmap_offset", "address", "pointer"]

structure DaemonRequest where
  requestId : PyStr
  slotId : PyStr
  operation : PyStr
  generation : ℕ
  deadlineNs : ℕ
  payload : List (PyStr × Json)

mutual

def containsForbiddenField : Json → Bool
  | .arr vs => itemsForbidden vs
  | .obj fs => fieldsForbidden fs
  | _ => false

/-- `_contains_forbidden_field` of some item. -/
def itemsForbidden : List Json → Bool
  | [] => false
  | v :: vs => containsForbiddenField v || itemsForbidden vs

/-- Some key is forbidden, or `_contains_forbidden_field` of some value. -/
def fieldsForbidden : List (PyStr × Json) → Bool
  | [] => false
  | f :: fs => fieldForbidden f || fieldsForbidden fs

/-- The key is forbidden, or `_contains_forbidden_field` of the value. -/
def fieldForbidden : PyStr × Json → Bool
  | (k, v) => k ∈ forbiddenFields || containsForbiddenField v

end

/-- `value.get(key) in (None, "")`. -/
def isMissing (fs : List (PyStr × Json)) (key : PyStr) : Bool :=
  match Dict.find fs key with
  | none => true
  | some .null => true
  | some (.str []) => true
  | some _ => false

/-- A text that is not blank and has at most `bound` bytes. -/
def checkName (value : Option Json) (bound : ℕ) : Except Failure PyStr :=
  match value with
  | some (.str s) =>
    if s.strip = [] then .error (.reason "protocol_field_invalid")
    else match s.encode with
      | none => .error .unicodeEncodeError
      | some b => if bound < b.length then .error (.reason "protocol_field_invalid") else .ok s
  | _ => .error (.reason "protocol_field_invalid")

/-- An integer that is at least `bound`, and not a Boolean. -/
def checkNumber (value : Option Json) (bound : ℕ) : Except Failure ℕ :=
  match value with
  | some (.int n) => if n < bound then .error (.reason "protocol_field_invalid") else .ok n.toNat
  | _ => .error (.reason "protocol_field_invalid")

/-- The payload, which is the empty dictionary when it is not given. -/
def checkPayload (value : Option Json) : Except Failure (List (PyStr × Json)) :=
  match value.getD (.obj []) with
  | .obj payload =>
    if fieldsForbidden payload then .error (.reason "protocol_exposes_offset")
    else if (Json.obj payload).isFinite = false then .error (.reason "protocol_payload_invalid")
    else if maxPayloadBytes < ((Json.obj payload).dumps true).length then
      .error (.reason "protocol_payload_too_large")
    else .ok payload
  | _ => .error (.reason "protocol_payload_invalid")

def parse (value : Json) : Except Failure DaemonRequest :=
  match value with
  | .obj fs => do
    if (match Dict.find fs "schema" with
        | some v => v.pyEq (.str PROTOCOL_SCHEMA)
        | none => false) = false then
      .error (.reason "protocol_schema_invalid")
    else if (["request_id", "slot_id", "operation", "generation", "deadline_ns"] : List PyStr).any (isMissing fs) then
      .error (.reason "protocol_field_missing")
    else do
      let requestId ← checkName (Dict.find fs "request_id") maxRequestIdBytes
      let slotId ← checkName (Dict.find fs "slot_id") maxSlotIdBytes
      let operation ← checkName (Dict.find fs "operation") maxOperationBytes
      let generation ← checkNumber (Dict.find fs "generation") 0
      let deadlineNs ← checkNumber (Dict.find fs "deadline_ns") 1
      let payload ← checkPayload (Dict.find fs "payload")
      return ⟨requestId, slotId, operation, generation, deadlineNs, payload⟩
  | _ => .error (.reason "protocol_request_invalid")

/-- The bounds and the callbacks that a daemon is made with.  A bound below one raises `ValueError`. -/
structure Config where
  maxInflight : ℕ
  queueCapacity : ℕ
  /-- There is a `generation_opener`. -/
  hasOpener : Bool
  /-- There is a `generation_closer`. -/
  hasCloser : Bool
  backend : PyStr := "python"
  rustReason : Option PyStr := some "RUST_UNAVAILABLE"
  maxInflight_pos : 0 < maxInflight
  queueCapacity_pos : 0 < queueCapacity

/-- The response to a request, without its digest. -/
def unsignedFields (cfg : Config) (epoch : ℕ) (request : DaemonRequest) (result : List (PyStr × Json)) (latencyNs : ℕ) :
    List (PyStr × Json) :=
  [("schema", .str RESPONSE_SCHEMA), ("request_id", .str request.requestId), ("slot_id", .str request.slotId),
    ("generation", .int request.generation), ("status", .str "COMPLETED"), ("result", .obj result),
    ("daemon_epoch", .int epoch), ("backend", .str cfg.backend), ("backend_null_reason", Json.optStr cfg.rustReason),
    ("latency_ns", .int latencyNs), ("completion_authority", .str "LOOP_ONLY"), ("local_llm", .bool false)]

def digest (value : Json) : PyStr := PyStr.ofChars (Sha256.hexdigest (PyStr.encodeAscii (value.dumps true)))

def response (cfg : Config) (epoch : ℕ) (request : DaemonRequest) (result : List (PyStr × Json)) (latencyNs : ℕ) : Json :=
  let unsigned := unsignedFields cfg epoch request result latencyNs
  .obj (unsigned ++ [(("receipt_digest" : PyStr), Json.str (digest (.obj unsigned)))])

end Daemon

end SimplicioFast
