import SimplicioFast.Lib.Conversions
import SimplicioFast.Lib.FileSystem
import SimplicioFast.Lib.JsonObject
import SimplicioFast.Lib.Machine
import SimplicioFast.Lib.Sha256

/-!
# Envelopes and receipts of slots

`validate_envelope` admits an envelope whose required values are there and whose idempotency key is the digest of what
identifies the work.  An execution is told in a receipt, which is sealed with its own digest, and `verify_receipt`
compares a receipt with an envelope.

`int` and `str` of JSON values are parameters, and so is the equality of the values that two dictionaries hold: whether a
list that holds a NaN equals itself depends on whether the two hold the same object.
-/

namespace SimplicioFast

namespace Slots

theorem ne_nil_i : ("i" : PyStr) ≠ [] := by decide

theorem ne_nil_c : ("c" : PyStr) ≠ [] := by decide

theorem ne_nil_h : ("h" : PyStr) ≠ [] := by decide

/-- The exceptions of the executor; `typeOrValueError` is what `verify_receipt` catches of Python's own. -/
inductive SlotRaised
  | fastExecutor (reasonCode detail : PyStr)
  | keyError
  | typeOrValueError
  | overflowError
  | attributeError
  | os (e : OsError)
deriving DecidableEq

def ENVELOPE_SCHEMA : PyStr := "simplicio.fast-slot-envelope/v1"

def RECEIPT_SCHEMA : PyStr := "simplicio.fast-slot-receipt/v1"

def REQUIRED_HASHES : List PyStr := ["source_hash", "tool_hash", "config_hash", "contract_hash"]

def canonical (value : Json) : Bytes := PyStr.encodeAscii (Json.dumps true value)

def digest (value : Json) : PyStr := PyStr.ofChars (Sha256.hexdigest (canonical value))

def isText (s : PyStr) : Json → Bool
  | .str t => t = s
  | _ => false

/-! ## Envelopes -/

/-- Whether the value is not in `(None, "")`. -/
def isFilled : Json → Bool
  | .null => false
  | .str s => s ≠ []
  | _ => true

/-- A value under a required key: neither `None` nor empty. -/
structure Identifier where
  value : Json
  distinct : value.DistinctKeys
  filled : isFilled value = true

def identifier? (m : JsonObject) (k : PyStr) : Option Identifier :=
  match found : m.get? k with
  | some v => if filled : isFilled v = true then some ⟨v, JsonObject.distinct_of_get? found, filled⟩ else none
  | none => none

/-- What `validate_envelope` returns, as far as it is used. -/
structure Envelope where
  runId : Identifier
  slotId : Identifier
  issueId : Identifier
  commit : Identifier
  generation : ℤ
  fence : Identifier
  sourceHash : Identifier
  toolHash : Identifier
  configHash : Identifier
  contractHash : Identifier
  maxOperations : ℤ
  generation_nonneg : 0 ≤ generation
  maxOperations_pos : 0 < maxOperations

namespace Envelope

variable (env : Envelope)

def bindings : List (PyStr × Json) := [("source_hash", env.sourceHash.value), ("tool_hash", env.toolHash.value),
  ("config_hash", env.configHash.value), ("contract_hash", env.contractHash.value)]

/-- What the idempotency key is the digest of. -/
def identity : Json :=
  let bound : List (PyStr × Json) := [("run_id", env.runId.value), ("slot_id", env.slotId.value),
    ("issue_id", env.issueId.value), ("commit", env.commit.value), ("generation", .int env.generation),
    ("fence", env.fence.value)]
  .obj (bound ++ env.bindings)

/-- The idempotency key of an admitted envelope. -/
def idempotencyKey : PyStr := digest env.identity

/-- The values that a receipt is compared with. -/
def compared : List (PyStr × Json) := [("run_id", env.runId.value), ("slot_id", env.slotId.value),
  ("issue_id", env.issueId.value), ("commit", env.commit.value), ("generation", .int env.generation),
  ("fence", env.fence.value), ("idempotency_key", .str env.idempotencyKey)]

end Envelope

/-- The keys that an envelope must have. -/
def required : List PyStr := "run_id" :: "slot_id" :: "issue_id" :: "commit" :: "generation" :: "fence" ::
  "idempotency_key" :: "budget" :: REQUIRED_HASHES

/-- `raise FastExecutorError(reason_code, detail)`, unless the condition holds. -/
def require (condition : Bool) (reasonCode detail : PyStr) : Except SlotRaised Unit :=
  if condition then .ok () else .error (.fastExecutor reasonCode detail)

/-- The required value under a key; all that are missing are named together. -/
def field (value : JsonObject) (k : PyStr) : Except SlotRaised Identifier :=
  match identifier? value k with
  | some i => .ok i
  | none => .error (.fastExecutor "invalid_envelope"
      (List.intercalate [.scalar ','] (required.filter fun k => (identifier? value k).isNone)))

/-- `int`. -/
def intOf (c : Conversions) (v : Json) : Except SlotRaised ℤ :=
  match c.int v with
  | .ok n => .ok n
  | .error .caught => .error .typeOrValueError
  | .error .overflowError => .error .overflowError

/-- `int(budget.get("max_operations", 0))`. -/
def maxOperationsOf (c : Conversions) : Json → Except SlotRaised ℤ
  | .obj fields => intOf c ((Dict.find fields "max_operations").getD (.int 0))
  | _ => .error .attributeError

/-- The error of a generation or a budget that is not positive. -/
def invalidBudget : SlotRaised := .fastExecutor "invalid_budget" "generation/budget must be positive"

/-- What an envelope must give. -/
structure Given where
  runId : Identifier
  slotId : Identifier
  issueId : Identifier
  commit : Identifier
  generation : Identifier
  fence : Identifier
  idempotencyKey : Identifier
  budget : Identifier
  sourceHash : Identifier
  toolHash : Identifier
  configHash : Identifier
  contractHash : Identifier

/-- The part of `validate_envelope` that looks for what is missing. -/
def given (value : JsonObject) : Except SlotRaised Given := do
  require ((value.get? "schema").any (isText ENVELOPE_SCHEMA)) "invalid_envelope_schema" ENVELOPE_SCHEMA
  let runId ← field value "run_id"
  let slotId ← field value "slot_id"
  let issueId ← field value "issue_id"
  let commit ← field value "commit"
  let generation ← field value "generation"
  let fence ← field value "fence"
  let idempotencyKey ← field value "idempotency_key"
  let budget ← field value "budget"
  let sourceHash ← field value "source_hash"
  let toolHash ← field value "tool_hash"
  let configHash ← field value "config_hash"
  let contractHash ← field value "contract_hash"
  return ⟨runId, slotId, issueId, commit, generation, fence, idempotencyKey, budget, sourceHash, toolHash, configHash,
    contractHash⟩

/-- The part of `validate_envelope` that converts and compares. -/
def admitGiven (c : Conversions) (g : Given) : Except SlotRaised Envelope := do
  let generation ← intOf c g.generation.value
  if negative : generation < 0 then .error invalidBudget
  else do
    let maxOperations ← maxOperationsOf c g.budget.value
    if none : maxOperations ≤ 0 then .error invalidBudget
    else do
      let env : Envelope := ⟨g.runId, g.slotId, g.issueId, g.commit, generation, g.fence, g.sourceHash, g.toolHash,
        g.configHash, g.contractHash, maxOperations, not_lt.1 negative, not_le.1 none⟩
      require (isText env.idempotencyKey g.idempotencyKey.value) "idempotency_mismatch" "key is not content addressed"
      return env

def validateEnvelope (c : Conversions) (value : JsonObject) : Except SlotRaised Envelope := do
  let g ← given value
  admitGiven c g

/-! ## Admitted envelopes -/

theorem identifier?_eq_some {value : JsonObject} {k : PyStr} {i : Identifier} (found : value.get? k = some i.value) :
    identifier? value k = some i := by
  obtain ⟨v, distinct, filled⟩ := i
  unfold identifier?
  split
  · rename_i v' found'
    cases found.symm.trans found'
    rw [dif_pos filled]
  · rename_i absent
    rw [found] at absent
    cases absent

theorem field_eq_ok {value : JsonObject} {k : PyStr} {i : Identifier} (found : value.get? k = some i.value) :
    field value k = .ok i := by
  rw [field, identifier?_eq_some found]

def Identifier.ofText (t : PyStr) (some_ : t ≠ []) : Identifier := ⟨.str t, Json.distinctKeys_str t, decide_eq_true some_⟩

def Identifier.ofInt (n : ℤ) : Identifier := ⟨.int n, trivial, rfl⟩

def envelopeKeys : List PyStr := "schema" :: required

def Envelope.budget (env : Envelope) : Identifier :=
  ⟨.obj [("max_operations", .int env.maxOperations)], ⟨List.nodup_singleton _, trivial, trivial⟩, rfl⟩

def Envelope.document (env : Envelope) : JsonObject where
  fields := envelopeKeys.zip [.str ENVELOPE_SCHEMA, env.runId.value, env.slotId.value, env.issueId.value, env.commit.value,
    .int env.generation, env.fence.value, .str env.idempotencyKey, env.budget.value, env.sourceHash.value,
    env.toolHash.value, env.configHash.value, env.contractHash.value]
  distinct := by
    constructor
    · show envelopeKeys.Nodup
      decide
    · exact ⟨trivial, env.runId.distinct, env.slotId.distinct, env.issueId.distinct, env.commit.distinct, trivial,
        env.fence.distinct, trivial, env.budget.distinct, env.sourceHash.distinct, env.toolHash.distinct,
        env.configHash.distinct, env.contractHash.distinct, trivial⟩

theorem digest_ne_nil (v : Json) : digest v ≠ [] := by
  intro none
  have length := congrArg List.length none
  rw [digest, PyStr.ofChars, List.length_map, Sha256.length_hexdigest] at length
  cases length

/-- Every envelope is what `validate_envelope` returns for some value. -/
theorem validateEnvelope_document {c : Conversions} (lawful : c.Lawful) (env : Envelope) :
    validateEnvelope c env.document = .ok env := by
  have listed : given env.document = .ok ⟨env.runId, env.slotId, env.issueId, env.commit, .ofInt env.generation, env.fence,
      .ofText env.idempotencyKey (digest_ne_nil _), env.budget, env.sourceHash, env.toolHash, env.configHash,
      env.contractHash⟩ := by
    refine bind_ok.2 ⟨⟨⟩, rfl, ?_⟩
    refine bind_ok.2 ⟨_, field_eq_ok (i := env.runId) rfl, ?_⟩
    refine bind_ok.2 ⟨_, field_eq_ok (i := env.slotId) rfl, ?_⟩
    refine bind_ok.2 ⟨_, field_eq_ok (i := env.issueId) rfl, ?_⟩
    refine bind_ok.2 ⟨_, field_eq_ok (i := env.commit) rfl, ?_⟩
    refine bind_ok.2 ⟨_, field_eq_ok (i := .ofInt env.generation) rfl, ?_⟩
    refine bind_ok.2 ⟨_, field_eq_ok (i := env.fence) rfl, ?_⟩
    refine bind_ok.2 ⟨_, field_eq_ok (i := .ofText env.idempotencyKey (digest_ne_nil _)) rfl, ?_⟩
    refine bind_ok.2 ⟨_, field_eq_ok (i := env.budget) rfl, ?_⟩
    refine bind_ok.2 ⟨_, field_eq_ok (i := env.sourceHash) rfl, ?_⟩
    refine bind_ok.2 ⟨_, field_eq_ok (i := env.toolHash) rfl, ?_⟩
    refine bind_ok.2 ⟨_, field_eq_ok (i := env.configHash) rfl, ?_⟩
    exact bind_ok.2 ⟨_, field_eq_ok (i := env.contractHash) rfl, rfl⟩
  have number (n : ℤ) : intOf c (.int n) = .ok n := by
    rw [intOf, lawful.int]
  refine bind_ok.2 ⟨_, listed, bind_ok.2 ⟨_, number env.generation, ?_⟩⟩
  rw [dif_neg (not_lt.2 env.generation_nonneg)]
  refine bind_ok.2 ⟨_, number env.maxOperations, ?_⟩
  rw [dif_neg (not_le.2 env.maxOperations_pos)]
  refine bind_ok.2 ⟨⟨⟩, ?_, rfl⟩
  have same : isText env.idempotencyKey (.str env.idempotencyKey) = true := decide_eq_true rfl
  exact if_pos same

/-! ## Receipts -/

/-- What a receipt tells of an execution. -/
structure Execution where
  env : Envelope
  snapshotId : PyStr
  operations : ℕ
  bytesWritten : ℕ
  latencyMs : Decimal
  cpuMs : Decimal
  rssKibDelta : ℕ
  runtimeAvailable : Bool
  rustAvailable : Bool

/-- The keys of a receipt that is not sealed. -/
def receiptKeys : List PyStr := ["schema", "run_id", "slot_id", "issue_id", "commit", "generation", "fence",
  "idempotency_key", "snapshot_id", "overlay_id", "cache_hit", "duplicate_dispatch", "operations", "bytes_written",
  "latency_ms", "cpu_ms", "rss_kib_delta", "runtime_mode", "runtime_null_reason", "engine", "engine_null_reason", "status",
  "completion_authority", "tokens", "tokens_null_reason", "bindings"]

namespace Execution

variable (x : Execution)

/-- The values of a receipt that is not sealed. -/
def values : List Json := [.str RECEIPT_SCHEMA, x.env.runId.value, x.env.slotId.value, x.env.issueId.value,
  x.env.commit.value, .int x.env.generation, x.env.fence.value, .str x.env.idempotencyKey, .str x.snapshotId,
  .str (digest (.obj [("slot_id", x.env.slotId.value), ("generation", .int x.env.generation),
    ("fence", x.env.fence.value)])),
  .bool false, .bool false, .int x.operations, .int x.bytesWritten, .float x.latencyMs, .float x.cpuMs,
  .int x.rssKibDelta, .str (if x.runtimeAvailable then "runtime" else "python_fallback"),
  if x.runtimeAvailable then .null else .str "RUNTIME_UNAVAILABLE", .str (if x.rustAvailable then "rust" else "python"),
  if x.rustAvailable then .null else .str "RUST_UNAVAILABLE", .str "VERIFIED", .str "LOOP_ONLY", .null,
  .str "NO_LLM_USED", .obj x.env.bindings]

theorem distinct_bindings : (Json.obj x.env.bindings).DistinctKeys := by
  refine ⟨?_, x.env.sourceHash.distinct, x.env.toolHash.distinct, x.env.configHash.distinct, x.env.contractHash.distinct,
    trivial⟩
  show REQUIRED_HASHES.Nodup
  decide

def unsigned : JsonObject where
  fields := receiptKeys.zip x.values
  distinct := by
    constructor
    · show receiptKeys.Nodup
      decide
    · have optional (b : Bool) (s : PyStr) : (if b then Json.null else .str s).DistinctKeys := by
        cases b <;> trivial
      exact ⟨trivial, x.env.runId.distinct, x.env.slotId.distinct, x.env.issueId.distinct, x.env.commit.distinct, trivial,
        x.env.fence.distinct, trivial, trivial, trivial, trivial, trivial, trivial, trivial, trivial, trivial, trivial,
        trivial, optional _ _, trivial, optional _ _, trivial, trivial, trivial, trivial, x.distinct_bindings, trivial⟩

end Execution

/-- The receipt sealed with its digest. -/
def sealed (m : JsonObject) : JsonObject :=
  m.set "receipt_digest" (.str (digest m.toJson)) (Json.distinctKeys_str _)

/-- The exceptions that `verify_receipt` catches. -/
def SlotRaised.isCaught : SlotRaised → Bool
  | .fastExecutor _ _ | .keyError | .typeOrValueError => true
  | _ => false

section Verify

variable (c : Conversions) (eq : Json → Json → Bool)

/-- The body of `verify_receipt`. -/
def checkReceipt (receipt envelope : JsonObject) : Except SlotRaised (Bool × PyStr) := do
  let env ← validateEnvelope c envelope
  match receipt.get? "receipt_digest" with
  | none => .error .keyError
  | some supplied =>
    if isText (digest (receipt.erase "receipt_digest").toJson) supplied = false then
      return (false, "receipt_digest_mismatch")
    else match env.compared.find? fun f => !eq ((receipt.get? f.1).getD .null) f.2 with
      | some f => return (false, f.1 ++ "_mismatch")
      | none =>
        if (receipt.get? "status").any (isText "VERIFIED") && (receipt.get? "completion_authority").any (isText "LOOP_ONLY")
        then return (true, "ok")
        else return (false, "authority_or_status_invalid")

def verifyReceipt (receipt envelope : JsonObject) : Except SlotRaised (Bool × PyStr) :=
  match checkReceipt c eq receipt envelope with
  | .ok verdict => .ok verdict
  | .error e => if e.isCaught then .ok (false, "malformed_receipt") else .error e

end Verify

end Slots

end SimplicioFast
