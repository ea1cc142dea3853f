import SimplicioFast.Lib.JsonCanonical
import SimplicioFast.Lib.Machine
import SimplicioFast.Lib.Sha256

/-!
# Projection envelopes

A projection is a derived view with the digest of its payload.  An envelope (`ProjectionEnvelope`)
holds the fields that its constructor accepts; `decode` reads one back from the text of a record,
and checks every field again.

A payload is the JSON value that it is written as, so a tuple inside it is an array.
-/

namespace SimplicioFast

namespace Projection

/-- The exceptions of the projections. -/
inductive Raised
  | projectionError (reasonCode : PyStr)
  | typeError
deriving DecidableEq

/-- `ProjectionError(reason_code)`, unless the condition holds. -/
def check (condition : Bool) (reasonCode : PyStr) : Except Raised Unit :=
  if condition then .ok () else .error (.projectionError reasonCode)

def SCHEMA : PyStr := "simplicio.fast.projection/v1"

def PROJECTION_TYPES : List PyStr := ["code", "knowledge", "operations"]

def FORBIDDEN_KEYS : List PyStr := ["offset", "mmap_offset", "address", "pointer"]

def MAX_ENCODED_BYTES : ℕ := 8 * 1024 * 1024

def MAX_DEPTH : ℕ := 32

def MAX_ITEMS : ℕ := 100000

def MAX_TEXT : ℕ := 4096

/-! ## Canonical texts -/

def canonical (value : Json) : Except Raised Bytes := do
  check (value.isFinite && value.shortInts) "payload_not_json"
  check ((value.dumps true).length ≤ MAX_ENCODED_BYTES) "projection_size_limit"
  return PyStr.encodeAscii (value.dumps true)

def digest (value : Json) : Except Raised PyStr := do
  let text ← canonical value
  return ("sha256:" : PyStr) ++ PyStr.ofChars (Sha256.hexdigest text)

mutual

/-- `_reject_private_fields`: the number of items counted so far, before and after the value. -/
def rejectPrivateFields (depth items : ℕ) : Json → Except Raised ℕ
  | .obj fs =>
    if MAX_DEPTH < depth then .error (.projectionError "projection_depth_limit")
    else if fs.any fun f =>
      f.1 ∈ FORBIDDEN_KEYS then .error (.projectionError "projection_exposes_offset")
    else rejectFields (depth + 1) (items + fs.length) fs
  | .arr vs =>
    if MAX_DEPTH < depth then .error (.projectionError "projection_depth_limit")
    else if MAX_ITEMS < items + vs.length then .error (.projectionError "projection_item_limit")
    else rejectItems (depth + 1) (items + vs.length) vs
  | .str s =>
    if MAX_DEPTH < depth then .error (.projectionError "projection_depth_limit")
    else if MAX_TEXT < s.length then .error (.projectionError "projection_text_limit")
    else .ok items
  | _ => if MAX_DEPTH < depth then .error (.projectionError "projection_depth_limit") else .ok items

/-- `rejectPrivateFields` of every item. -/
def rejectItems (depth items : ℕ) : List Json → Except Raised ℕ
  | [] => .ok items
  | v :: vs => do
    let n ← rejectPrivateFields depth items v
    rejectItems depth n vs

/-- `rejectPrivateFields` of the value of a field. -/
def rejectField (depth items : ℕ) : PyStr × Json → Except Raised ℕ
  | (_, v) => rejectPrivateFields depth items v

/-- `rejectPrivateFields` of the value of every field. -/
def rejectFields (depth items : ℕ) : List (PyStr × Json) → Except Raised ℕ
  | [] => .ok items
  | f :: fs => do
    let n ← rejectField depth items f
    rejectFields depth n fs

end

/-! ## Checks of fields -/

def invalid (field : PyStr) : Raised := .projectionError (field ++ ("_invalid" : PyStr))

/-- Whether the text has a character that is not white space. -/
def isText (value : PyStr) : Bool := value.strip ≠ []

def validateText (value : Json) (field : PyStr) : Except Raised PyStr :=
  match value with
  | .str s => if isText s then .ok s else .error (invalid field)
  | _ => .error (invalid field)

def validateOptionalText (value : Json) (field : PyStr) : Except Raised PyStr :=
  match value with
  | .str s => .ok s
  | _ => .error (invalid field)

/-- `_validate_optional_text` of a value that may be `None`. -/
def validateGeneration (value : Json) (field : PyStr) : Except Raised (Option PyStr) :=
  match value with
  | .null => .ok none
  | value => (validateOptionalText value field).map some

def validateSha256Digest (value field : PyStr) : Except Raised Unit :=
  if value.take 7 = ("sha256:" : PyStr) ∧ PyStr.isSha256 (value.drop 7) then .ok ()
  else .error (invalid field)

/-- A text that is not blank, as an item of a sequence. -/
def text? : Json → Option PyStr
  | .str s => if isText s then some s else none
  | _ => none

def validateSequence (value : Json) (field : PyStr) : Except Raised (List PyStr) :=
  match value with
  | .arr vs =>
    if MAX_ITEMS < vs.length then .error (invalid field)
    else match vs.mapM text? with
      | some texts => .ok texts
      | none => .error (invalid field)
  | _ => .error (invalid field)

/-- A bound of a budget: an `int` that is not negative, and no `bool`. -/
def isBound : Json → Bool
  | .int n => 0 ≤ n
  | _ => false

def validateBudgets (budgets : Option JsonObject) : Except Raised Unit :=
  check ((budgets.map JsonObject.fields).getD [] |>.all fun f => isBound f.2) "budgets_invalid"

/-! ## Envelopes -/

/-- The fields of `ProjectionEnvelope`, with their defaults. -/
structure Fields where
  projectionType : PyStr
  producer : PyStr
  producerSchema : PyStr
  generation : PyStr
  stableHandle : PyStr
  payload : JsonObject
  payloadSha256 : PyStr
  schemaVersion : PyStr := "1.0"
  projectionTypeVersion : PyStr := "1.0"
  producerVersion : PyStr := "unknown"
  repositoryScope : PyStr := "*"
  tenantScope : PyStr := "*"
  domainScope : PyStr := "*"
  sourceGeneration : PyStr := []
  projectionGeneration : PyStr := []
  configFingerprint : PyStr := []
  toolchainFingerprint : PyStr := []
  parserFingerprint : PyStr := []
  stableHandles : List PyStr := []
  capabilitiesRequired : List PyStr := []
  budgets : Option JsonObject := none
  truncationReasons : List PyStr := []
  parentGeneration : Option PyStr := none
  baseGeneration : Option PyStr := none
  deltaGeneration : Option PyStr := none
  tombstones : List PyStr := []
  completeness : PyStr := "complete"
  fidelity : PyStr := "exact"
  observedSequence : PyStr := []
  conformanceDigest : PyStr := []

namespace Fields

/-- The fields that must not be blank, each with its name. -/
def texts (f : Fields) : List (PyStr × PyStr) :=
  [(f.projectionType, "projection_type"), (f.producer, "producer"),
  (f.producerSchema, "producer_schema"),
    (f.generation, "generation"), (f.stableHandle, "stable_handle"),
    (f.schemaVersion, "schema_version"),
    (f.projectionTypeVersion, "projection_type_version"), (f.producerVersion, "producer_version"),
    (f.repositoryScope, "repository_scope"), (f.tenantScope, "tenant_scope"),
    (f.domainScope, "domain_scope"),
    (f.sourceGeneration, "source_generation"), (f.projectionGeneration, "projection_generation"),
    (f.completeness, "completeness"), (f.fidelity, "fidelity")]

/-- `list` of texts. -/
def listOf (texts : List PyStr) : Json := .arr (texts.map .str)

def postInit (f : Fields) : Except Raised Unit := do
  f.texts.forM fun t => do
    let _ ← validateText (.str t.1) t.2
  check (f.projectionType ∈ PROJECTION_TYPES) "projection_type_unsupported"
  let _ ← rejectPrivateFields 0 0 f.payload.toJson
  validateSha256Digest f.payloadSha256 "payload_sha256"
  let expected ← digest f.payload.toJson
  check (f.payloadSha256 = expected) "payload_digest_mismatch"
  let stableHandles ← validateSequence (listOf f.stableHandles) "stable_handles"
  check (stableHandles ≠ [] && f.stableHandle ∈ stableHandles) "stable_handles_invalid"
  let _ ← validateSequence (listOf f.capabilitiesRequired) "capabilities_required"
  let _ ← validateSequence (listOf f.truncationReasons) "truncation_reasons"
  let _ ← validateSequence (listOf f.tombstones) "tombstones"
  validateBudgets f.budgets

/-- The items of `ProjectionEnvelope.to_dict`. -/
def items (f : Fields) : List (PyStr × Json) :=
  [("schema", .str SCHEMA), ("projection_type", .str f.projectionType),
  ("producer", .str f.producer),
    ("producer_schema", .str f.producerSchema), ("generation", .str f.generation),
    ("stable_handle", .str f.stableHandle), ("payload", f.payload.toJson),
    ("payload_sha256", .str f.payloadSha256), ("schema_version", .str f.schemaVersion),
    ("projection_type_version", .str f.projectionTypeVersion),
    ("producer_version", .str f.producerVersion),
    ("repository_scope", .str f.repositoryScope), ("tenant_scope", .str f.tenantScope),
    ("domain_scope", .str f.domainScope), ("source_generation", .str f.sourceGeneration),
    ("projection_generation", .str f.projectionGeneration),
    ("config_fingerprint", .str f.configFingerprint),
    ("toolchain_fingerprint", .str f.toolchainFingerprint),
    ("parser_fingerprint", .str f.parserFingerprint),
    ("stable_handles", listOf f.stableHandles),
    ("capabilities_required", listOf f.capabilitiesRequired),
    ("budgets", (f.budgets.map JsonObject.toJson).getD .null),
    ("truncation_reasons", listOf f.truncationReasons),
    ("parent_generation", Json.optStr f.parentGeneration),
    ("base_generation", Json.optStr f.baseGeneration),
    ("delta_generation", Json.optStr f.deltaGeneration), ("tombstones", listOf f.tombstones),
    ("completeness", .str f.completeness), ("fidelity", .str f.fidelity),
    ("observed_sequence", .str f.observedSequence),
    ("conformance_digest", .str f.conformanceDigest)]

def toDict (f : Fields) : Json := .obj f.items

end Fields

/-- `ProjectionEnvelope`: fields that the constructor accepts. -/
structure ProjectionEnvelope extends Fields where
  valid : toFields.postInit = .ok ()

/-- The constructor of `ProjectionEnvelope`. -/
def ProjectionEnvelope.make (f : Fields) : Except Raised ProjectionEnvelope :=
  match h : f.postInit with
  | .ok () => .ok ⟨f, h⟩
  | .error e => .error e

/-! ## Decoding -/

/-- `tuple(value)`, or the handle itself for `None`. -/
def handlesOf (stableHandle : PyStr) : Json → Except Raised (List Json)
  | .null => .ok [.str stableHandle]
  | .arr vs => .ok vs
  | .str s => .ok (s.map fun c => .str [c])
  | .obj fs => .ok (fs.map fun f => .str f.1)
  | _ => .error .typeError

def budgetsOf (record : JsonObject) : Except Raised (Option JsonObject) :=
  match record.get? "budgets", record.object? "budgets" with
  | none, _ => .ok none
  | some .null, _ => .ok none
  | some _, some budgets => do
    validateBudgets (some budgets)
    return some budgets
  | some _, none => .error (.projectionError "budgets_invalid")

/-- The argument that `decode` passes to `create` for a field of the record. -/
def argument (record : JsonObject) (key : PyStr) (missing : Json) :
    Json := (record.get? key).getD missing

/-- A generation that is `None` is the generation of the envelope. -/
def orGeneration (generation : PyStr) : Json → Json
  | .null => .str generation
  | v => v

/-- `ProjectionEnvelope.create` with the arguments that `decode` takes from the record. -/
def create (record : JsonObject) : Except Raised ProjectionEnvelope := do
  let projectionType ← validateText (argument record "projection_type" (.str [])) "projection_type"
  check (projectionType ∈ PROJECTION_TYPES) "projection_type_unsupported"
  let schemaVersion ← validateText (argument record "schema_version" (.str "1.0")) "schema_version"
  let projectionTypeVersion ← validateText (argument record "projection_type_version" (.str "1.0"))
    "projection_type_version"
  let producer ← validateText (argument record "producer" (.str [])) "producer"
  let producerSchema ← validateText (argument record "producer_schema" (.str [])) "producer_schema"
  let generation ← validateText (argument record "generation" (.str [])) "generation"
  let stableHandle ← validateText (argument record "stable_handle" (.str [])) "stable_handle"
  let payload := (record.object? "payload").getD .empty
  let _ ← rejectPrivateFields 0 0 payload.toJson
  let producerVersion ← validateText (argument record "producer_version" (.str "unknown"))
      "producer_version"
  let repositoryScope ← validateText (argument record "repository_scope" (.str "*"))
      "repository_scope"
  let tenantScope ← validateText (argument record "tenant_scope" (.str "*")) "tenant_scope"
  let domainScope ← validateText (argument record "domain_scope" (.str "*")) "domain_scope"
  let completeness ← validateText (argument record "completeness" (.str "complete")) "completeness"
  let fidelity ← validateText (argument record "fidelity" (.str "exact")) "fidelity"
  let sourceGeneration ← validateOptionalText
    (orGeneration generation (argument record "source_generation" .null)) "source_generation"
  let projectionGeneration ← validateOptionalText
    (orGeneration generation (argument record "projection_generation" .null))
    "projection_generation"
  let configFingerprint ← validateOptionalText (argument record "config_fingerprint" (.str []))
    "config_fingerprint"
  let toolchainFingerprint ← validateOptionalText
      (argument record "toolchain_fingerprint" (.str []))
    "toolchain_fingerprint"
  let parserFingerprint ← validateOptionalText (argument record "parser_fingerprint" (.str []))
    "parser_fingerprint"
  let observedSequence ← validateOptionalText (argument record "observed_sequence" (.str []))
      "observed_sequence"
  let conformanceDigest ← validateOptionalText (argument record "conformance_digest" (.str []))
    "conformance_digest"
  let parentGeneration ← validateGeneration (argument record "parent_generation" .null)
      "parent_generation"
  let baseGeneration ← validateGeneration (argument record "base_generation" .null)
      "base_generation"
  let deltaGeneration ← validateGeneration (argument record "delta_generation" .null)
      "delta_generation"
  let handles ← handlesOf stableHandle (argument record "stable_handles" (.arr []))
  let stableHandles ← validateSequence (.arr handles) "stable_handles"
  let budgets ← budgetsOf record
  let capabilitiesRequired ← validateSequence (argument record "capabilities_required" (.arr []))
    "capabilities_required"
  let truncationReasons ← validateSequence (argument record "truncation_reasons" (.arr []))
      "truncation_reasons"
  let tombstones ← validateSequence (argument record "tombstones" (.arr [])) "tombstones"
  let payloadSha256 ← digest payload.toJson
  ProjectionEnvelope.make ⟨projectionType, producer, producerSchema, generation,
    stableHandle, payload,
    payloadSha256, schemaVersion, projectionTypeVersion, producerVersion, repositoryScope,
      tenantScope, domainScope,
    sourceGeneration, projectionGeneration, configFingerprint, toolchainFingerprint,
      parserFingerprint,
    stableHandles, capabilitiesRequired, budgets, truncationReasons, parentGeneration,
      baseGeneration,
    deltaGeneration, tombstones, completeness, fidelity, observedSequence, conformanceDigest⟩

/-- `value.get(key) == text`. -/
def holds (record : JsonObject) (key text : PyStr) : Bool :=
  match record.get? key with
  | some (.str s) => s = text
  | _ => false

/-- `ProjectionEnvelope.decode` of an object. -/
def decodeRecord (record : JsonObject) : Except Raised ProjectionEnvelope := do
  check (holds record "schema" SCHEMA) "projection_schema_unsupported"
  match record.get? "payload_sha256" with
  | some (.str expected) => do
    let result ← create record
    check (argument record "payload" .null matches .null | .obj _) "payload_invalid"
    check (result.payloadSha256 = expected) "payload_digest_mismatch"
    return result
  | _ => .error (.projectionError "payload_digest_missing")

/-- `ProjectionEnvelope.decode` of bytes in UTF-8. -/
def decode (raw : Bytes) : Except Raised ProjectionEnvelope :=
  match PyStr.decode raw with
  | none => .error (.projectionError "projection_invalid_json")
  | some text => match Json.loads text, JsonObject.loads? text with
    | none, _ => .error (.projectionError "projection_invalid_json")
    | some _, none => .error (.projectionError "projection_schema_unsupported")
    | some _, some record => decodeRecord record

end Projection

end SimplicioFast
