import SimplicioFast.Lib.Json
import SimplicioFast.Lib.Sha256

/-!
# The decision cache

`DecisionCache` keeps decisions of one generation, the least recently used one first.  A key can be
quarantined, by hand or because the observed telemetry contradicts what its entry expects, and it can be
disabled after a regression; lookups and puts then refuse it.  The tables of quarantined, disabled and
invalidated keys hold as many keys as the cache holds entries, and forget the oldest one first.

`str.lower` is a parameter.  The metrics are left out.
-/

namespace SimplicioFast

/-- `DecisionCacheError`. -/
inductive DecisionRaised
  | cacheError (reasonCode : PyStr)
deriving DecidableEq

namespace Decision

/-- `DecisionCacheError(reason_code)`, unless the condition holds. -/
def check (condition : Bool) (reasonCode : PyStr) : Except DecisionRaised Unit :=
  if condition then .ok () else .error (.cacheError reasonCode)

def validateIdentifier (value reason : PyStr) : Except DecisionRaised PyStr := do
  check (value ≠ [] && value = value.strip) reason
  check (value.length ≤ 256 && value.all fun c => !PyStr.isSpace c) "raw_content_forbidden"
  check (value.all fun c => c.code ≠ 0) reason
  return value

def validateReason (reason : PyStr) : Except DecisionRaised PyStr := do
  check (reason ≠ [] && reason = reason.strip) "invalidation_reason_invalid"
  match validateIdentifier reason "invalidation_reason_invalid" with
  | .error _ => .error (.cacheError "invalidation_reason_invalid")
  | .ok reason => .ok reason

def FORBIDDEN_PAYLOAD_MARKERS : List PyStr := ["prompt", "code", "user", "content", "source"]

/-- Whether the text holds the other text. -/
def holds (s t : PyStr) : Bool := s.tails.any fun u => t.isPrefixOf u

variable (lower : PyStr → PyStr)

mutual

/-- `_validate_safe_payload`; the copy that it returns is equal to the value. -/
def validateSafePayload : Json → Except DecisionRaised Unit
  | .null => .ok ()
  | .bool _ => .ok ()
  | .int _ => .ok ()
  | .float _ => .ok ()
  | .nonFinite _ => .error (.cacheError "payload_not_json")
  | .str s => (validateIdentifier s "payload_invalid").map fun _ => ()
  | .arr items => validateSafeItems items
  | .obj fields => validateSafeFields fields
termination_by structural v => v

/-- `_validate_safe_payload` of the items of a list. -/
def validateSafeItems : List Json → Except DecisionRaised Unit
  | [] => .ok ()
  | v :: vs => do
    validateSafePayload v
    validateSafeItems vs
termination_by structural vs => vs

/-- `_validate_safe_payload` of a field of a dictionary. -/
def validateSafeField : PyStr × Json → Except DecisionRaised Unit
  | (key, v) => do
    check (key ≠ []) "payload_invalid"
    check (!FORBIDDEN_PAYLOAD_MARKERS.any (holds (lower key))) "raw_content_forbidden"
    validateSafePayload v
termination_by structural f => f

/-- `_validate_safe_payload` of the fields of a dictionary. -/
def validateSafeFields : List (PyStr × Json) → Except DecisionRaised Unit
  | [] => .ok ()
  | f :: fs => do
    validateSafeField f
    validateSafeFields fs
termination_by structural fs => fs

end

end Decision

/-! ## Keys and entries -/

/-- `DecisionCacheKey`; its dimensions are identifiers. -/
structure DecisionCacheKey where
  modelDigest : PyStr
  artifactDigest : PyStr
  quantDigest : PyStr
  backendVersion : PyStr
  hardwareTopologyFingerprint : PyStr
  devicePlacementClass : PyStr
  contextKvPressureBucket : PyStr
  workloadClass : PyStr
  concurrencyBucket : PyStr
  fastPolicyVersion : PyStr
  generation : PyStr
  tokenizerTemplateIdentity : Option PyStr := none
  valid : ∀ value ∈ [modelDigest, artifactDigest, quantDigest, backendVersion,
      hardwareTopologyFingerprint, devicePlacementClass, contextKvPressureBucket, workloadClass,
      concurrencyBucket, fastPolicyVersion, generation] ++ tokenizerTemplateIdentity.toList,
    Decision.validateIdentifier value "key_dimension_invalid" = .ok value
deriving DecidableEq

structure DecisionCacheEntry where
  key : DecisionCacheKey
  decision : JsonObject
  expectation : JsonObject

/-- A receipt of the cache. -/
structure DecisionReceipt where
  operation : PyStr
  outcome : PyStr
  reason : PyStr
  keyDigest : Option PyStr := none
  generation : Option PyStr := none
  decision : Option JsonObject := none
  removed : Option Bool := none
  invalidatedKeyDigests : List PyStr := []
  evictedKeyDigests : List PyStr := []
  contradictionFields : List PyStr := []

structure DecisionCache where
  maxEntries : ℕ
  activeGeneration : Option PyStr
  entries : Dict PyStr DecisionCacheEntry
  invalidations : Dict PyStr PyStr
  quarantined : Dict PyStr PyStr
  disabled : Dict PyStr PyStr

namespace DecisionCacheKey

def KEY_SCHEMA : PyStr := "simplicio.fast.decision-cache-key/v1"

/-- The dimensions by which entries can drift. -/
def drifting (key : DecisionCacheKey) : List (PyStr × Json) :=
  [("model_digest", .str key.modelDigest), ("artifact_digest", .str key.artifactDigest),
    ("quant_digest", .str key.quantDigest),
    ("tokenizer_template_identity", Json.optStr key.tokenizerTemplateIdentity),
    ("backend_version", .str key.backendVersion),
    ("hardware_topology_fingerprint", .str key.hardwareTopologyFingerprint),
    ("device_placement_class", .str key.devicePlacementClass),
    ("context_kv_pressure_bucket", .str key.contextKvPressureBucket),
    ("workload_class", .str key.workloadClass), ("concurrency_bucket", .str key.concurrencyBucket),
    ("fast_policy_version", .str key.fastPolicyVersion)]

def toDict (key : DecisionCacheKey) : Json :=
  .obj ((("schema" : PyStr), .str KEY_SCHEMA) :: key.drifting ++
    [(("generation" : PyStr), .str key.generation)])

def digest (key : DecisionCacheKey) : PyStr :=
  ("sha256:" : PyStr) ++ PyStr.ofChars (Sha256.hexdigest (PyStr.encodeAscii (key.toDict.dumps true)))

end DecisionCacheKey

namespace DecisionCache

open Decision

def MAX_ENTRIES : ℤ := 4096

/-- `DecisionCache(max_entries, generation=…)`. -/
def new (maxEntries : ℤ) (generation : Option PyStr) : Except DecisionRaised DecisionCache := do
  check (1 ≤ maxEntries && maxEntries ≤ MAX_ENTRIES) "cache_capacity_invalid"
  let generation ← generation.mapM fun g => validateIdentifier g "key_dimension_invalid"
  return ⟨maxEntries.toNat, generation, .empty, .empty, .empty, .empty⟩

def remember (maxEntries : ℕ) (store : Dict PyStr PyStr) (keyDigest reason : PyStr) :
    Dict PyStr PyStr :=
  let store := (store.erase keyDigest).set keyDigest reason
  store.dropOldest (store.entries.length - maxEntries)

/-- `_remember` of several keys in the table of invalidated keys. -/
def rememberInvalidated (c : DecisionCache) (keyDigests : List PyStr) (reason : PyStr) :
    DecisionCache :=
  { c with invalidations :=
      keyDigests.foldl (fun store d => remember c.maxEntries store d reason) c.invalidations }

/-- `_clear_generation_locked`; it returns the keys of the entries, sorted. -/
def clearGeneration (c : DecisionCache) (generation : PyStr) : List PyStr × DecisionCache :=
  let invalidated := c.entries.keys.insertionSort (· ≤ ·)
  (invalidated, { c.rememberInvalidated invalidated "generation_advanced" with
    activeGeneration := some generation
    entries := .empty
    quarantined := .empty
    disabled := .empty })

def activateGeneration (c : DecisionCache) (generation : PyStr) :
    Except DecisionRaised (DecisionReceipt × DecisionCache) := do
  let generation ← validateIdentifier generation "key_dimension_invalid"
  if c.activeGeneration = some generation then
    return ({ operation := "activate_generation", outcome := "unchanged"
              reason := "generation_unchanged", generation := c.activeGeneration }, c)
  else
    let (invalidated, c') := c.clearGeneration generation
    return ({
      operation := "activate_generation"
      outcome := "activated"
      reason := if c.activeGeneration = none then "generation_initialized" else "generation_advanced"
      generation := some generation
      invalidatedKeyDigests := invalidated }, c')

/-- The receipt about a key, with the given operation, outcome and reason. -/
def about (key : DecisionCacheKey) (operation outcome reason : PyStr) : DecisionReceipt :=
  { operation := operation, outcome := outcome, reason := reason, keyDigest := some key.digest
    generation := some key.generation }

/-- The outcome and the reason with which a disabled or quarantined key is refused. -/
def refusal (c : DecisionCache) (keyDigest : PyStr) : Option (PyStr × PyStr) :=
  match c.disabled.get? keyDigest, c.quarantined.get? keyDigest with
  | some reason, _ => some ("disabled", reason)
  | none, some reason => some ("quarantined", reason)
  | none, none => none

/-! ## Putting -/

/-- The cache in the generation of the key, the reason, and the keys of the entries that have been
invalidated. -/
def enterGeneration (c : DecisionCache) (generation : PyStr) : PyStr × List PyStr × DecisionCache :=
  if c.activeGeneration = none then
    ("generation_initialized", [], { c with activeGeneration := some generation })
  else if c.activeGeneration = some generation then ("generation_current", [], c)
  else ("generation_advanced", c.clearGeneration generation)

/-- The cache with the entry, and the keys that were evicted for it. -/
def storeEntry (c : DecisionCache) (keyDigest : PyStr) (entry : DecisionCacheEntry) :
    List PyStr × DecisionCache :=
  let entries := (c.entries.erase keyDigest).set keyDigest entry
  let excess := entries.entries.length - c.maxEntries
  let evicted := entries.keys.take excess
  (evicted, { c with entries := entries.dropOldest excess
                     invalidations := c.invalidations.erase keyDigest }.rememberInvalidated
    evicted "capacity_eviction")

/-- The part of `put` in the generation of the key. -/
def putEntry (c : DecisionCache) (key : DecisionCacheKey) (decision expected : JsonObject)
    (generationReason : PyStr) (invalidated : List PyStr) : DecisionReceipt × DecisionCache :=
  match c.refusal key.digest with
  | some (outcome, reason) => ({ about key "put" outcome reason with
      invalidatedKeyDigests := invalidated }, c)
  | none =>
    let (evicted, c') := c.storeEntry key.digest ⟨key, decision, expected⟩
    ({ about key "put" "stored" (if generationReason = "generation_current" then
          (if (c.entries.get? key.digest).isSome then "entry_replaced" else "stored")
        else generationReason) with
        invalidatedKeyDigests := invalidated
        evictedKeyDigests := evicted }, c')

def put (lower : PyStr → PyStr) (c : DecisionCache) (key : DecisionCacheKey)
    (decision expected : JsonObject) : Except DecisionRaised (DecisionReceipt × DecisionCache) := do
  validateSafePayload lower decision.toJson
  validateSafePayload lower expected.toJson
  let (generationReason, invalidated, c) := c.enterGeneration key.generation
  return c.putEntry key decision expected generationReason invalidated

/-! ## Looking up -/

/-- The fields in which the observation contradicts the expectation. -/
def contradictionFields (expectation observed : JsonObject) : List PyStr :=
  ((expectation.fields.filter fun f => match Dict.find observed.fields f.1 with
    | none => false
    | some v => !Json.pyEq v f.2).map Prod.fst).insertionSort (· ≤ ·)

/-- The part of `lookup` that finds an entry. -/
def serve (c : DecisionCache) (key : DecisionCacheKey) (entry : DecisionCacheEntry)
    (observed : JsonObject) : DecisionReceipt × DecisionCache :=
  let fields := contradictionFields entry.expectation observed
  if fields = [] then
    ({ about key "lookup" "hit" "cache_hit" with decision := some entry.decision },
      { c with entries := (c.entries.erase key.digest).set key.digest entry })
  else
    ({ about key "lookup" "quarantined" "observed_telemetry_contradiction" with
        removed := some true
        contradictionFields := fields },
      { c with
        entries := c.entries.erase key.digest
        quarantined := remember c.maxEntries c.quarantined key.digest
          "observed_telemetry_contradiction" })

/-- The part of `lookup` in the generation of the key. -/
def lookupEntry (c : DecisionCache) (key : DecisionCacheKey) (observed : JsonObject) :
    DecisionReceipt × DecisionCache :=
  match c.refusal key.digest, c.entries.get? key.digest with
  | some (outcome, reason), _ => (about key "lookup" outcome reason, c)
  | none, some entry => c.serve key entry observed
  | none, none => match c.invalidations.get? key.digest with
    | some reason => (about key "lookup" "invalidated" reason, c)
    | none => (about key "lookup" "miss" "entry_missing", c)

def lookup (lower : PyStr → PyStr) (c : DecisionCache) (key : DecisionCacheKey)
    (observed : JsonObject) : Except DecisionRaised (DecisionReceipt × DecisionCache) := do
  validateSafePayload lower observed.toJson
  if c.activeGeneration = none then
    return (about key "lookup" "miss" "generation_uninitialized", c)
  else if c.activeGeneration ≠ some key.generation then
    return (about key "lookup" "miss" "generation_mismatch", c)
  else return c.lookupEntry key observed

/-! ## Invalidating, quarantining and disabling -/

/-- The cache without the entry of the key, and whether there was one. -/
def removeEntry (c : DecisionCache) (key : DecisionCacheKey) : Bool × DecisionCache :=
  ((c.entries.get? key.digest).isSome, { c with entries := c.entries.erase key.digest })

def invalidate (c : DecisionCache) (key : DecisionCacheKey) (reason : PyStr) :
    Except DecisionRaised (DecisionReceipt × DecisionCache) := do
  let reason ← validateReason reason
  let (removed, c) := c.removeEntry key
  return ({ about key "invalidate" (if removed then "invalidated" else "miss") reason with
      removed := some removed }, c.rememberInvalidated [key.digest] reason)

def DRIFT_REASONS : List (PyStr × PyStr) :=
  [("model_digest", "model_drift"), ("artifact_digest", "artifact_drift"),
    ("quant_digest", "quantization_drift"),
    ("tokenizer_template_identity", "tokenizer_template_drift"), ("backend_version", "backend_drift"),
    ("hardware_topology_fingerprint", "hardware_drift"),
    ("device_placement_class", "placement_drift"),
    ("context_kv_pressure_bucket", "context_kv_pressure_drift"),
    ("workload_class", "workload_drift"), ("concurrency_bucket", "concurrency_drift"),
    ("fast_policy_version", "policy_version_drift")]

/-- Whether two keys agree on a dimension. -/
def agree (key key' : DecisionCacheKey) (dimension : PyStr) : Bool :=
  match Dict.find key.drifting dimension, Dict.find key'.drifting dimension with
  | some v, some w => Json.pyEq v w
  | _, _ => false

/-- Whether the entry has drifted from the key in one of the dimensions, and in no other. -/
def drifted (key : DecisionCacheKey) (dimensions : List PyStr) (entry : DecisionCacheEntry) : Bool :=
  entry.key.generation = key.generation &&
    ((DRIFT_REASONS.map Prod.fst).filter (· ∉ dimensions)).all (agree entry.key key) &&
    dimensions.any fun dimension => !agree entry.key key dimension

def invalidateDrift (c : DecisionCache) (key : DecisionCacheKey) (dimensions : List PyStr)
    (reason : Option PyStr) : Except DecisionRaised (DecisionReceipt × DecisionCache) := do
  check (dimensions ≠ [] && dimensions.all (fun d => d ∈ DRIFT_REASONS.map Prod.fst) &&
    dimensions.Nodup) "drift_dimensions_invalid"
  let first := (dimensions.head?.bind (Dict.find DRIFT_REASONS)).getD []
  let reason ← validateReason (reason.getD first)
  let invalidated := (c.entries.entries.filter fun e => drifted key dimensions e.2).map Prod.fst
  return ({ about key "invalidate_drift" (if invalidated = [] then "miss" else "invalidated") reason with
      invalidatedKeyDigests := invalidated.insertionSort (· ≤ ·) },
    { c with entries := invalidated.foldl Dict.erase c.entries }.rememberInvalidated invalidated
      reason)

def quarantine (c : DecisionCache) (key : DecisionCacheKey) (reason : PyStr) :
    Except DecisionRaised (DecisionReceipt × DecisionCache) := do
  let reason ← validateReason reason
  let (removed, c) := c.removeEntry key
  return ({ about key "quarantine" "quarantined" reason with removed := some removed },
    { c with quarantined := remember c.maxEntries c.quarantined key.digest reason })

def disableForRegression (c : DecisionCache) (key : DecisionCacheKey) (reason : PyStr) :
    Except DecisionRaised (DecisionReceipt × DecisionCache) := do
  let reason ← validateReason reason
  let (removed, c) := c.removeEntry key
  return ({ about key "disable" "disabled" reason with removed := some removed },
    { c with disabled := remember c.maxEntries c.disabled key.digest reason })

end DecisionCache

end SimplicioFast
