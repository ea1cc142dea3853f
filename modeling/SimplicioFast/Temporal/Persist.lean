import SimplicioFast.Lib.Conversions
import SimplicioFast.Lib.Struct
import SimplicioFast.Temporal.Overlay

/-!
# Persisted overlays

`verify` checks the versions of every fact, and `to_bytes` writes an overlay as one JSON document behind a header
with its length and its digest.  `from_bytes` reads the document again, computes the digest of every version anew,
and verifies the overlay before it returns it.

`from_bytes` turns the fields of a version into the types that it expects with `str`, `int` and `dict`.  What these
do with values of other types does not depend on the overlay, so they are parameters.
-/

namespace SimplicioFast

/-- The exceptions of `to_bytes` and `from_bytes`.  `untyped` stands for an overlay that `from_bytes` builds with a
field of another type, which no overlay writes. -/
inductive PersistRaised
  | temporal (e : TemporalRaised)
  | unicodeEncodeError
  | overflowError
  | untyped
deriving DecidableEq

/-- What `verify` returns. -/
structure Verification where
  schema : PyStr
  status : PyStr
  repository : PyStr
  baseGeneration : PyStr
  overlayGeneration : Option PyStr
  facts : ℕ
  active : ℕ
  invalidDigests : List PyStr
deriving DecidableEq

namespace BitemporalFact

def asRecord (f : BitemporalFact) : List (PyStr × Json) :=
  match f.unsignedRecord with
  | .obj fs => fs ++ [(("digest" : PyStr), .str f.digest)]
  | _ => []

end BitemporalFact

namespace BitemporalOverlay

/-- `PERSISTENCE_SCHEMA`, `PERSISTENCE_MAGIC` and `MAX_PERSISTENCE_BYTES`. -/
def PERSISTENCE_SCHEMA : PyStr := "simplicio.fast.bitemporal-overlay/v1"

def PERSISTENCE_MAGIC : Bytes := PyStr.asciiBytes "SFASTBT1"

def MAX_PERSISTENCE_BYTES : ℕ := 64 * 1024 * 1024

/-! ## Verifying -/

/-- The digests that one version adds to the invalid ones; `previous` is the version before it. -/
def invalidDigestsOf (s : BitemporalOverlay) (canonicalId : PyStr) (previous : Option BitemporalFact)
    (f : BitemporalFact) : List PyStr :=
  (if f.canonicalId ≠ canonicalId ∨ f.repository ≠ s.repository then [f.digest] else []) ++
  (if f.validTo.any (· ≤ f.validFrom) then [f.digest] else []) ++
  (if (previous.bind BitemporalFact.validTo).any (· ≠ f.validFrom) then [f.digest] else []) ++
  (if previous.any fun p => f.predecessor ≠ some p.digest then [f.digest] else []) ++
  (if f.digest ≠ PyStr.ofChars (Sha256.hexdigest (PyStr.encodeAscii (f.unsignedRecord.dumps true)))
    then [f.digest] else [])

/-- The loop of `verify` over the versions of a fact. -/
def invalidVersions (s : BitemporalOverlay) (canonicalId : PyStr) :
    Option BitemporalFact → List BitemporalFact → List PyStr
  | _, [] => []
  | previous, f :: fs => s.invalidDigestsOf canonicalId previous f ++ s.invalidVersions canonicalId (some f) fs

/-- Whether the fact whose versions are given has an active open version; a fact without versions has no last one. -/
def isActive (s : BitemporalOverlay) (versions : List BitemporalFact) : Bool :=
  (versions.getLast?.bind fun last => s.current last.canonicalId).any fun f => f.state = .active

def verify (s : BitemporalOverlay) : Verification :=
  let invalid := s.facts.entries.flatMap fun e => s.invalidVersions e.1 none e.2
  { schema := FACT_SCHEMA
    status := if invalid = [] then "valid" else "invalid"
    repository := s.repository
    baseGeneration := s.baseGeneration
    overlayGeneration := s.overlayGeneration
    facts := (s.facts.values.map List.length).sum
    active := s.facts.values.countP s.isActive
    invalidDigests := PyStr.sortedSet invalid }

/-! ## Writing -/

def persisted (f : BitemporalFact) : Json := .obj (f.asRecord ++ [(("successor" : PyStr), Json.optStr f.successor)])

/-- The versions of all facts, in the order in which they are persisted. -/
def allVersions (s : BitemporalOverlay) : List BitemporalFact :=
  (s.facts.keys.insertionSort (· ≤ ·)).flatMap fun id => (s.facts.get? id).getD []

def document (s : BitemporalOverlay) : Json :=
  .obj [("schema", .str PERSISTENCE_SCHEMA), ("repository", .str s.repository),
    ("base_generation", .str s.baseGeneration), ("overlay_generation", Json.optStr s.overlayGeneration),
    ("world_sequence", .int s.worldSequence), ("observed_sequence", .int s.observedSequence),
    ("facts", .arr (s.allVersions.map persisted))]

def refused (reasonCode message : PyStr) : PersistRaised := .temporal (.invariantError reasonCode message)

def toBytes (s : BitemporalOverlay) : Except PersistRaised Bytes :=
  match (s.document.dumps false).encode with
  | none => .error .unicodeEncodeError
  | some payload =>
    if MAX_PERSISTENCE_BYTES < payload.length then
      .error (refused "persistence_too_large" "overlay persistence exceeds the bounded limit")
    else .ok (PERSISTENCE_MAGIC ++ Bytes.packBE 4 payload.length ++ Sha256.digest payload ++ payload)

/-! ## Reading -/

/-- `raw[key]`; `none` stands for the `KeyError`. -/
def required (raw : Json) (key : PyStr) : Except PersistRaised Json :=
  match raw.get? key with
  | some v => .ok v
  | none => .error (refused "persistence_fact" "persisted fact fields are invalid")

/-- `int(v)`. -/
def intOf (c : Conversions) (v : Json) : Except PersistRaised ℤ :=
  match c.int v with
  | .ok n => .ok n
  | .error .caught => .error (refused "persistence_fact" "persisted fact fields are invalid")
  | .error .overflowError => .error .overflowError

/-- `None if raw.get(key) is None else int(raw[key])`. -/
def optionalInt (c : Conversions) (raw : Json) (key : PyStr) : Except PersistRaised (Option ℤ) :=
  match raw.get? key with
  | none | some .null => .ok none
  | some v => (intOf c v).map some

/-- `raw.get(key)`, where an overlay writes a text or `None`. -/
def optionalText (raw : Json) (key : PyStr) : Except PersistRaised (Option PyStr) :=
  match raw.get? key with
  | none | some .null => .ok none
  | some (.str s) => .ok (some s)
  | some _ => .error .untyped

/-- `tuple(str(item) for item in raw.get("dependencies", []))`. -/
def dependenciesOf (c : Conversions) (raw : Json) : Except PersistRaised (List PyStr) :=
  match Json.iterated ((raw.get? "dependencies").getD (.arr [])) with
  | some vs => .ok (vs.map c.str)
  | none => .error (refused "persistence_fact" "persisted fact fields are invalid")

/-- `dict(raw.get("provenance", {}))`. -/
def provenanceOf (c : Conversions) (raw : Json) : Except PersistRaised JsonObject :=
  match c.dict ((raw.get? "provenance").getD (.obj [])) with
  | some m => .ok m
  | none => .error (refused "persistence_fact" "persisted fact fields are invalid")

/-- The state with the given name, where an overlay writes one of the four. -/
def stateOf (name : PyStr) : Except PersistRaised FactState :=
  match FactState.ofName? name with
  | some t => .ok t
  | none => .error .untyped

/-- The version that a persisted record describes. -/
def factOf (c : Conversions) (raw : Json) : Except PersistRaised BitemporalFact := do
  let canonicalId := c.str (← required raw "canonical_id")
  let repository := c.str (← required raw "repository")
  let baseGeneration := c.str (← required raw "base_generation")
  let overlayGeneration ← optionalText raw "overlay_generation"
  let sourceCommit := c.str (← required raw "source_commit")
  let sourceSha256 := c.str (← required raw "source_sha256")
  let artifactDigest := c.str (← required raw "artifact_digest")
  let validFrom ← intOf c (← required raw "valid_from")
  let validTo ← optionalInt c raw "valid_to"
  let observedAt ← intOf c (← required raw "observed_at")
  let invalidatedAt ← optionalInt c raw "invalidated_at"
  let state ← stateOf (c.str (← required raw "state"))
  let reasonCode ← optionalText raw "reason_code"
  let predecessor ← optionalText raw "predecessor"
  let successor ← optionalText raw "successor"
  let dependencies ← dependenciesOf c raw
  let provenance ← provenanceOf c raw
  return { canonicalId, repository, baseGeneration, overlayGeneration, sourceCommit, sourceSha256, artifactDigest,
           validFrom, validTo, observedAt, invalidatedAt, state, reasonCode, predecessor, successor, dependencies,
           provenance }

/-- One round of the loop over the persisted facts. -/
def readFact (c : Conversions) (s : BitemporalOverlay) (raw : Json) : Except PersistRaised BitemporalOverlay := do
  if (raw.get? "schema").all fun v => !v.pyEq (.str FACT_SCHEMA) then
    throw (refused "persistence_fact" "persisted fact schema is invalid")
  let fact ← factOf c raw
  if (raw.get? "digest").all fun v => !v.pyEq (.str fact.digest) then
    throw (refused "persistence_digest" "persisted fact digest is invalid")
  if fact.repository ≠ s.repository ∨ fact.baseGeneration ≠ s.baseGeneration ∨
      fact.overlayGeneration ≠ s.overlayGeneration then
    throw (refused "persistence_scope" "persisted fact scope differs from overlay")
  return { s with facts := s.facts.set fact.canonicalId ((s.facts.get? fact.canonicalId).getD [] ++ [fact]) }

/-- `max(…, default=0)`. -/
def greatest : List ℤ → ℤ
  | [] => 0
  | n :: ns => ns.foldl max n

/-- A sequence of the document: an integer that is not negative; a truth value counts as 0 or 1. -/
def sequenceOf (v : Option Json) : Except PersistRaised ℤ :=
  match v with
  | some (.int n) => if n < 0 then .error (refused "persistence_sequence" "persisted sequences are invalid") else .ok n
  | some (.bool b) => .ok (if b then 1 else 0)
  | _ => .error (refused "persistence_sequence" "persisted sequences are invalid")

/-- The header: the payload behind it, when the header fits it. -/
def payloadOf (data : Bytes) : Except PersistRaised Bytes :=
  let headerSize := PERSISTENCE_MAGIC.length + 4 + 32
  if MAX_PERSISTENCE_BYTES + headerSize < data.length then
    .error (refused "persistence_too_large" "overlay persistence exceeds the bounded limit")
  else if data.length < headerSize ∨ data.take PERSISTENCE_MAGIC.length ≠ PERSISTENCE_MAGIC then
    .error (refused "persistence_format" "overlay persistence header is invalid")
  else
    let size := Bytes.unpackBE (Bytes.slice data PERSISTENCE_MAGIC.length (PERSISTENCE_MAGIC.length + 4))
    let digest := Bytes.slice data (PERSISTENCE_MAGIC.length + 4) headerSize
    let payload := data.drop headerSize
    if size ≠ payload.length then
      .error (refused "persistence_truncated" "overlay persistence length is invalid")
    else if Sha256.digest payload ≠ digest then
      .error (refused "persistence_checksum" "overlay persistence checksum is invalid")
    else .ok payload

def documentOf (payload : Bytes) : Except PersistRaised Json :=
  match (PyStr.decode payload).bind Json.loads with
  | none => .error (refused "persistence_json" "overlay persistence payload is invalid")
  | some value =>
    if (value.get? "schema").all fun v => !v.pyEq (.str PERSISTENCE_SCHEMA) then
      .error (refused "persistence_schema" "overlay persistence schema is invalid")
    else .ok value

/-- The scope that the caller of `from_bytes` expects. -/
structure ExpectedScope where
  repository : Option PyStr := none
  baseGeneration : Option PyStr := none
  overlayGeneration : Option PyStr := none

/-- Whether something else is persisted under the key than what is expected, if anything is. -/
def outside (value : Json) (key : PyStr) (expected : Option PyStr) : Bool :=
  expected.any fun s => (value.get? key).all fun v => !v.pyEq (.str s)

def checkScope (e : ExpectedScope) (value : Json) : Except PersistRaised Unit :=
  if outside value "repository" e.repository then
    .error (refused "persistence_scope" "repository scope does not match persisted overlay")
  else if outside value "base_generation" e.baseGeneration then
    .error (refused "persistence_scope" "base generation does not match persisted overlay")
  else if outside value "overlay_generation" e.overlayGeneration then
    .error (refused "persistence_scope" "overlay generation does not match persisted overlay")
  else .ok ()

/-- The empty overlay of the persisted scope; `__init__` raises for empty texts. -/
def scopeOf (value : Json) : Except PersistRaised BitemporalOverlay :=
  match value.get? "repository", value.get? "base_generation" with
  | some (.str repository), some (.str baseGeneration) => do
    let overlayGeneration ← optionalText value "overlay_generation"
    match new repository baseGeneration overlayGeneration with
    | .ok s => return s
    | .error e => throw (.temporal e)
  | _, _ => .error (refused "persistence_scope" "persisted overlay scope is invalid")

def fromBytes (c : Conversions) (data : Bytes) (e : ExpectedScope := {}) :
    Except PersistRaised BitemporalOverlay := do
  let value ← documentOf (← payloadOf data)
  checkScope e value
  let empty ← scopeOf value
  let facts ← match value.get? "facts" with
    | some (.arr vs) => pure vs
    | _ => throw (refused "persistence_facts" "persisted overlay facts are invalid")
  let s ← facts.foldlM (readFact c) empty
  let worldSequence ← sequenceOf (value.get? "world_sequence")
  let observedSequence ← sequenceOf (value.get? "observed_sequence")
  let versions := s.facts.values.flatten
  if worldSequence ≠ greatest (versions.map (·.validFrom)) ∨
      observedSequence ≠ greatest (versions.map (·.observedAt)) then
    throw (refused "persistence_sequence" "persisted sequences do not match facts")
  let overlay := { s with worldSequence, observedSequence }
  if overlay.verify.status ≠ ("valid" : PyStr) then
    throw (refused "persistence_invariant" "persisted overlay invariants are invalid")
  return overlay

end BitemporalOverlay

end SimplicioFast
