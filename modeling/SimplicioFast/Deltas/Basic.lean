import SimplicioFast.Lib.JsonCanonical
import SimplicioFast.Lib.Lines
import SimplicioFast.Prism.Base

/-!
# Deltas of a worktree

A delta holds what the sources of a worktree have changed since a base generation: for each path a record with the digest
of the file and its symbols, or a tombstone.  `create_delta` compares the sources with the hashes of the base and publishes
the delta under the digest of its identity, `load_delta` reads it back and checks all of it again, and `compose_delta`
accepts it when the sources have the hashes of the base with the delta on top.

What `parse_path` finds in a source is a parameter.  The validated base is given, as to calls with `_validated_base`; the
caches, which answer for a file with an unchanged status, are left out.
-/

namespace SimplicioFast

namespace Deltas

/-- The exceptions. -/
inductive DeltaRaised
  | deltaError (reasonCode message : PyStr)
  | valueError (message : PyStr)
  | unicodeEncodeError
deriving DecidableEq

/-- `DeltaError(reason_code, message)`. -/
def deltaError (reasonCode message : PyStr) : DeltaRaised :=
  .deltaError reasonCode (if message = [] then reasonCode else message)

/-- `DeltaError(reason_code, message)`, unless the condition holds. -/
def requireAt (condition : Bool) (reasonCode message : PyStr) : Except DeltaRaised Unit :=
  if condition then .ok () else .error (deltaError reasonCode message)

/-- `DeltaError(reason_code)`, unless the condition holds. -/
def require (condition : Bool) (reasonCode : PyStr) : Except DeltaRaised Unit := requireAt condition reasonCode []

def DELTA_SCHEMA : PyStr := "simplicio.fast.delta/v1"

def MANIFEST_SCHEMA : PyStr := "simplicio.fast.manifest/v1"

/-! ## Digests and names -/

def canonicalJson (value : Json) : Except DeltaRaised Bytes :=
  match (value.dumps false).encode with
  | none => .error .unicodeEncodeError
  | some text => .ok text

def digest (value : Json) : Except DeltaRaised PyStr := do
  let text ← canonicalJson value
  return PyStr.ofChars (Sha256.hexdigest text)

/-- `_hash_source` of the contents of a file. -/
def hashSource (contents : Bytes) : PyStr := PyStr.ofChars (Sha256.hexdigest contents)

/-- `WorkspaceStore._worktree_id`. -/
def checkWorktreeId (value : PyStr) : Except DeltaRaised Unit :=
  if value = [] ∨ (Prism.parts value).getLastD [] ≠ value ∨ value = "." ∨ value = ".." then
    .error (.valueError "worktree_id must be a single safe path component")
  else .ok ()

/-- `GenerationId`. -/
def checkGenerationId (value : PyStr) : Except DeltaRaised Unit :=
  if value.isSha256 then .ok () else .error (.valueError "GenerationId must be a lowercase SHA-256 digest")

def invalidPath (value : PyStr) : PyStr := ("invalid changed path: " : PyStr) ++ value

def normalPath (value : PyStr) : Except DeltaRaised PyStr :=
  let candidate := PyStr.replace "\\" "/" value
  if candidate.head? = some (.scalar '/') ∨ (1 < candidate.length ∧ candidate[1]? = some (.scalar ':')) then
    .error (deltaError "delta_path_invalid" (invalidPath value))
  else
    let candidate := PyStr.stripIf (· = .scalar '/') candidate
    if candidate = [] ∨ candidate = "." ∨ candidate = ".." ∨ ("../" : PyStr).isPrefixOf candidate ∨
        PyStr.contains "/../" candidate then
      .error (deltaError "delta_path_invalid" (invalidPath value))
    else if (".simplicio/" : PyStr).isPrefixOf candidate ∨ candidate = ".simplicio" then
      .error (deltaError "delta_path_derived" (("derived path is not a source delta: " : PyStr) ++ value))
    else .ok candidate

/-! ## Records -/

def isDigest : Json → Bool
  | .str s => s.isSha256
  | _ => false

def isObject : Json → Bool
  | .obj _ => true
  | _ => false

/-- `record["tombstone"]`, of a valid record. -/
def tombstone (record : JsonObject) : Bool :=
  match record.get? "tombstone" with
  | some (.bool b) => b
  | _ => false

/-- `record["sha256"]`, of a valid record that is no tombstone. -/
def sha256 (record : JsonObject) : PyStr :=
  match record.get? "sha256" with
  | some (.str s) => s
  | _ => []

/-- The test of `_validate_record`. -/
def isRecord (record : JsonObject) : Bool :=
  match record.get? "sha256", record.get? "tombstone", record.get? "symbols" with
  | some digest, some (.bool tombstone), some (.arr symbols) =>
    symbols.all isObject && if tombstone then digest matches .null && symbols.isEmpty else isDigest digest
  | _, _, _ => false

def validateRecord (path : PyStr) (record : JsonObject) : Except DeltaRaised Unit :=
  requireAt (isRecord record) "delta_record_invalid" path

def tombstoneRecord : JsonObject where
  fields := [("sha256", .null), ("tombstone", .bool true), ("symbols", .arr [])]
  distinct := ⟨by decide +kernel, trivial, trivial, trivial, trivial⟩

def changedRecord (digest : PyStr) (symbols : List JsonObject) : JsonObject where
  fields := [("sha256", .str digest), ("tombstone", .bool false), ("symbols", .arr (symbols.map JsonObject.toJson))]
  distinct := by
    have keys : (["sha256", "tombstone", "symbols"] : List PyStr).Nodup := by decide +kernel
    refine ⟨keys, trivial, trivial, Json.distinctItems_iff.2 fun v mem => ?_, trivial⟩
    obtain ⟨symbol, -, rfl⟩ := List.mem_map.1 mem
    exact symbol.distinct

/-! ## Deltas -/

/-- What the generation of a delta is the digest of. -/
structure Identity where
  baseGeneration : PyStr
  baseCommit : PyStr
  baseConfigFingerprint : PyStr
  baseSchema : PyStr
  baseSnapshotSha256 : PyStr
  worktreeId : PyStr
  changed : Dict PyStr JsonObject

/-- The arguments of `Delta`. -/
structure Fields extends Identity where
  schema : PyStr
  deltaGeneration : PyStr
  createdAt : PyStr
  deltaSha256 : PyStr

/-- The records of a delta as a JSON value. -/
def changedJson (changed : Dict PyStr JsonObject) : Json := .obj (changed.entries.map fun e => (e.1, e.2.toJson))

/-- `_delta_identity`. -/
def Identity.toJson (i : Identity) : Json :=
  .obj [("schema", .str DELTA_SCHEMA), ("base_generation", .str i.baseGeneration), ("base_commit", .str i.baseCommit),
    ("base_config_fingerprint", .str i.baseConfigFingerprint), ("base_schema", .str i.baseSchema),
    ("base_snapshot_sha256", .str i.baseSnapshotSha256), ("worktree_id", .str i.worktreeId),
    ("changed", changedJson i.changed)]

namespace Fields

variable (f : Fields)

def texts : List PyStr :=
  [f.schema, f.deltaGeneration, f.baseGeneration, f.baseCommit, f.baseConfigFingerprint, f.baseSchema,
    f.baseSnapshotSha256, f.worktreeId, f.createdAt, f.deltaSha256]

def postInit : Except DeltaRaised Unit := do
  require (f.texts.all fun t => t.strip ≠ []) "delta_field_invalid"
  require (f.deltaGeneration.isSha256 && f.baseGeneration.isSha256) "delta_generation_invalid"
  require (f.schema = DELTA_SCHEMA) "delta_schema_mismatch"
  require (f.baseSchema = MANIFEST_SCHEMA) "base_schema_mismatch"
  require (f.baseSnapshotSha256.isSha256 && f.deltaSha256.isSha256) "delta_digest_invalid"
  f.changed.entries.forM fun e => validateRecord e.1 e.2

end Fields

structure Delta extends Fields where
  valid : toFields.postInit = .ok ()

/-- `Delta(...)`. -/
def Fields.make (f : Fields) : Except DeltaRaised Delta :=
  match valid : f.postInit with
  | .error e => .error e
  | .ok () => .ok ⟨f, valid⟩

def Fields.toDict (f : Fields) : Json :=
  .obj [("schema", .str f.schema), ("delta_generation", .str f.deltaGeneration), ("base_generation", .str f.baseGeneration),
    ("base_commit", .str f.baseCommit), ("base_config_fingerprint", .str f.baseConfigFingerprint),
    ("base_schema", .str f.baseSchema), ("base_snapshot_sha256", .str f.baseSnapshotSha256),
    ("worktree_id", .str f.worktreeId), ("changed", changedJson f.changed), ("created_at", .str f.createdAt),
    ("delta_sha256", .str f.deltaSha256)]

/-- The keys that `Delta.from_dict` requires to have texts. -/
def required : List PyStr :=
  ["delta_generation", "base_generation", "base_commit", "base_config_fingerprint", "base_schema", "base_snapshot_sha256",
    "worktree_id", "created_at", "delta_sha256"]

/-- `str(value[key])`, where the value is a text. -/
def textOf (value : JsonObject) (key : PyStr) : PyStr :=
  match value.get? key with
  | some (.str s) => s
  | _ => []

def isText : Json → Bool
  | .str _ => true
  | _ => false

/-- One pass of the loop of `Delta.from_dict` over the records. -/
def loadRecord (changed : Dict PyStr JsonObject) (entry : PyStr × Json) : Except DeltaRaised (Dict PyStr JsonObject) :=
  match JsonObject.ofJson? entry.2 with
  | none => .error (deltaError "delta_record_invalid" [])
  | some record => do
    let normalized ← normalPath entry.1
    require (normalized = entry.1) "delta_record_invalid"
    validateRecord entry.1 record
    return changed.set entry.1 record

/-- The fields that `Delta.from_dict` takes from a dictionary, with these records. -/
def fieldsFrom (value : JsonObject) (changed : Dict PyStr JsonObject) : Fields where
  schema := textOf value "schema"
  deltaGeneration := textOf value "delta_generation"
  baseGeneration := textOf value "base_generation"
  baseCommit := textOf value "base_commit"
  baseConfigFingerprint := textOf value "base_config_fingerprint"
  baseSchema := textOf value "base_schema"
  baseSnapshotSha256 := textOf value "base_snapshot_sha256"
  worktreeId := textOf value "worktree_id"
  changed
  createdAt := textOf value "created_at"
  deltaSha256 := textOf value "delta_sha256"

/-- `Delta.from_dict` of a dictionary. -/
def fromDict (value : JsonObject) : Except DeltaRaised Delta := do
  require ((value.get? "schema").any isText && textOf value "schema" = DELTA_SCHEMA) "delta_schema_mismatch"
  match required.find? fun key => (value.get? key).isNone with
  | some key => .error (deltaError "delta_field_missing" key)
  | none => do
    require (required.all fun key => (value.get? key).any isText) "delta_field_invalid"
    match value.get? "changed" with
    | some (.obj entries) => do
      let changed ← entries.foldlM loadRecord .empty
      (fieldsFrom value changed).make
    | _ => .error (deltaError "delta_shape_invalid" [])

def verifyDelta (delta : Delta) : Except DeltaRaised Unit := do
  let digest ← digest delta.toIdentity.toJson
  require (digest = delta.deltaGeneration && digest = delta.deltaSha256) "delta_digest_mismatch"

/-- The files of the deltas: each under its worktree and its generation. -/
abbrev DeltaFiles := Dict (PyStr × PyStr) Bytes

/-- The JSON value in the file of a delta; line endings are white space for `json.loads`. -/
def readDelta (files : DeltaFiles) (worktreeId generation : PyStr) : Except DeltaRaised Json :=
  match ((files.get? (worktreeId, generation)).bind PyStr.decode).bind Json.loads with
  | none => .error (deltaError "delta_missing" [])
  | some value => .ok value

/-- `Delta.from_dict` of a JSON value. -/
def ofJson (value : Json) : Except DeltaRaised Delta :=
  match JsonObject.ofJson? value with
  | none => .error (deltaError "delta_shape_invalid" [])
  | some value => fromDict value

def loadDelta (files : DeltaFiles) (worktreeId generation : PyStr) : Except DeltaRaised Delta := do
  checkWorktreeId worktreeId
  checkGenerationId generation
  let value ← readDelta files worktreeId generation
  let delta ← ofJson value
  require (delta.deltaGeneration = generation && delta.worktreeId = worktreeId) "delta_identity_mismatch"
  verifyDelta delta
  return delta

/-! ## The sources of a worktree -/

/-- A validated base: the entries of its manifest that are read, and the digest of its snapshot. -/
structure Base where
  schema : PyStr
  commit : PyStr
  configFingerprint : PyStr
  sourceHashes : Dict PyStr PyStr
  snapshotSha256 : PyStr

/-- The files below the root. -/
structure Worktree where
  /-- the files that `source_files` lists, by their paths relative to the root -/
  sources : Dict PyStr Bytes
  /-- whether `(root / relative).resolve()` is below the root, and its contents when it is a file with a source suffix -/
  resolve : PyStr → Bool × Option Bytes

/-- `store.source_hash` of each of the files. -/
def hashes (sources : Dict PyStr Bytes) : Dict PyStr PyStr where
  entries := sources.entries.map fun e => (e.1, hashSource e.2)
  nodup := by
    rw [List.map_map]
    exact sources.nodup

/-- `sorted({_normal_path(path) for path in changed_paths})`, for given paths. -/
def scope (changedPaths : Option (List PyStr)) : Except DeltaRaised (Option (List PyStr)) :=
  match changedPaths with
  | none => .ok none
  | some paths => do
    let normalized ← paths.mapM normalPath
    return some (PyStr.sortedSet normalized)

/-! ## `create_delta` -/

def currentPaths (tree : Worktree) : Option (List PyStr) → Except DeltaRaised (Dict PyStr Bytes)
  | none => .ok tree.sources
  | some requested => requested.foldlM (fun found relative => do
      requireAt (tree.resolve relative).1 "delta_path_invalid" relative
      return match (tree.resolve relative).2 with
        | none => found
        | some contents => found.set relative contents) .empty

/-- The error for a path that neither the worktree nor the base has. -/
def checkRequested (base : Base) (current : Dict PyStr Bytes) (requested : Option (List PyStr)) : Except DeltaRaised Unit :=
  match (requested.getD []).find? fun path => (current.get? path).isNone && (base.sourceHashes.get? path).isNone with
  | none => .ok ()
  | some path => .error (deltaError "delta_path_missing" path)

def candidates (base : Base) (current : Dict PyStr Bytes) : Option (List PyStr) → List PyStr
  | none => PyStr.sortedSet (current.keys ++ base.sourceHashes.keys)
  | some requested => requested

section

variable (parse : PyStr → Bytes → Except DeltaRaised (List JsonObject)) (base : Base) (current : Dict PyStr Bytes)

/-- The record of a candidate, if it has changed. -/
def recordOf (relative : PyStr) : Except DeltaRaised (Option JsonObject) :=
  match current.get? relative with
  | none => .ok (if (base.sourceHashes.get? relative).isSome then some tombstoneRecord else none)
  | some contents =>
    if base.sourceHashes.get? relative = some (hashSource contents) then .ok none
    else do
      let symbols ← parse relative contents
      return some (changedRecord (hashSource contents) symbols)

/-- The records with the one of a path that has changed. -/
def put (changed : Dict PyStr JsonObject) (relative : PyStr) : Option JsonObject → Dict PyStr JsonObject
  | none => changed
  | some record => changed.set relative record

/-- One pass of the loop over the candidates. -/
def change (changed : Dict PyStr JsonObject) (relative : PyStr) : Except DeltaRaised (Dict PyStr JsonObject) := do
  let record ← recordOf parse base current relative
  return put changed relative record

end

/-- The identity of a delta of the base. -/
def Base.identity (base : Base) (baseGeneration worktreeId : PyStr) (changed : Dict PyStr JsonObject) : Identity where
  baseGeneration
  baseCommit := base.commit
  baseConfigFingerprint := base.configFingerprint
  baseSchema := base.schema
  baseSnapshotSha256 := base.snapshotSha256
  worktreeId
  changed

def Identity.fields (i : Identity) (generation createdAt : PyStr) : Fields :=
  { i with schema := DELTA_SCHEMA, deltaGeneration := generation, createdAt, deltaSha256 := generation }

/-- `_atomic_json` of a delta. -/
def publish (files : DeltaFiles) (delta : Delta) : Except DeltaRaised (Delta × DeltaFiles) := do
  let text ← canonicalJson delta.toDict
  return (delta, files.set (delta.worktreeId, delta.deltaGeneration) text)

/-- The end of `create_delta`: a valid file of the generation is kept. -/
def keepOrPublish (files : DeltaFiles) (delta : Delta) : Except DeltaRaised (Delta × DeltaFiles) :=
  if (files.get? (delta.worktreeId, delta.deltaGeneration)).isSome then
    match loadDelta files delta.worktreeId delta.deltaGeneration with
    | .ok old => .ok (old, files)
    | .error (.deltaError _ _) => publish files delta
    | .error e => .error e
  else publish files delta

def createDelta (parse : PyStr → Bytes → Except DeltaRaised (List JsonObject)) (createdAt : PyStr) (tree : Worktree)
    (files : DeltaFiles) (base : Base) (baseGeneration worktreeId : PyStr) (changedPaths : Option (List PyStr))
    (configFingerprint : Option PyStr) : Except DeltaRaised (Delta × DeltaFiles) := do
  checkWorktreeId worktreeId
  require (configFingerprint.all (· = base.configFingerprint)) "config_fingerprint_mismatch"
  let requested ← scope changedPaths
  let current ← currentPaths tree requested
  checkRequested base current requested
  let changed ← (candidates base current requested).foldlM (change parse base current) .empty
  let generation ← digest (base.identity baseGeneration worktreeId changed).toJson
  let delta ← ((base.identity baseGeneration worktreeId changed).fields generation createdAt).make
  keepOrPublish files delta

/-! ## `compose_delta` -/

/-- One pass of the loop of `_composed_source_hashes`. -/
def composeRecord (hashes : Dict PyStr PyStr) (entry : PyStr × JsonObject) : Dict PyStr PyStr :=
  if tombstone entry.2 then hashes.erase entry.1 else hashes.set entry.1 (sha256 entry.2)

def composedSourceHashes (base : Base) (changed : Dict PyStr JsonObject) : Dict PyStr PyStr :=
  changed.entries.foldl composeRecord base.sourceHashes

def validateDeltaBase (baseGeneration : PyStr) (delta : Delta) (base : Base) (configFingerprint : Option PyStr) :
    Except DeltaRaised Unit := do
  require (delta.baseGeneration = baseGeneration) "base_generation_mismatch"
  require (delta.baseCommit = base.commit) "base_commit_mismatch"
  require (delta.baseConfigFingerprint = base.configFingerprint) "config_fingerprint_mismatch"
  require (configFingerprint.all (· = base.configFingerprint)) "config_fingerprint_mismatch"
  require (delta.baseSchema = base.schema && delta.baseSnapshotSha256 = base.snapshotSha256)
    "base_artifact_digest_mismatch"

def currentHashes (tree : Worktree) : Option (List PyStr) → Dict PyStr PyStr
  | none => hashes tree.sources
  | some scopedPaths => scopedPaths.foldl (fun found relative => match (tree.resolve relative).2 with
      | none => found
      | some contents => found.set relative (hashSource contents)) .empty

/-- One pass of the loop of `_validate_composed_sources`. -/
def checkPath (current expected : Dict PyStr PyStr) (changed : Dict PyStr JsonObject) (relative : PyStr) :
    Except DeltaRaised Unit :=
  if current.get? relative = expected.get? relative then .ok ()
  else if (changed.get? relative).isNone then .error (deltaError "delta_source_unlisted" relative)
  else .error (deltaError "delta_source_stale" relative)

def validateComposedSources (tree : Worktree) (base : Base) (delta : Delta) (scopedPaths : Option (List PyStr)) :
    Except DeltaRaised Unit :=
  let current := currentHashes tree scopedPaths
  let expected := composedSourceHashes base delta.changed
  (scopedPaths.getD (PyStr.sortedSet (current.keys ++ expected.keys))).forM (checkPath current expected delta.changed)

/-- `compose_delta`: the delta that becomes the overlay of the base. -/
def composeDelta (tree : Worktree) (files : DeltaFiles) (base : Base) (baseGeneration worktreeId deltaGeneration : PyStr)
    (configFingerprint : Option PyStr) (changedPaths : Option (List PyStr)) : Except DeltaRaised Delta := do
  let delta ← loadDelta files worktreeId deltaGeneration
  validateDeltaBase baseGeneration delta base configFingerprint
  let scopedPaths ← scope changedPaths
  validateComposedSources tree base delta scopedPaths
  return delta

end Deltas

end SimplicioFast
